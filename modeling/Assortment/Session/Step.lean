import Assortment.Session.Basic

/-!
# Steps of a session

What a client does with a session is a sequence of steps.  Each step changes the session or leaves
it as it is, and each has an answer: the outcome of a run for groups that are named with it, what
the store holds, or nothing more than that the step is done.
-/

namespace Assortment.Session

/-- One thing that a client asks of a session. -/
inductive Step where
  | activate (groups : List String)
  /-- Forget one group, or all groups when none is named. -/
  | reset (group : Option String)
  /-- Run a method for the active groups. -/
  | run (method : String) (data : Row)
  /-- Run a method for groups named with it. -/
  | generate (method : String) (data : Row) (groups : List String)
  | read (query : Query)
  deriving DecidableEq

/-- What a step answers. -/
inductive Answer where
  | done
  | outcome (result : Except Failure RunReport)
  | view (view : View)

/-- The session after a step, and the answer that the step gives. -/
def perform (session : Session) : Step → Session × Answer
  | .activate groups => (session.activate groups, .done)
  | .reset group => (session.reset group, .done)
  | .run method data => (session.run method data, .done)
  | .generate method data groups =>
    let changed := session.generateInto method data groups
    (changed.1, .outcome changed.2)
  | .read query => (session, .view (session.read query))

/-- Carry out steps in turn and collect their answers. -/
def performAll : Session → List Step → Session × List Answer
  | session, [] => (session, [])
  | session, step :: rest =>
    let first := session.perform step
    let others := performAll first.1 rest
    (others.1, first.2 :: others.2)

/-- Steps can be performed in two parts, the second going on from where the first ends. -/
theorem performAll_append
    (session : Session)
    (earlier later : List Step) :
    session.performAll (earlier ++ later) =
      let first := session.performAll earlier
      let others := first.1.performAll later
      (others.1, first.2 ++ others.2) := by
  induction earlier generalizing session with
  | nil => rfl
  | cons step rest inductionHypothesis =>
    simp only [List.cons_append, performAll, inductionHypothesis]

end Assortment.Session
