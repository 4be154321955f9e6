import Assortment.Proofs.Run.Conclusion
import Assortment.Proofs.Session.History

/-!
# Sessions follow their history

A step is looked at together with the steps before it, for these decide which groups are active when
it is taken.  From that alone one can tell what the step adds to the history: the event that it is
for the stored groups, and the run that it asks for.

The store, the active groups and the last report of a session are what the history of its steps
tells.  Each of them changes under one step as the history changes when the step is put at its end,
and an induction from the last step backwards carries this over to all steps.
-/

namespace Assortment.Session

/-- A run that is asked for, with the groups that it is for. -/
structure Request where
  method : String
  data : Row
  groups : List String

namespace Request

/-- What the run that is asked for comes to. -/
def outcome
    (catalogue : Catalogue)
    (options : Options)
    (request : Request) :
    Except Failure Generated :=
  catalogue.generate options request.method request.data request.groups

/-- Whether a request names a registered method. -/
def isReaching (catalogue : Catalogue) (request : Request) : Bool :=
  (catalogue.get? request.method).isSome

/-- The report of the run that is asked for, which is there even if the run fails. -/
def report?
    (catalogue : Catalogue)
    (options : Options)
    (request : Request) :
    Option RunReport :=
  Outcome.report? (request.outcome catalogue options)

/-- A run that succeeds writes its variations. -/
def event?
    (catalogue : Catalogue)
    (options : Options)
    (request : Request) :
    Option Event :=
  match request.outcome catalogue options with
  | .ok generated => some (.wrote request.groups generated.variations)
  | .error _ => none

/-- The runs that have a report are those of registered methods. -/
theorem isSome_report?
    (catalogue : Catalogue)
    (options : Options)
    (request : Request) :
    (request.report? catalogue options).isSome = request.isReaching catalogue := by
  rw [report?, outcome, isReaching, Catalogue.generate]
  cases catalogue.get? request.method with
  | none => rfl
  | some method =>
    have concluded :=
      method.concludes_generate options request.method request.data request.groups
    cases result : method.generate options request.method request.data request.groups with
    | ok generated => simp [result, Outcome.report?]
    | error failure =>
      rw [result] at concluded
      cases concluded <;> simp [result, Outcome.report?]

end Request

namespace Step

/-- The groups that a step makes the active ones. -/
def activated? : Step → Option (List String)
  | activate groups => some groups
  | _ => none

/-- The run that a step asks for when certain groups are active. -/
def request? (active : List String) : Step → Option Request
  | run method data => some ⟨method, data, active⟩
  | generate method data groups => some ⟨method, data, groups⟩
  | _ => none

/-- What a step is for the stored groups when certain groups are active. -/
def event?
    (catalogue : Catalogue)
    (options : Options)
    (active : List String)
    (step : Step) :
    Option Event :=
  match step with
  | reset group => some (.forgot group)
  | other => (other.request? active).bind (Request.event? catalogue options)

end Step

/-- Steps, each with those before it. -/
def withPast : List Step → List Step → List (List Step × Step)
  | _, [] => []
  | past, step :: later => (past, step) :: withPast (past ++ [step]) later

/-- The groups that were made the active ones last, none at first. -/
def lastActivated (steps : List Step) : List String :=
  (steps.filterMap Step.activated?).getLast?.getD []

/-- The runs that steps ask for, in order. -/
def requests (steps : List Step) : List Request :=
  (withPast [] steps).filterMap fun entry => entry.2.request? (lastActivated entry.1)

section History

variable (catalogue : Catalogue) (options : Options)

/-- What steps are for the stored groups, in order. -/
def events (steps : List Step) : List Event :=
  (withPast [] steps).filterMap fun entry =>
    entry.2.event? catalogue options (lastActivated entry.1)

/-- The report of the last run that reaches a registered method. -/
def reportedLast (steps : List Step) : Option RunReport :=
  ((requests steps).filter (Request.isReaching catalogue)).getLast?.bind
    (Request.report? catalogue options)

end History

theorem withPast_concat
    (past steps : List Step)
    (step : Step) :
    withPast past (steps ++ [step]) = withPast past steps ++ [(past ++ steps, step)] := by
  induction steps generalizing past with
  | nil => simp [withPast]
  | cons first later inductionHypothesis =>
    simp [withPast, inductionHypothesis]

theorem lastActivated_concat
    (steps : List Step)
    (step : Step) :
    lastActivated (steps ++ [step]) = step.activated?.getD (lastActivated steps) := by
  rw [lastActivated, lastActivated, List.filterMap_append]
  cases activates : step.activated? with
  | none => simp [activates]
  | some groups => simp [activates]

theorem requests_concat
    (steps : List Step)
    (step : Step) :
    requests (steps ++ [step]) =
      requests steps ++ (step.request? (lastActivated steps)).toList := by
  rw [requests, withPast_concat, List.filterMap_append, List.nil_append]
  rfl

theorem events_concat
    (catalogue : Catalogue)
    (options : Options)
    (steps : List Step)
    (step : Step) :
    events catalogue options (steps ++ [step]) =
      events catalogue options steps ++
        (step.event? catalogue options (lastActivated steps)).toList := by
  rw [events, withPast_concat, List.filterMap_append, List.nil_append]
  rfl

/-- The last step decides the report if it makes one that has any. -/
theorem reportedLast_concat
    (catalogue : Catalogue)
    (options : Options)
    (steps : List Step)
    (step : Step) :
    reportedLast catalogue options (steps ++ [step]) =
      ((step.request? (lastActivated steps)).bind
        (Request.report? catalogue options)).or (reportedLast catalogue options steps) := by
  rw [reportedLast, reportedLast, requests_concat, List.filter_append]
  cases asked : step.request? (lastActivated steps) with
  | none => simp
  | some request =>
    have reaches := request.isSome_report? catalogue options
    cases reported : request.report? catalogue options with
    | none =>
      rw [reported] at reaches
      simp [← reaches, reported]
    | some report =>
      rw [reported] at reaches
      simp [← reaches, reported]

/-- A run changes the store as its event does, and the last report when it has one. -/
theorem generateInto_eq
    (session : Session)
    (request : Request) :
    (session.generateInto request.method request.data request.groups).1 =
      { session with
        store :=
          (request.event? session.catalogue session.options).elim session.store
            (Event.apply session.store)
        lastReport :=
          (request.report? session.catalogue session.options).or session.lastReport } := by
  rw [generateInto, Request.event?, Request.report?, Request.outcome]
  cases session.catalogue.generate session.options request.method request.data request.groups with
  | ok generated => rfl
  | error failure =>
    rw [Outcome.report?_error]
    cases reported : failure.report? with
    | none => simp [reported]
    | some report => simp [reported]

/-- One step changes each part of a session as it adds to the history. -/
theorem perform_eq
    (session : Session)
    (step : Step) :
    (session.perform step).1 =
      { session with
        store :=
          (step.event? session.catalogue session.options session.activeGroups).elim
            session.store (Event.apply session.store)
        activeGroups := step.activated?.getD session.activeGroups
        lastReport :=
          ((step.request? session.activeGroups).bind
            (Request.report? session.catalogue session.options)).or session.lastReport } := by
  cases step with
  | activate groups => rfl
  | reset group => rfl
  | read query => rfl
  | run method data =>
    exact session.generateInto_eq ⟨method, data, session.activeGroups⟩
  | generate method data groups =>
    exact session.generateInto_eq ⟨method, data, groups⟩

/-- A step that asks for a run that fails leaves everything but the last report as it is. -/
theorem perform_of_failure
    {session : Session}
    {step : Step}
    {request : Request}
    {failure : Failure}
    (asks : step.request? session.activeGroups = some request)
    (failed : request.outcome session.catalogue session.options = .error failure) :
    (session.perform step).1 =
      { session with
        lastReport := (Outcome.report? (.error failure)).or session.lastReport } := by
  have idle : step.activated? = none := by
    cases step with
    | activate groups => cases asks
    | _ => rfl
  have written :
      step.event? session.catalogue session.options session.activeGroups =
        request.event? session.catalogue session.options := by
    cases step with
    | run method data => cases asks; rfl
    | generate method data groups => cases asks; rfl
    | _ => cases asks
  rw [perform_eq, idle, written, asks, Option.bind_some, Request.event?, Request.report?, failed]
  rfl

/-- A session in which nothing is held but what the history of the steps tells. -/
structure Follows
    (catalogue : Catalogue)
    (options : Options)
    (steps : List Step)
    (session : Session) :
    Prop where
  catalogue_eq : session.catalogue = catalogue
  options_eq : session.options = options
  names_eq : session.store.names = listedGroups (events catalogue options steps)
  group_eq : ∀ name, session.store.group name = rowsSince name (events catalogue options steps)
  activeGroups_eq : session.activeGroups = lastActivated steps
  lastReport_eq : session.lastReport = reportedLast catalogue options steps

/-- A session that has just been started follows the empty history. -/
theorem follows_start
    (catalogue : Catalogue)
    (options : Options) :
    Follows catalogue options [] (start catalogue options) where
  catalogue_eq := rfl
  options_eq := rfl
  names_eq := rfl
  group_eq _ := rfl
  activeGroups_eq := rfl
  lastReport_eq := rfl

/-- A session that follows a history follows it with one more step after performing the step. -/
theorem Follows.perform
    {catalogue : Catalogue}
    {options : Options}
    {steps : List Step}
    {session : Session}
    (follows : Follows catalogue options steps session)
    (step : Step) :
    Follows catalogue options (steps ++ [step]) (session.perform step).1 := by
  rw [perform_eq, follows.catalogue_eq, follows.options_eq, follows.activeGroups_eq]
  refine ⟨rfl, rfl, ?names, ?group, ?active, ?report⟩
  case names =>
    rw [events_concat]
    cases step.event? catalogue options (lastActivated steps) with
    | none => simpa using follows.names_eq
    | some event => exact names_apply follows.names_eq event
  case group =>
    intro name
    rw [events_concat]
    cases step.event? catalogue options (lastActivated steps) with
    | none => simpa using follows.group_eq name
    | some event => exact group_apply (follows.group_eq name) event
  case active => exact (lastActivated_concat steps step).symm
  case report =>
    rw [reportedLast_concat, ← follows.lastReport_eq]

/-- However many steps a session has performed, it follows their history. -/
theorem follows_performAll
    (catalogue : Catalogue)
    (options : Options)
    (steps : List Step) :
    Follows catalogue options steps ((start catalogue options).performAll steps).1 := by
  -- A step is taken after all steps before it, so the induction removes the last one.
  induction steps using List.reverseRecOn with
  | nil => exact follows_start catalogue options
  | append_singleton earlier step inductionHypothesis =>
    rw [performAll_append]
    exact inductionHypothesis.perform step

/-- After any steps a session holds exactly what their history tells. -/
theorem performAll_eq_history
    (catalogue : Catalogue)
    (options : Options)
    (steps : List Step) :
    let session := ((start catalogue options).performAll steps).1
    let history := events catalogue options steps
    session.store.groups.entries =
        (listedGroups history).map (fun name => (name, rowsSince name history)) ∧
      (∀ name, session.store.group name = rowsSince name history) ∧
      session.activeGroups = lastActivated steps ∧
      session.lastReport = reportedLast catalogue options steps ∧
      (∀ request : Request,
        (request.report? catalogue options).isSome = request.isReaching catalogue) ∧
      (∀ query, (session.perform (.read query)).1 = session) ∧
      ∀ step request failure,
        step.request? session.activeGroups = some request →
          request.outcome catalogue options = .error failure →
            (session.perform step).1 =
              { session with
                lastReport := (Outcome.report? (.error failure)).or session.lastReport } := by
  intro session history
  have follows : Follows catalogue options steps session :=
    follows_performAll catalogue options steps
  refine ⟨?entries, follows.group_eq, follows.activeGroups_eq, follows.lastReport_eq,
    Request.isSome_report? catalogue options, ?reads, ?failures⟩
  case entries =>
    rw [Store.entries_eq_map_names, follows.names_eq]
    apply List.map_congr_left
    intro name _
    rw [follows.group_eq]
  case reads =>
    intro query
    rfl
  case failures =>
    intro step request failure asks failed
    rw [← follows.catalogue_eq, ← follows.options_eq] at failed
    exact perform_of_failure asks failed

end Assortment.Session
