import Assortment.Run.Generate
import Assortment.Store

/-!
# Sessions

A session runs methods of one catalogue one after the other and keeps their variations in a store.
Runs go to the active groups or to groups named with the run.  A run that fails leaves the store
as it is; the last report is that of the latest run that got as far as a registered method,
whether it succeeded or failed.
-/

namespace Assortment

/-- A catalogue with options, a store, the active groups and the last report. -/
structure Session where
  catalogue : Catalogue
  options : Options
  store : Store
  activeGroups : List String
  lastReport : Option RunReport
  deriving DecidableEq

namespace Session

/-- A session with an empty store, no active groups and no report. -/
def start (catalogue : Catalogue) (options : Options) : Session where
  catalogue := catalogue
  options := options
  store := .empty
  activeGroups := []
  lastReport := none

/-- Make some groups the ones that later runs write to. -/
def activate (session : Session) (groups : List String) : Session :=
  { session with activeGroups := groups }

/-- Forget the rows of one group, or of all groups. -/
def reset (session : Session) (group : Option String) : Session :=
  { session with store := session.store.reset group }

/-- What the store of a session answers. -/
def read (session : Session) (query : Query) : View :=
  session.store.read query

/-- Run a method and append its variations to groups; the answer is the report or the failure. -/
def generateInto
    (session : Session)
    (method : String)
    (data : Row)
    (groups : List String) :
    Session × Except Failure RunReport :=
  match session.catalogue.generate session.options method data groups with
  | .ok generated =>
    ({ session with
        store := session.store.append groups generated.variations
        lastReport := some generated.report },
      .ok generated.report)
  | .error failure =>
    match failure.report? with
    | some report => ({ session with lastReport := some report }, .error failure)
    | none => (session, .error failure)

/-- Run a method for the active groups, whatever comes of it. -/
def run (session : Session) (method : String) (data : Row) : Session :=
  (session.generateInto method data session.activeGroups).1

end Session

end Assortment
