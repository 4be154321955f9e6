import Assortment.Proofs.Run.Variations
import Assortment.Proofs.Session.Refinement
import Assortment.Proofs.Store.Restriction

/-!
# Clients with groups of their own

Several clients share one session.  Each of them names groups of its own only: it runs methods for
them, forgets them one at a time and reads them by name.  Whatever order the steps of the clients
are taken in, no client can tell that it is not alone.

The proof keeps two sessions side by side, the shared one and one in which only the steps of a
single client are taken, and compares them on the groups of that client.  A step of the client
itself has the same answer in both and keeps them alike.  A step of any other client is taken in
the shared session only and does not change the part that is compared.

A report leaves the identification of its run and its duration blank, so equal answers are equal
in everything else that a report tells.
-/

namespace Assortment.Session

variable {owns others : String → Bool}

/-- The events that concern groups of a set only. -/
inductive Event.Within (owns : String → Bool) : Event → Prop
  | wrote
      {groups : List String}
      {rows : List Row}
      (own : ∀ group ∈ groups, owns group = true) :
      Within owns (.wrote groups rows)
  | forgot
      {group : String}
      (own : owns group = true) :
      Within owns (.forgot (some group))

/-- An event within the names kept has the same effect on what is kept of a store. -/
theorem Event.Within.restrict_apply
    {event : Event}
    (within : event.Within owns)
    (store : Store) :
    (event.apply store).restrict owns = event.apply (store.restrict owns) := by
  cases within with
  | wrote own => rw [apply, Store.restrict_append, List.filter_eq_self.2 own, apply]
  | forgot own => exact store.restrict_reset _

/-- An event within other names has no effect on what is kept of a store. -/
theorem Event.Within.restrict_apply_of_disjoint
    {event : Event}
    (within : event.Within others)
    (apart : ∀ name, others name = true → owns name = false)
    (store : Store) :
    (event.apply store).restrict owns = store.restrict owns := by
  cases within with
  | @wrote groups rows own =>
    have foreign : ∀ group ∈ groups, ¬ owns group = true := by
      intro group listed
      simp [apart group (own group listed)]
    rw [apply, Store.restrict_append, List.filter_eq_nil_iff.2 foreign]
    rfl
  | forgot own =>
    rw [apply, Store.restrict_reset, Store.reset_restrict_of_not_kept store (apart _ own)]

/-- The steps of a client that names groups of its own only. -/
inductive Step.Private (owns : String → Bool) : Step → Prop
  | generate
      {method : String}
      {data : Row}
      {groups : List String}
      (own : ∀ group ∈ groups, owns group = true) :
      Private owns (.generate method data groups)
  | reset
      {group : String}
      (own : owns group = true) :
      Private owns (.reset (some group))
  | readOne
      {name : String}
      (own : owns name = true) :
      Private owns (.read (.one name))
  | readMany
      {names : List String}
      (own : ∀ name ∈ names, owns name = true) :
      Private owns (.read (.many names))

/-- What a private step is for the stored groups does not depend on the active ones. -/
theorem Step.Private.event?_eq
    {step : Step}
    (own : step.Private owns)
    (catalogue : Catalogue)
    (options : Options)
    (active : List String) :
    step.event? catalogue options active = step.event? catalogue options [] := by
  cases own <;> rfl

theorem Step.Private.within_of_event?
    {step : Step}
    (own : step.Private owns)
    {catalogue : Catalogue}
    {options : Options}
    {active : List String}
    {event : Event}
    (happens : step.event? catalogue options active = some event) :
    event.Within owns := by
  cases own with
  | @generate method data groups own =>
    have written :
        Request.event? catalogue options ⟨method, data, groups⟩ = some event := happens
    rw [Request.event?] at written
    split at written
    · cases written
      exact .wrote own
    · cases written
  | reset own =>
    cases happens
    exact .forgot own
  | readOne own => cases happens
  | readMany own => cases happens

/-- Two sessions that are the same to a client with certain groups. -/
structure Alike (owns : String → Bool) (left right : Session) : Prop where
  catalogue_eq : left.catalogue = right.catalogue
  options_eq : left.options = right.options
  store_eq : left.store.restrict owns = right.store.restrict owns

theorem Alike.refl
    (owns : String → Bool)
    (session : Session) :
    Alike owns session session where
  catalogue_eq := rfl
  options_eq := rfl
  store_eq := rfl

/-- A run answers what the catalogue answers, whatever is stored. -/
theorem answer_generateInto
    (session : Session)
    (method : String)
    (data : Row)
    (groups : List String) :
    (session.generateInto method data groups).2 =
      (session.catalogue.generate session.options method data groups).map Generated.report := by
  rw [generateInto]
  cases session.catalogue.generate session.options method data groups with
  | ok generated => rfl
  | error failure => cases reported : failure.report? <;> simp [reported, Except.map]

/-- Sessions that look alike to an owner give the same answer to a private step. -/
theorem Alike.answer_eq
    {left right : Session}
    (alike : Alike owns left right)
    {step : Step}
    (own : step.Private owns) :
    (left.perform step).2 = (right.perform step).2 := by
  cases own with
  | generate own =>
    simp only [Session.perform, answer_generateInto, alike.catalogue_eq, alike.options_eq]
  | reset own => rfl
  | readOne own =>
    simp only [Session.perform, read, Store.read]
    rw [← left.store.group_restrict own, alike.store_eq, right.store.group_restrict own]
  | readMany own =>
    simp only [Session.perform, read, Store.read]
    rw [← left.store.select_restrict own, alike.store_eq, right.store.select_restrict own]

/-- A step that a client takes in two sessions that are alike to it keeps them alike. -/
theorem Alike.perform
    {left right : Session}
    (alike : Alike owns left right)
    {step : Step}
    (own : step.Private owns) :
    Alike owns (left.perform step).1 (right.perform step).1 := by
  rw [perform_eq, perform_eq]
  refine ⟨alike.catalogue_eq, alike.options_eq, ?_⟩
  rw [own.event?_eq, own.event?_eq right.catalogue, alike.catalogue_eq, alike.options_eq]
  cases happens : step.event? right.catalogue right.options [] with
  | none => exact alike.store_eq
  | some event =>
    have within := own.within_of_event? happens
    calc
      (event.apply left.store).restrict owns = event.apply (left.store.restrict owns) :=
        within.restrict_apply left.store
      _ = event.apply (right.store.restrict owns) := by rw [alike.store_eq]
      _ = (event.apply right.store).restrict owns := (within.restrict_apply right.store).symm

/-- A step of a client with other groups, taken in one of the sessions only, keeps them alike. -/
theorem Alike.perform_foreign
    {left right : Session}
    (alike : Alike owns left right)
    (apart : ∀ name, others name = true → owns name = false)
    {step : Step}
    (foreign : step.Private others) :
    Alike owns (left.perform step).1 right := by
  rw [perform_eq]
  refine ⟨alike.catalogue_eq, alike.options_eq, ?_⟩
  cases happens : step.event? left.catalogue left.options left.activeGroups with
  | none => exact alike.store_eq
  | some event =>
    have within := foreign.within_of_event? happens
    exact (within.restrict_apply_of_disjoint apart left.store).trans alike.store_eq

section Schedules

variable {Client : Type} [DecidableEq Client]

/-- The steps of one client in a schedule, in order. -/
def stepsOf (client : Client) (schedule : List (Client × Step)) : List Step :=
  (schedule.filter fun entry => entry.1 = client).map Prod.snd

/-- Those answers to the steps of a schedule that one client gets. -/
def answersTo
    (client : Client)
    (schedule : List (Client × Step))
    (answers : List Answer) :
    List Answer :=
  ((schedule.zip answers).filter fun entry => entry.1.1 = client).map Prod.snd

/-- A schedule interleaves the steps of its clients when it has those of each in their order. -/
def Interleaves (steps : Client → List Step) (schedule : List (Client × Step)) : Prop :=
  ∀ client, stepsOf client schedule = steps client

/-- No group belongs to two clients. -/
def Apart (owned : Client → String → Bool) : Prop :=
  ∀ one other, one ≠ other → ∀ name, owned one name = true → owned other name = false

variable {owned : Client → String → Bool}

/-- Over any schedule of private steps, a client gets the answers it gets alone, and the sessions
stay alike to it. -/
theorem Alike.performAll
    (apart : Apart owned)
    {client : Client}
    {shared alone : Session}
    (alike : Alike (owned client) shared alone)
    {schedule : List (Client × Step)}
    (own : ∀ entry ∈ schedule, entry.2.Private (owned entry.1)) :
    let together := shared.performAll (schedule.map Prod.snd)
    let single := alone.performAll (stepsOf client schedule)
    answersTo client schedule together.2 = single.2 ∧
      Alike (owned client) together.1 single.1 := by
  induction schedule generalizing shared alone with
  | nil => exact ⟨rfl, alike⟩
  | cons entry rest inductionHypothesis =>
    rcases entry with ⟨actor, step⟩
    have taken : step.Private (owned actor) := own _ List.mem_cons_self
    have later : ∀ entry ∈ rest, entry.2.Private (owned entry.1) := by
      intro entry listed
      exact own entry (List.mem_cons_of_mem _ listed)
    -- A step of another client is taken in the shared session only, so `alone` stays behind.
    by_cases same : actor = client
    · subst same
      have next := inductionHypothesis (alike.perform taken) later
      have answered := alike.answer_eq taken
      simp only [answersTo, stepsOf, List.map_cons, Session.performAll,
        List.zip_cons_cons] at next ⊢
      simp only [List.filter_cons, decide_true, if_true, List.map_cons, Session.performAll,
        answered]
      exact ⟨congrArg _ next.1, next.2⟩
    · have next :=
        inductionHypothesis (alike.perform_foreign (apart actor client same) taken) later
      simp only [answersTo, stepsOf, List.map_cons, Session.performAll,
        List.zip_cons_cons] at next ⊢
      simp only [List.filter_cons, same, decide_false, Bool.false_eq_true, if_false]
      exact next

/--
Clients that name groups of their own only do not notice each other: in every interleaving of
their steps each client gets the answers that it gets alone, and its groups end with the same rows
and in the same order.
-/
theorem performAll_interleaved
    (session : Session)
    (apart : Apart owned)
    {steps : Client → List Step}
    (own : ∀ client, ∀ step ∈ steps client, step.Private (owned client))
    {schedule : List (Client × Step)}
    (interleaves : Interleaves steps schedule)
    (client : Client) :
    let together := session.performAll (schedule.map Prod.snd)
    let alone := session.performAll (steps client)
    answersTo client schedule together.2 = alone.2 ∧
      together.1.store.restrict (owned client) = alone.1.store.restrict (owned client) := by
  have entryOwn : ∀ entry ∈ schedule, entry.2.Private (owned entry.1) := by
    intro entry listed
    apply own entry.1
    rw [← interleaves entry.1]
    exact List.mem_map.2 ⟨entry, List.mem_filter.2 ⟨listed, by simp⟩, rfl⟩
  have run := (Alike.refl (owned client) session).performAll apart entryOwn
  rw [interleaves client] at run
  exact ⟨run.1, run.2.store_eq⟩

end Schedules

/-- One client writes a group, forgets it and reads it; the other fills and reads two groups. -/
def pairSteps : Bool → List Step
  | true =>
    [.generate "drill" drillInput ["a"], .reset (some "a"), .generate "drill" drillInput ["a"],
      .read (.one "a")]
  | false =>
    [.generate "drill" drillInput ["c", "b"], .generate "unheard" drillInput ["b"],
      .read (.many ["b", "c"])]

/-- The groups of two clients, which have none in common. -/
def pairOwned : Bool → String → Bool
  | true, name => name == "a"
  | false, name => name == "b" || name == "c"

/-- A schedule in which the two clients take turns. -/
def pairSchedule : List (Bool × Step) :=
  [(true, .generate "drill" drillInput ["a"]), (false, .generate "drill" drillInput ["c", "b"]),
    (true, .reset (some "a")), (false, .generate "unheard" drillInput ["b"]),
    (true, .generate "drill" drillInput ["a"]), (false, .read (.many ["b", "c"])),
    (true, .read (.one "a"))]

/-- Two clients with names of their own: neither notices that the other's steps come in between. -/
theorem pair_interleaved :
    Apart pairOwned ∧
      (∀ client, ∀ step ∈ pairSteps client, step.Private (pairOwned client)) ∧
      Interleaves pairSteps pairSchedule ∧
      ∀ client,
        let session := start Catalogue.standard {}
        let together := session.performAll (pairSchedule.map Prod.snd)
        let alone := session.performAll (pairSteps client)
        answersTo client pairSchedule together.2 = alone.2 ∧
          together.1.store.restrict (pairOwned client) =
            alone.1.store.restrict (pairOwned client) := by
  have apart : Apart pairOwned := by
    intro one other different name held
    cases one with
    | true =>
      cases other with
      | true => exact absurd rfl different
      | false =>
        have named : name = "a" := by simpa [pairOwned] using held
        rw [named]
        decide
    | false =>
      cases other with
      | true =>
        have named : name = "b" ∨ name = "c" := by simpa [pairOwned] using held
        rcases named with rfl | rfl
        · decide
        · decide
      | false => exact absurd rfl different
  have own : ∀ client, ∀ step ∈ pairSteps client, step.Private (pairOwned client) := by
    intro client step listed
    cases client
    · simp only [pairSteps, List.mem_cons, List.not_mem_nil, or_false] at listed
      rcases listed with rfl | rfl | rfl
      · exact .generate (by decide)
      · exact .generate (by decide)
      · exact .readMany (by decide)
    · simp only [pairSteps, List.mem_cons, List.not_mem_nil, or_false] at listed
      rcases listed with rfl | rfl | rfl | rfl
      · exact .generate (by decide)
      · exact .reset (by decide)
      · exact .generate (by decide)
      · exact .readOne (by decide)
  have interleaves : Interleaves pairSteps pairSchedule := by
    intro client
    cases client <;> rfl
  exact ⟨apart, own, interleaves,
    performAll_interleaved (start Catalogue.standard {}) apart own interleaves⟩

end Assortment.Session
