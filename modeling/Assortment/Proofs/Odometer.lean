import Assortment.Odometer
import Assortment.Proofs.OrderedMap
import Assortment.Proofs.Tuples

/-!
# What an odometer shows

From any position of its wheels an odometer shows the tuples that are still to come: those that
keep the first wheel where it is, and then all tuples for each later candidate of that wheel.  One
turn removes the first of these tuples, which is the step that the whole enumeration rests on.

`Odometer.Yields` relates an odometer to the rows that it shows until it is exhausted, however many
these are.  The main theorem of this file says that an odometer that starts with some choices
yields one row for each tuple of candidates, so listing as many rows as the product of the sizes
misses none of them.
-/

namespace Assortment

namespace Wheel

/-- The candidates that the wheel has not reached yet. -/
def ahead (wheel : Wheel) : List Value :=
  wheel.candidates.drop (wheel.position.val + 1)

@[simp]
theorem candidates_reset
    (wheel : Wheel) :
    wheel.reset.candidates = wheel.candidates := rfl

@[simp]
theorem field_reset
    (wheel : Wheel) :
    wheel.reset.field = wheel.field := rfl

theorem map_candidates_reset
    (wheels : List Wheel) :
    (wheels.map reset).map candidates = wheels.map candidates := by
  simp

/-- A reset wheel has all its candidates before it: the one it shows and those ahead. -/
theorem current_cons_ahead_reset
    (wheel : Wheel) :
    wheel.reset.current :: wheel.reset.ahead = wheel.candidates := by
  have inhabited : 0 < wheel.candidates.length := wheel.reset.position.isLt
  exact (List.drop_eq_getElem_cons inhabited).symm

theorem length_le_of_turn?_eq_none
    {wheel : Wheel}
    (last : wheel.turn? = none) :
    wheel.candidates.length ≤ wheel.position.val + 1 := by
  have beyond : ¬ wheel.position.val + 1 < wheel.candidates.length := by
    intro within
    simp [turn?, within] at last
  exact Nat.not_lt.1 beyond

theorem ahead_eq_nil_of_turn?_eq_none
    {wheel : Wheel}
    (last : wheel.turn? = none) :
    wheel.ahead = [] :=
  List.drop_eq_nil_of_le (length_le_of_turn?_eq_none last)

/-- A turn brings up the next candidate ahead and changes neither the field nor the candidates. -/
theorem turn?_eq_some
    {wheel turned : Wheel}
    (moved : wheel.turn? = some turned) :
    wheel.ahead = turned.current :: turned.ahead ∧
      turned.candidates = wheel.candidates ∧ turned.field = wheel.field := by
  rw [turn?] at moved
  split at moved
  · next within =>
    cases moved
    exact ⟨List.drop_eq_getElem_cons within, rfl, rfl⟩
  · cases moved

end Wheel

namespace Odometer

/-- The tuples from the present position of the wheels to the last one. -/
def upcoming : List Wheel → List (List Value)
  | [] => [[]]
  | wheel :: faster =>
    (upcoming faster).map (wheel.current :: ·) ++
      wheel.ahead.flatMap fun candidate =>
        (tuples (faster.map Wheel.candidates)).map (candidate :: ·)

/-- From reset wheels, all the tuples of candidates are still to come. -/
theorem upcoming_reset
    (wheels : List Wheel) :
    upcoming (wheels.map Wheel.reset) = tuples (wheels.map Wheel.candidates) := by
  induction wheels with
  | nil => rfl
  | cons wheel faster inductionHypothesis =>
    rw [List.map_cons, upcoming, inductionHypothesis, Wheel.map_candidates_reset, List.map_cons,
      tuples, ← wheel.current_cons_ahead_reset, List.flatMap_cons]

theorem advance?_eq_some
    {wheels advanced : List Wheel}
    (turned : advance? wheels = some advanced) :
    advanced.map Wheel.candidates = wheels.map Wheel.candidates ∧
      advanced.map Wheel.field = wheels.map Wheel.field := by
  induction wheels generalizing advanced with
  | nil => cases turned
  | cons wheel faster inductionHypothesis =>
    cases behind : advance? faster with
    | some others =>
      rw [advance?, behind] at turned
      cases turned
      rcases inductionHypothesis behind with ⟨candidates, fields⟩
      simp [candidates, fields]
    | none =>
      rw [advance?, behind] at turned
      rcases Option.map_eq_some_iff.1 turned with ⟨next, moved, rfl⟩
      rcases Wheel.turn?_eq_some moved with ⟨_, candidates, field⟩
      simp [candidates, field]

/-- The first upcoming tuple is the present one, and a turn leaves the others. -/
theorem upcoming_eq_cons
    (wheels : List Wheel) :
    upcoming wheels =
      wheels.map Wheel.current ::
        match advance? wheels with
        | some advanced => upcoming advanced
        | none => [] := by
  induction wheels with
  | nil => rfl
  | cons wheel faster inductionHypothesis =>
    rw [upcoming, inductionHypothesis, advance?]
    cases behind : advance? faster with
    | some advanced =>
      rcases advance?_eq_some behind with ⟨candidates, _⟩
      simp [upcoming, candidates]
    | none =>
      cases moved : wheel.turn? with
      | none => simp [Wheel.ahead_eq_nil_of_turn?_eq_none moved]
      | some turned =>
        rcases Wheel.turn?_eq_some moved with ⟨ahead, _, _⟩
        simp only [Option.map_some, upcoming, upcoming_reset, Wheel.map_candidates_reset, ahead,
          List.map_cons, List.map_nil, List.flatMap_cons, List.singleton_append]

/-- The rows that an odometer shows one after the other until it is exhausted. -/
inductive Yields : Odometer → List Row → Prop
  | ended
      {odometer : Odometer}
      (stopped : odometer.next? = none) :
      Yields odometer []
  | shown
      {odometer behind : Odometer}
      {row : Row}
      {rows : List Row}
      (next : odometer.next? = some (row, behind))
      (later : Yields behind rows) :
      Yields odometer (row :: rows)

theorem take_of_yields
    {odometer : Odometer}
    {rows : List Row}
    (yields : Yields odometer rows)
    (count : Nat) :
    take count odometer = rows.take count := by
  induction count generalizing odometer rows with
  | zero => rfl
  | succ count inductionHypothesis =>
    cases yields with
    | ended stopped => simp [take, stopped]
    | shown next later => simp [take, next, inductionHypothesis later]

theorem reading_eq_zip
    (wheels : List Wheel) :
    reading wheels =
      OrderedMap.ofList ((wheels.map Wheel.field).zip (wheels.map Wheel.current)) := by
  rw [reading, List.zip_map']

/-- From any position the wheels show the upcoming tuples. -/
theorem yields_showing
    (wheels : List Wheel) :
    Yields (showing wheels)
      ((upcoming wheels).map fun tuple =>
        OrderedMap.ofList ((wheels.map Wheel.field).zip tuple)) := by
  -- A turn of the wheels leaves fewer tuples to come, while the wheels themselves stay as many.
  generalize coming : upcoming wheels = remaining
  induction remaining generalizing wheels with
  | nil =>
    rw [upcoming_eq_cons] at coming
    cases coming
  | cons tuple others inductionHypothesis =>
    rw [upcoming_eq_cons] at coming
    rcases List.cons.inj coming with ⟨present, later⟩
    subst present
    rw [List.map_cons, ← reading_eq_zip]
    cases turned : advance? wheels with
    | some advanced =>
      rw [turned] at later
      rcases advance?_eq_some turned with ⟨_, fields⟩
      have next : (showing wheels).next? = some (reading wheels, showing advanced) := by
        simp [next?, turned]
      have yields := inductionHypothesis advanced later
      rw [fields] at yields
      exact .shown next yields
    | none =>
      rw [turned] at later
      have next : (showing wheels).next? = some (reading wheels, exhausted) := by
        simp [next?, turned]
      subst later
      exact .shown next (.ended rfl)

theorem startAll?_eq_some
    {entries : List (String × List Value)}
    {wheels : List Wheel}
    (started : startAll? entries = some wheels) :
    wheels.map Wheel.field = Entries.keys entries ∧
      wheels.map Wheel.candidates = entries.map Prod.snd ∧
      wheels.map Wheel.reset = wheels := by
  induction entries generalizing wheels with
  | nil =>
    cases started
    exact ⟨rfl, rfl, rfl⟩
  | cons entry rest inductionHypothesis =>
    rcases entry with ⟨field, candidates⟩
    rw [startAll?] at started
    rcases Option.bind_eq_some_iff.1 started with ⟨wheel, first, others⟩
    rcases Option.bind_eq_some_iff.1 others with ⟨later, behind, equal⟩
    cases equal
    rcases inductionHypothesis behind with ⟨fields, lists, firsts⟩
    rw [Wheel.start?] at first
    split at first
    · cases first
      exact ⟨by simp [fields], by simp [lists], by simp [firsts, Wheel.reset]⟩
    · cases first

theorem startAll?_eq_none
    {entries : List (String × List Value)}
    (stuck : startAll? entries = none) :
    [] ∈ entries.map Prod.snd := by
  induction entries with
  | nil => cases stuck
  | cons entry rest inductionHypothesis =>
    rcases entry with ⟨field, candidates⟩
    cases candidates with
    | nil => exact List.mem_cons_self
    | cons first others =>
      have behind : startAll? rest = none := by
        cases started : startAll? rest with
        | none => rfl
        | some wheels => simp [startAll?, Wheel.start?, started] at stuck
      exact List.mem_cons_of_mem _ (inductionHypothesis behind)

/-- An odometer yields one row for each tuple of the candidates, and nothing without fields. -/
theorem yields_ofChoices
    (choices : Choices) :
    Yields (ofChoices choices)
      (if choices.isEmpty then
        []
      else
        (tuples choices.fields.values).map choices.fields.withValues) := by
  rw [ofChoices]
  split
  · exact .ended rfl
  · cases started : startAll? choices.fields.entries with
    | none =>
      have none_left : tuples choices.fields.values = [] :=
        tuples_eq_nil_of_mem (startAll?_eq_none started)
      rw [none_left]
      exact .ended rfl
    | some wheels =>
      rcases startAll?_eq_some started with ⟨fields, lists, firsts⟩
      have coming : upcoming wheels = tuples choices.fields.values := by
        rw [← firsts, upcoming_reset, lists, OrderedMap.values]
      have yields := yields_showing wheels
      rw [coming, fields] at yields
      have rows :
          (tuples choices.fields.values).map choices.fields.withValues =
            (tuples choices.fields.values).map fun tuple =>
              OrderedMap.ofList ((Entries.keys choices.fields.entries).zip tuple) := by
        apply List.map_congr_left
        intro tuple _
        exact (choices.fields.withValues tuple).ofList_entries.symm
      rw [rows]
      exact yields

end Odometer

namespace Choices

/-- The combinations are the tuples of the candidates; without fields there are none. -/
theorem combinations_eq
    (choices : Choices) :
    choices.combinations =
      if choices.isEmpty then
        []
      else
        (tuples choices.fields.values).map choices.fields.withValues := by
  rw [combinations, Odometer.take_of_yields (Odometer.yields_ofChoices choices),
    ← List.prod_eq_foldl]
  apply List.take_of_length_le
  split
  · exact Nat.zero_le _
  · simp [length_tuples, sizes, OrderedMap.values, Function.comp_def]

end Choices

end Assortment
