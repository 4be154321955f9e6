import Assortment.Proofs.Choices
import Assortment.Proofs.MixedRadix

/-!
# Counting with an odometer

The positions of the wheels of an odometer are the digits of a number in mixed radix, the sizes of
the wheels being the radices.  A turn adds one to this number, and an odometer that cannot turn any
more stands at the largest number.  So after as many calls as have been made, the wheels stand at
the digits of the number of calls, until every number below the product of the sizes has had its
turn.  From then on the odometer is exhausted and stays so.

The main theorem says this for the odometer of any choices, however they were put together: which
row is the answer to which call, that every wheel stands at a candidate of its field at every call,
and that every choice of positions comes up at exactly one call.
-/

namespace Assortment

namespace Wheel

/-- The field of a wheel with its candidates, which no turn changes. -/
def entry (wheel : Wheel) : String × List Value :=
  (wheel.field, wheel.candidates)

/-- The number of the candidate that the wheel stands at. -/
def place (wheel : Wheel) : Nat :=
  wheel.position.val

/-- The number of candidates of a wheel. -/
def size (wheel : Wheel) : Nat :=
  wheel.candidates.length

theorem place_of_turn?
    {wheel turned : Wheel}
    (moved : wheel.turn? = some turned) :
    turned.place = wheel.place + 1 := by
  rw [turn?] at moved
  split at moved
  · cases moved
    rfl
  · cases moved

theorem place_of_turn?_eq_none
    {wheel : Wheel}
    (last : wheel.turn? = none) :
    wheel.place + 1 = wheel.size :=
  Nat.le_antisymm wheel.position.isLt (length_le_of_turn?_eq_none last)

end Wheel

namespace Odometer

/-- The places that some wheels show. -/
def places (wheels : List Wheel) : List Nat :=
  wheels.map Wheel.place

/-- The numbers of candidates of some wheels. -/
def sizes (wheels : List Wheel) : List Nat :=
  wheels.map Wheel.size

/-- The number of turns that bring the wheels to their positions. -/
def turns (wheels : List Wheel) : Nat :=
  MixedRadix.number (sizes wheels) (places wheels)

theorem places_lt_sizes
    (wheels : List Wheel) :
    List.Forall₂ (· < ·) (places wheels) (sizes wheels) := by
  rw [places, sizes, List.forall₂_map_left_iff, List.forall₂_map_right_iff, List.forall₂_same]
  intro wheel _
  exact wheel.position.isLt

/-- There are fewer turns behind the wheels than combinations. -/
theorem turns_lt_prod
    (wheels : List Wheel) :
    turns wheels < (sizes wheels).prod :=
  MixedRadix.number_lt_prod (places_lt_sizes wheels)

/-- The wheels stand at the digits of the number of their turns. -/
theorem places_eq_digits
    (wheels : List Wheel) :
    places wheels = MixedRadix.digits (sizes wheels) (turns wheels) :=
  (MixedRadix.digits_number (places_lt_sizes wheels)).symm

/-- A place of a wheel counts for one full round of the faster wheels. -/
theorem turns_cons
    (wheel : Wheel)
    (faster : List Wheel) :
    turns (wheel :: faster) = wheel.place * (sizes faster).prod + turns faster := rfl

theorem sizes_map_reset
    (wheels : List Wheel) :
    sizes (wheels.map Wheel.reset) = sizes wheels := by
  simp [sizes, Wheel.size, Function.comp_def]

theorem turns_map_reset
    (wheels : List Wheel) :
    turns (wheels.map Wheel.reset) = 0 := by
  induction wheels with
  | nil => rfl
  | cons wheel faster inductionHypothesis =>
    rw [List.map_cons, turns_cons, inductionHypothesis]
    exact Nat.zero_mul _

theorem sizes_eq_map_entry
    (wheels : List Wheel) :
    sizes wheels = (wheels.map Wheel.entry).map fun entry => entry.2.length := by
  rw [List.map_map]
  rfl

theorem sizes_eq_of_entries
    {wheels : List Wheel}
    {choices : Choices}
    (same : wheels.map Wheel.entry = choices.fields.entries) :
    sizes wheels = choices.sizes := by
  rw [sizes_eq_map_entry, same, Choices.sizes]

theorem map_entry_eq_zip
    (wheels : List Wheel) :
    wheels.map Wheel.entry = (wheels.map Wheel.field).zip (wheels.map Wheel.candidates) :=
  List.zip_map'.symm

theorem map_entry_of_advance?
    {wheels advanced : List Wheel}
    (turned : advance? wheels = some advanced) :
    advanced.map Wheel.entry = wheels.map Wheel.entry := by
  rcases advance?_eq_some turned with ⟨candidates, fields⟩
  rw [map_entry_eq_zip, map_entry_eq_zip, candidates, fields]

theorem sizes_of_advance?
    {wheels advanced : List Wheel}
    (turned : advance? wheels = some advanced) :
    sizes advanced = sizes wheels := by
  rw [sizes_eq_map_entry, map_entry_of_advance? turned, ← sizes_eq_map_entry]

/-- Wheels that cannot be turned have counted to the end. -/
theorem turns_of_advance?_eq_none
    {wheels : List Wheel}
    (stuck : advance? wheels = none) :
    turns wheels + 1 = (sizes wheels).prod := by
  induction wheels with
  | nil => rfl
  | cons wheel faster inductionHypothesis =>
    cases behind : advance? faster with
    | some others => simp [advance?, behind] at stuck
    | none =>
      have last : wheel.turn? = none := by simpa [advance?, behind] using stuck
      rw [turns_cons, Nat.add_assoc, inductionHypothesis behind, ← Nat.succ_mul,
        Nat.succ_eq_add_one, Wheel.place_of_turn?_eq_none last]
      rfl

/-- A turn of the wheels counts one further. -/
theorem turns_of_advance?
    {wheels advanced : List Wheel}
    (turned : advance? wheels = some advanced) :
    turns advanced = turns wheels + 1 := by
  induction wheels generalizing advanced with
  | nil => cases turned
  | cons wheel faster inductionHypothesis =>
    cases behind : advance? faster with
    | some others =>
      rw [advance?, behind] at turned
      cases turned
      rw [turns_cons, turns_cons, sizes_of_advance? behind, inductionHypothesis behind,
        Nat.add_assoc]
    | none =>
      rw [advance?, behind] at turned
      rcases Option.map_eq_some_iff.1 turned with ⟨next, moved, rfl⟩
      rw [turns_cons, turns_cons, sizes_map_reset, turns_map_reset, Wheel.place_of_turn? moved,
        Nat.succ_mul, Nat.add_zero, Nat.add_assoc, turns_of_advance?_eq_none behind]

/-- The odometer after a number of calls.  A call that gets no row leaves it as it is. -/
def after : Nat → Odometer → Odometer
  | 0, odometer => odometer
  | calls + 1, odometer =>
    match odometer.next? with
    | some (_, behind) => after calls behind
    | none => odometer

/-- The answer to a call, the calls being counted from zero. -/
def answer? (odometer : Odometer) (call : Nat) : Option Row :=
  (odometer.after call).next?.map Prod.fst

theorem after_exhausted
    (calls : Nat) :
    after calls exhausted = exhausted := by
  cases calls <;> rfl

/-- A call that advances leaves the rest of the calls to the advanced wheels. -/
theorem after_succ_of_advance?
    {wheels advanced : List Wheel}
    (turned : advance? wheels = some advanced)
    (calls : Nat) :
    after (calls + 1) (showing wheels) = after calls (showing advanced) := by
  simp [after, next?, turned]

/-- A call that cannot advance exhausts the odometer for all later ones. -/
theorem after_succ_of_advance?_eq_none
    {wheels : List Wheel}
    (stuck : advance? wheels = none)
    (calls : Nat) :
    after (calls + 1) (showing wheels) = exhausted := by
  simp [after, next?, stuck, after_exhausted]

/-- As long as there are numbers left, every call counts one further. -/
theorem after_showing_of_lt
    {wheels : List Wheel}
    {calls : Nat}
    (within : turns wheels + calls < (sizes wheels).prod) :
    ∃ later,
      after calls (showing wheels) = showing later ∧
        later.map Wheel.entry = wheels.map Wheel.entry ∧
        turns later = turns wheels + calls := by
  induction calls generalizing wheels with
  | zero => exact ⟨wheels, rfl, rfl, rfl⟩
  | succ calls inductionHypothesis =>
    cases turned : advance? wheels with
    | none =>
      have last := turns_of_advance?_eq_none turned
      omega
    | some advanced =>
      have counted : turns advanced + calls = turns wheels + (calls + 1) := by
        rw [turns_of_advance? turned, Nat.add_assoc, Nat.add_comm 1]
      have left : turns advanced + calls < (sizes advanced).prod := by
        rwa [counted, sizes_of_advance? turned]
      rcases inductionHypothesis left with ⟨later, shown, sameEntries, sameTurns⟩
      exact ⟨later, (after_succ_of_advance? turned calls).trans shown,
        sameEntries.trans (map_entry_of_advance? turned), sameTurns.trans counted⟩

/-- After the largest number the odometer is exhausted and stays so. -/
theorem after_showing_of_le
    {wheels : List Wheel}
    {calls : Nat}
    (beyond : (sizes wheels).prod ≤ turns wheels + calls) :
    after calls (showing wheels) = exhausted := by
  induction calls generalizing wheels with
  | zero => exact absurd (turns_lt_prod wheels) (Nat.not_lt.2 beyond)
  | succ calls inductionHypothesis =>
    cases turned : advance? wheels with
    | none => exact after_succ_of_advance?_eq_none turned calls
    | some advanced =>
      rw [after_succ_of_advance? turned]
      apply inductionHypothesis
      rw [sizes_of_advance? turned, turns_of_advance? turned]
      omega

theorem map_entry_of_startAll?
    {entries : List (String × List Value)}
    {wheels : List Wheel}
    (started : startAll? entries = some wheels) :
    wheels.map Wheel.entry = entries := by
  rcases startAll?_eq_some started with ⟨fields, lists, _⟩
  rw [map_entry_eq_zip, fields, lists]
  exact (List.zip_of_prod rfl rfl).symm

/-- The odometer of choices that have combinations starts at the number zero. -/
theorem ofChoices_eq_showing
    {choices : Choices}
    (inhabited : 0 < choices.product) :
    ∃ wheels,
      ofChoices choices = showing wheels ∧
        wheels.map Wheel.entry = choices.fields.entries ∧ turns wheels = 0 := by
  rcases Choices.lt_product_iff.1 inhabited with ⟨nonempty, positive⟩
  cases started : startAll? choices.fields.entries with
  | none =>
    rw [choices.prod_sizes_eq_zero (startAll?_eq_none started)] at positive
    exact absurd positive (Nat.lt_irrefl 0)
  | some wheels =>
    rcases startAll?_eq_some started with ⟨_, _, firsts⟩
    have stocked : ¬ choices.isEmpty = true := mt List.isEmpty_iff.1 nonempty
    refine ⟨wheels, ?_, map_entry_of_startAll? started, ?_⟩
    · rw [ofChoices, if_neg stocked, started]
    · rw [← firsts, turns_map_reset]

theorem ofChoices_eq_exhausted
    {choices : Choices}
    (none_left : choices.product = 0) :
    ofChoices choices = exhausted := by
  rw [ofChoices]
  split
  · rfl
  · next nonempty =>
    cases started : startAll? choices.fields.entries with
    | none => rfl
    | some wheels =>
      have counted := turns_lt_prod wheels
      rw [sizes_eq_of_entries (map_entry_of_startAll? started),
        ← Choices.product_of_nonempty (mt List.isEmpty_iff.2 nonempty), none_left] at counted
      exact absurd counted (Nat.not_lt_zero _)

/-- As long as there are combinations left, the wheels stand at the digits of the call. -/
theorem after_ofChoices_of_lt
    {choices : Choices}
    {call : Nat}
    (within : call < choices.product) :
    ∃ wheels,
      after call (ofChoices choices) = showing wheels ∧
        wheels.map Wheel.entry = choices.fields.entries ∧
        places wheels = MixedRadix.digits choices.sizes call := by
  rcases ofChoices_eq_showing (Nat.zero_lt_of_lt within) with ⟨first, started, entries, fresh⟩
  have left : turns first + call < (sizes first).prod := by
    rw [fresh, Nat.zero_add, sizes_eq_of_entries entries]
    exact (Choices.lt_product_iff.1 within).2
  rcases after_showing_of_lt left with ⟨later, shown, sameEntries, counted⟩
  refine ⟨later, by rw [started, shown], sameEntries.trans entries, ?_⟩
  rw [places_eq_digits, counted, fresh, Nat.zero_add,
    sizes_eq_of_entries (sameEntries.trans entries)]

/-- After as many calls as there are combinations, the odometer is exhausted. -/
theorem after_ofChoices_of_le
    {choices : Choices}
    {call : Nat}
    (beyond : choices.product ≤ call) :
    after call (ofChoices choices) = exhausted := by
  rcases Nat.eq_zero_or_pos choices.product with none_left | inhabited
  · rw [ofChoices_eq_exhausted none_left, after_exhausted]
  · rcases ofChoices_eq_showing inhabited with ⟨first, started, entries, fresh⟩
    have nonempty := (Choices.lt_product_iff.1 inhabited).1
    rw [started]
    apply after_showing_of_le
    rw [fresh, Nat.zero_add, sizes_eq_of_entries entries]
    rwa [Choices.product_of_nonempty nonempty] at beyond

section Reading

variable
    {wheels : List Wheel}
    {fields : OrderedMap (List Value)}
    (same : wheels.map Wheel.entry = fields.entries)

include same

theorem keys_map_current :
    Entries.keys (wheels.map fun wheel => (wheel.field, wheel.current)) = fields.keys := by
  rw [OrderedMap.keys, ← same]
  simp [Entries.keys, Wheel.entry, Function.comp_def]

theorem entries_reading :
    (reading wheels).entries = wheels.map fun wheel => (wheel.field, wheel.current) := by
  apply OrderedMap.entries_ofList_of_nodup
  rw [keys_map_current same]
  exact fields.distinct

theorem keys_reading :
    (reading wheels).keys = fields.keys := by
  rw [OrderedMap.keys, entries_reading same, keys_map_current same]

/-- A wheel shows under its field the candidate that it stands at. -/
theorem get?_reading
    {index : Nat}
    {field : String}
    {candidates : List Value}
    (listed : fields.entries[index]? = some (field, candidates)) :
    ∃ place,
      (places wheels)[index]? = some place ∧
        (reading wheels).get? field = candidates[place]? := by
  rw [← same, List.getElem?_map] at listed
  rcases Option.map_eq_some_iff.1 listed with ⟨wheel, found, entry⟩
  cases entry
  refine ⟨wheel.place, ?_, ?_⟩
  · rw [places, List.getElem?_map, found, Option.map_some]
  · have shown : (wheel.field, wheel.current) ∈ (reading wheels).entries := by
      rw [entries_reading same]
      exact List.mem_map.2 ⟨wheel, List.mem_of_getElem? found, rfl⟩
    rw [OrderedMap.get?_eq_some_iff.2 shown]
    exact (List.getElem?_eq_getElem wheel.position.isLt).symm

theorem places_lt_lengths :
    List.Forall₂ (fun place candidates => place < candidates.length) (places wheels)
      fields.values := by
  rw [OrderedMap.values, ← same, List.map_map, places, List.forall₂_map_left_iff,
    List.forall₂_map_right_iff, List.forall₂_same]
  intro wheel _
  exact wheel.position.isLt

end Reading

/-- The rows that an odometer shows are its answers to the calls one after the other. -/
theorem getElem?_of_yields
    {odometer : Odometer}
    {rows : List Row}
    (yields : Yields odometer rows)
    (call : Nat) :
    rows[call]? = odometer.answer? call := by
  induction yields generalizing call with
  | ended stopped =>
    cases call <;> simp [answer?, after, stopped]
  | shown next _ inductionHypothesis =>
    cases call with
    | zero => simp [answer?, after, next]
    | succ call =>
      rw [List.getElem?_cons_succ, inductionHypothesis]
      simp [answer?, after, next]

section Calls

variable
    {choices : Choices}
    {call : Nat}

/-- The wheels are shown at the calls below the number of combinations, each at its digits. -/
theorem after_ofChoices_eq_showing
    {wheels : List Wheel}
    (shown : (ofChoices choices).after call = showing wheels) :
    call < choices.product ∧
      wheels.map Wheel.entry = choices.fields.entries ∧
      places wheels = MixedRadix.digits choices.sizes call := by
  rcases Nat.lt_or_ge call choices.product with within | beyond
  · rcases after_ofChoices_of_lt within with ⟨others, alsoShown, entries, digits⟩
    cases alsoShown.symm.trans shown
    exact ⟨within, entries, digits⟩
  · cases (after_ofChoices_of_le beyond).symm.trans shown

theorem answer?_eq_none
    (beyond : choices.product ≤ call) :
    (ofChoices choices).answer? call = none := by
  rw [answer?, after_ofChoices_of_le beyond]
  rfl

/-- The answer to a call is the row that the wheels show after the calls before it. -/
theorem answer?_eq_some_iff
    {row : Row} :
    (ofChoices choices).answer? call = some row ↔
      ∃ wheels, (ofChoices choices).after call = showing wheels ∧ row = reading wheels := by
  rw [answer?]
  cases (ofChoices choices).after call with
  | exhausted => simp [next?]
  | showing wheels => simp [next?, eq_comm]

/-- Exactly the calls below the number of combinations are answered. -/
theorem isSome_answer?_iff :
    ((ofChoices choices).answer? call).isSome = true ↔ call < choices.product := by
  constructor
  · intro answered
    rcases Option.isSome_iff_exists.1 answered with ⟨row, found⟩
    rcases answer?_eq_some_iff.1 found with ⟨wheels, shown, _⟩
    exact (after_ofChoices_eq_showing shown).1
  · intro within
    rcases after_ofChoices_of_lt within with ⟨wheels, shown, _⟩
    exact Option.isSome_iff_exists.2 ⟨_, answer?_eq_some_iff.2 ⟨wheels, shown, rfl⟩⟩

/-- The row of a call has the fields in order, and under each the candidate at its digit. -/
theorem row_of_answer?
    {row : Row}
    (answered : (ofChoices choices).answer? call = some row) :
    row.keys = choices.fields.keys ∧
      ∀ index field candidates,
        choices.fields.entries[index]? = some (field, candidates) →
          row.get? field =
            candidates[call / (choices.sizes.drop (index + 1)).prod % candidates.length]? := by
  rcases answer?_eq_some_iff.1 answered with ⟨wheels, shown, rfl⟩
  rcases after_ofChoices_eq_showing shown with ⟨_, entries, digits⟩
  refine ⟨keys_reading entries, ?_⟩
  intro index field candidates listed
  rcases get?_reading entries listed with ⟨place, placed, held⟩
  have size : choices.sizes[index]? = some candidates.length := by
    rw [Choices.sizes, List.getElem?_map, listed, Option.map_some]
  rw [digits, MixedRadix.getElem?_digits, size, Option.map_some] at placed
  rw [held, Option.some.inj placed]

/-- Every choice of places comes up at one call, the number that has these digits. -/
theorem existsUnique_call
    {chosen : List Nat}
    (nonempty : choices.fields.entries ≠ [])
    (within : List.Forall₂ (· < ·) chosen choices.sizes) :
    ∃! call, ∃ wheels,
      (ofChoices choices).after call = showing wheels ∧ places wheels = chosen := by
  have below : MixedRadix.number choices.sizes chosen < choices.product :=
    Choices.lt_product_iff.2 ⟨nonempty, MixedRadix.number_lt_prod within⟩
  rcases after_ofChoices_of_lt below with ⟨wheels, shown, _, digits⟩
  refine ⟨_, ⟨wheels, shown, digits.trans (MixedRadix.digits_number within)⟩, ?_⟩
  rintro other ⟨others, alsoShown, same⟩
  rcases after_ofChoices_eq_showing alsoShown with ⟨alsoBelow, _, alsoDigits⟩
  have small := (Choices.lt_product_iff.1 alsoBelow).2
  rw [← same, alsoDigits, MixedRadix.number_digits small]

end Calls

/-- What the calls to the odometer of some choices give, the calls being counted from zero. -/
structure CountsThrough (choices : Choices) : Prop where
  lacking :
    choices.fields.entries = [] ∨ [] ∈ choices.fields.values →
      ∀ call, (ofChoices choices).answer? call = none
  answered_iff :
    ∀ call,
      ((ofChoices choices).answer? call).isSome = true ↔
        choices.fields.entries ≠ [] ∧ call < choices.sizes.prod
  ends :
    ∃ call, ∀ later, call ≤ later → (ofChoices choices).answer? later = none
  row :
    ∀ call row, (ofChoices choices).answer? call = some row →
      row.keys = choices.fields.keys ∧
        ∀ index field candidates,
          choices.fields.entries[index]? = some (field, candidates) →
            row.get? field =
              candidates[call / (choices.sizes.drop (index + 1)).prod % candidates.length]?
  collected :
    ∀ call, choices.combinations[call]? = (ofChoices choices).answer? call
  withinCandidates :
    ∀ call wheels, (ofChoices choices).after call = showing wheels →
      wheels.map Wheel.entry = choices.fields.entries ∧
        List.Forall₂ (fun place candidates => place < candidates.length) (places wheels)
          choices.fields.values
  once :
    choices.fields.entries ≠ [] →
      ∀ chosen, List.Forall₂ (· < ·) chosen choices.sizes →
        ∃! call, ∃ wheels,
          (ofChoices choices).after call = showing wheels ∧ places wheels = chosen
  lastFastest :
    ∀ earlier later wheels others, earlier < later →
      (ofChoices choices).after earlier = showing wheels →
      (ofChoices choices).after later = showing others →
        List.Lex (· < ·) (places wheels) (places others)

/--
The odometer of any choices counts through their combinations: it answers as many calls as there
are combinations, each with the row at the digits of the call, and no call after these.
-/
theorem countsThrough_ofChoices
    (choices : Choices) :
    CountsThrough choices where
  lacking := by
    intro without call
    apply answer?_eq_none
    rw [Choices.product_eq_zero without]
    exact Nat.zero_le call
  answered_iff := by
    intro call
    rw [isSome_answer?_iff, Choices.lt_product_iff]
  ends := by
    refine ⟨choices.product, ?_⟩
    intro later beyond
    exact answer?_eq_none beyond
  row := by
    intro call row answered
    exact row_of_answer? answered
  collected := getElem?_of_yields choices.yields_combinations
  withinCandidates := by
    intro call wheels shown
    have entries := (after_ofChoices_eq_showing shown).2.1
    exact ⟨entries, places_lt_lengths entries⟩
  once := by
    intro nonempty chosen within
    exact existsUnique_call nonempty within
  lastFastest := by
    intro earlier later wheels others before shown alsoShown
    rcases after_ofChoices_eq_showing shown with ⟨_, _, digits⟩
    rcases after_ofChoices_eq_showing alsoShown with ⟨within, _, otherDigits⟩
    rw [digits, otherDigits]
    exact MixedRadix.lex_digits before (Choices.lt_product_iff.1 within).2

end Odometer

end Assortment
