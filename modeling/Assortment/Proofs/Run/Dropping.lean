import Assortment.Proofs.Run.Batching

/-!
# Dropping empty fields

An optional field without a valid candidate either empties the product or is left out of it.  The
choice between the two takes part in nothing else, so the runs fail in the same way or not at all,
and without such a field they are the same run.

Leaving the empty fields out is leaving them out of the input.  Their defaults have to go as well,
or else a default that is refused would come back; then the merged input is what it was without the
empty fields, all remaining fields keep their order, and every field that is left has a valid
candidate.  The rows never hold a dropped field, so the templates find the same row.
-/

namespace Assortment

universe u

namespace OrderedMap

variable {α : Type u}

/-- The map without some of its keys. -/
def without (map : OrderedMap α) (dropped : List String) : OrderedMap α :=
  map.filter fun key _ => key ∉ dropped

theorem entries_without
    (map : OrderedMap α)
    (dropped : List String) :
    (map.without dropped).entries = map.entries.filter fun entry => entry.1 ∉ dropped := rfl

theorem mem_keys_without_iff
    {map : OrderedMap α}
    {dropped : List String}
    {key : String} :
    key ∈ (map.without dropped).keys ↔ key ∈ map.keys ∧ key ∉ dropped := by
  rw [keys, entries_without, Entries.keys, List.mem_map]
  constructor
  · rintro ⟨entry, listed, rfl⟩
    rcases List.mem_filter.1 listed with ⟨member, stays⟩
    exact ⟨Entries.mem_keys_of_mem member, of_decide_eq_true stays⟩
  · rintro ⟨present, stays⟩
    rcases List.mem_map.1 present with ⟨entry, member, rfl⟩
    exact ⟨entry, List.mem_filter.2 ⟨member, decide_eq_true stays⟩, rfl⟩

end OrderedMap

namespace Method

instance (method : Method) (field : String) : Decidable (method.Requires field) :=
  inferInstanceAs
    (Decidable (∃ rules ∈ method.rules.get? field, ∃ rule ∈ rules.rules,
      rule.name = "required"))

/-- The fields of the merged input that are not required and have no valid candidate. -/
def emptyOptionals (method : Method) (data : Row) : List String :=
  Entries.keys <| (method.merged data).entries.filter fun entry =>
    ¬ method.Requires entry.1 ∧ method.validCandidates entry.1 entry.2 = []

/-- The method without its defaults for some fields. -/
def withoutDefaults (method : Method) (dropped : List String) : Method :=
  { method with defaults := method.defaults.without dropped }

variable
    {method : Method}
    {options : Options}
    {name : String}
    {data : Row}
    {groups : List String}
    {dropped : List String}

/-- A merged field is an empty optional one if it is not required and has no valid candidates. -/
theorem mem_emptyOptionals_iff
    {entry : String × Value}
    (listed : entry ∈ (method.merged data).entries) :
    entry.1 ∈ method.emptyOptionals data ↔
      ¬ method.Requires entry.1 ∧ method.validCandidates entry.1 entry.2 = [] := by
  rw [emptyOptionals, Entries.keys, List.mem_map]
  constructor
  · rintro ⟨⟨field, value⟩, member, same⟩
    obtain rfl : field = entry.1 := same
    rcases List.mem_filter.1 member with ⟨alsoListed, empty⟩
    obtain rfl : value = entry.2 := OrderedMap.value_unique alsoListed listed
    exact of_decide_eq_true empty
  · intro empty
    exact ⟨entry, List.mem_filter.2 ⟨listed, decide_eq_true empty⟩, rfl⟩

theorem not_requires_of_mem_emptyOptionals
    {field : String}
    (empty : field ∈ method.emptyOptionals data) :
    ¬ method.Requires field := by
  rcases List.mem_map.1 empty with ⟨entry, member, rfl⟩
  exact (of_decide_eq_true (List.mem_filter.1 member).2).1

theorem exists_invalid_of_emptyOptionals_ne_nil
    (someEmpty : method.emptyOptionals data ≠ []) :
    ∃ entry ∈ (method.merged data).entries, method.validCandidates entry.1 entry.2 = [] := by
  rcases List.exists_mem_of_ne_nil _ someEmpty with ⟨field, empty⟩
  rcases List.mem_map.1 empty with ⟨entry, member, rfl⟩
  rcases List.mem_filter.1 member with ⟨listed, _⟩
  exact ⟨entry, listed, ((mem_emptyOptionals_iff listed).1 empty).2⟩

/-- Without some fields and their defaults, a run sees what it saw without these fields. -/
theorem merged_withoutDefaults
    (method : Method)
    (data : Row)
    (dropped : List String) :
    (method.withoutDefaults dropped).merged (data.without dropped) =
      (method.merged data).without dropped := by
  have sameFill :
      ∀ entry ∈ data.entries.filter fun entry => entry.1 ∉ dropped,
        fill (method.defaults.without dropped).entries entry =
          fill method.defaults.entries entry := by
    intro entry listed
    have stays := (List.mem_filter.1 listed).2
    rw [fill_eq, fill_eq, OrderedMap.entries_without,
      Entries.get?_filter_keys (fun field => field ∉ dropped), if_pos stays]
  have sameFields :
      (fun entry : String × Value => decide (entry.1 ∉ dropped)) ∘ fill method.defaults.entries =
        fun entry => decide (entry.1 ∉ dropped) := by
    funext entry
    simp
  -- A dropped field is absent from the input now, but it has no default that could return.
  have sameAbsent :
      absent (method.defaults.without dropped).entries (data.without dropped).keys =
        (absent method.defaults.entries data.keys).filter fun entry => entry.1 ∉ dropped := by
    rw [absent, absent, OrderedMap.entries_without, List.filter_filter, List.filter_filter]
    apply List.filter_congr
    intro entry _
    by_cases stays : entry.1 ∈ dropped <;>
      simp [OrderedMap.mem_keys_without_iff, stays]
  apply OrderedMap.ext
  rw [entries_merged, OrderedMap.entries_without (method.merged data), entries_merged,
    List.filter_append, List.filter_map, sameFields]
  exact congrArg₂ (· ++ ·) (List.map_congr_left sameFill) sameAbsent

/-- An entry that stays has a valid candidate, unless the run fails for it. -/
theorem validCandidates_ne_nil
    {entry : String × Value}
    (listed : entry ∈ (method.merged data).entries)
    (passes : ¬ method.Lacking entry)
    (stays : entry.1 ∉ method.emptyOptionals data) :
    method.validCandidates entry.1 entry.2 ≠ [] := by
  intro empty
  by_cases required : method.Requires entry.1
  · exact passes ⟨required, empty⟩
  · exact stays ((mem_emptyOptionals_iff listed).2 ⟨required, empty⟩)

section Unchanged

variable
    {other : Options}
    (noneEmpty : method.emptyOptionals data = [])

include noneEmpty

/-- Without empty optional fields a screening does not look at its options. -/
theorem ofFields_congr_of_noneEmpty
    {entries : List (String × Value)}
    (listed : ∀ entry ∈ entries, entry ∈ (method.merged data).entries)
    (defaulted : String → Bool) :
    Screening.ofFields method options defaulted entries =
      Screening.ofFields method other defaulted entries := by
  induction entries with
  | nil => rfl
  | cons entry rest inductionHypothesis =>
    have behind := inductionHypothesis fun later member =>
      listed later (List.mem_cons_of_mem _ member)
    by_cases lacking : method.Lacking entry
    · rw [Screening.ofFields_cons_of_lacking lacking, Screening.ofFields_cons_of_lacking lacking]
    · have valid :=
        validCandidates_ne_nil (listed entry List.mem_cons_self) lacking (by simp [noneEmpty])
      rw [Screening.ofFields_cons_of_not_lacking lacking,
        Screening.ofFields_cons_of_not_lacking lacking, behind]
      simp [Screening.noticesOf, Screening.keptOf, valid]

/-- With no optional field empty, the report of the screening does not depend on the options. -/
theorem screenedReport_congr_of_noneEmpty
    (name : String)
    (groups : List String) :
    method.screenedReport options name data groups =
      method.screenedReport other name data groups := by
  rw [screenedReport, screenedReport,
    ofFields_congr_of_noneEmpty noneEmpty (fun _ listed => listed)]

theorem productFields_congr_of_noneEmpty
    (passed : ∀ entry ∈ (method.merged data).entries, ¬ method.Lacking entry) :
    method.productFields options data = method.productFields other data := by
  apply OrderedMap.ext
  rw [entries_productFields, entries_productFields]
  apply congrArg
  apply List.filter_congr
  intro entry listed
  have valid := validCandidates_ne_nil listed (passed entry listed) (by simp [noneEmpty])
  rw [List.isEmpty_eq_false_iff.2 valid, Bool.and_false, Bool.and_false]

/-- Without empty optional fields, runs that have the same limit are the same. -/
theorem generate_congr_of_noneEmpty
    (sameLimit : options.limit = other.limit)
    (name : String)
    (groups : List String) :
    method.generate options name data groups = method.generate other name data groups := by
  have sameReport :
      method.screenedReport options name data groups =
        method.screenedReport other name data groups :=
    screenedReport_congr_of_noneEmpty noneEmpty name groups
  refine Concludes.unique (method.concludes_generate options name data groups) ?_
  have otherwise := method.concludes_generate other name data groups
  generalize method.generate other name data groups = outcome at otherwise ⊢
  cases otherwise with
  | missing first => exact .missing first
  | lacking complete first =>
    rw [← sameReport]
    exact .lacking complete first
  | excessive complete passed limited beyond =>
    have sameSize : method.productSize options data = method.productSize other data := by
      rw [productSize, productSize, productFields_congr_of_noneEmpty noneEmpty passed]
    rw [← sameSize] at beyond ⊢
    rw [← sameReport]
    exact .excessive complete passed (sameLimit.trans limited) beyond
  | produced complete passed within =>
    have sameFields : method.productFields options data = method.productFields other data :=
      productFields_congr_of_noneEmpty noneEmpty passed
    have sameRows :
        method.expectedVariations options data groups =
          method.expectedVariations other data groups := by
      rw [expectedVariations, expectedVariations, sameFields]
    rw [← sameReport, ← sameRows]
    refine .produced complete passed ?_
    rw [sameLimit, productSize, sameFields]
    exact within

end Unchanged

section Reduced

variable (passed : ∀ entry ∈ (method.merged data).entries, ¬ method.Lacking entry)

include passed

/-- Dropping the empty fields from the product is leaving them out of the input. -/
theorem productFields_withoutDefaults
    (dropping : options.dropEmptyOptional = true)
    (other : Options) :
    (method.withoutDefaults (method.emptyOptionals data)).productFields other
        (data.without (method.emptyOptionals data)) =
      method.productFields options data := by
  have sameValid :
      (method.withoutDefaults (method.emptyOptionals data)).validCandidates =
        method.validCandidates := rfl
  apply OrderedMap.ext
  rw [entries_productFields, entries_productFields, merged_withoutDefaults,
    OrderedMap.entries_without, List.filter_filter, sameValid]
  apply congrArg
  apply List.filter_congr
  intro entry listed
  by_cases dropped : entry.1 ∈ method.emptyOptionals data
  · have invalid := ((mem_emptyOptionals_iff listed).1 dropped).2
    simp [dropped, invalid, dropping]
  · have valid := validCandidates_ne_nil listed (passed entry listed) dropped
    rw [List.isEmpty_eq_false_iff.2 valid]
    simp [dropped]

/-- The rows of a dropping run are those of the reduced method on the reduced input. -/
theorem expectedVariations_withoutDefaults
    (dropping : options.dropEmptyOptional = true)
    (other : Options)
    (groups : List String) :
    (method.withoutDefaults (method.emptyOptionals data)).expectedVariations other
        (data.without (method.emptyOptionals data)) groups =
      method.expectedVariations options data groups := by
  rw [expectedVariations, expectedVariations, productFields_withoutDefaults passed dropping]
  rfl

end Reduced

/-- Required fields are not left out, so none is missing that was not missing before. -/
theorem not_missing_withoutDefaults
    (complete : ∀ field, ¬ method.Missing data field)
    (field : String) :
    ¬ (method.withoutDefaults (method.emptyOptionals data)).Missing
        (data.without (method.emptyOptionals data)) field := by
  rintro ⟨required, absent⟩
  refine complete field ⟨required, ?_⟩
  intro present
  rw [merged_withoutDefaults, OrderedMap.mem_keys_without_iff] at absent
  exact absent ⟨present, fun empty => not_requires_of_mem_emptyOptionals empty required⟩

theorem not_lacking_withoutDefaults
    (passed : ∀ entry ∈ (method.merged data).entries, ¬ method.Lacking entry) :
    ∀ entry ∈ ((method.withoutDefaults dropped).merged (data.without dropped)).entries,
      ¬ (method.withoutDefaults dropped).Lacking entry := by
  rw [merged_withoutDefaults]
  intro entry listed
  exact passed entry (List.mem_filter.1 listed).1

/-- Whether a run fails for a required field, and for which, does not depend on its options. -/
theorem failing_or_sound
    (method : Method)
    (name : String)
    (data : Row)
    (groups : List String) :
    (∃ field, ∀ options, ∃ report,
      method.generate options name data groups = .error (.requiredField field report)) ∨
    (∀ field, ¬ method.Missing data field) ∧
      ∀ entry ∈ (method.merged data).entries, ¬ method.Lacking entry := by
  have concludes (options : Options) := method.concludes_generate options name data groups
  have unlimited := concludes {}
  generalize method.generate {} name data groups = outcome at unlimited
  cases unlimited with
  | missing first =>
    exact .inl ⟨_, fun options => ⟨_, (concludes options).unique (.missing first)⟩⟩
  | lacking complete first =>
    exact .inl ⟨_, fun options => ⟨_, (concludes options).unique (.lacking complete first)⟩⟩
  | excessive complete passed _ _ => exact .inr ⟨complete, passed⟩
  | produced complete passed _ => exact .inr ⟨complete, passed⟩

/-- A run without a limit in which no required field is in want produces the expected rows. -/
theorem exists_generated_of_sound
    (complete : ∀ field, ¬ method.Missing data field)
    (passed : ∀ entry ∈ (method.merged data).entries, ¬ method.Lacking entry)
    (choice : Bool)
    (name : String)
    (groups : List String) :
    ∃ generated, method.generate ⟨choice, none⟩ name data groups = .ok generated ∧
      generated.variations = method.expectedVariations ⟨choice, none⟩ data groups := by
  have within :
      ∀ limit, (⟨choice, none⟩ : Options).limit = some limit →
        method.productSize ⟨choice, none⟩ data ≤ limit.toNat := by
    rintro _ ⟨⟩
  have concludes := method.concludes_generate ⟨choice, none⟩ name data groups
  exact ⟨_, concludes.unique (.produced complete passed within), rfl⟩

/-- How the runs compare that keep and that drop empty optional fields, and the run, with either
choice, of the method without its defaults for these fields on the input without them. -/
structure DroppingEffect
    (method : Method)
    (data : Row)
    (keeping dropping : Except Failure Generated)
    (reduced : Bool → Except Failure Generated) :
    Prop where
  unchanged : method.emptyOptionals data = [] → dropping = keeping
  sameFailure :
    ∀ failure, keeping = .error failure ∨ dropping = .error failure →
      ∃ field kept dropped,
        keeping = .error (.requiredField field kept) ∧
          dropping = .error (.requiredField field dropped)
  collapsed :
    (∀ failure, keeping ≠ .error failure) → method.emptyOptionals data ≠ [] →
      ∃ generated, keeping = .ok generated ∧ generated.variations = []
  rows :
    (∀ failure, dropping ≠ .error failure) →
      ∃ generated, dropping = .ok generated ∧
        ∀ choice, ∃ other, reduced choice = .ok other ∧
          other.variations = generated.variations

/-- The four cases of what dropping empty optional fields does to a run cover every input. -/
theorem droppingEffect
    (method : Method)
    (name : String)
    (data : Row)
    (groups : List String) :
    method.DroppingEffect data
      (method.generate ⟨false, none⟩ name data groups)
      (method.generate ⟨true, none⟩ name data groups)
      fun choice =>
        (method.withoutDefaults (method.emptyOptionals data)).generate ⟨choice, none⟩ name
          (data.without (method.emptyOptionals data)) groups := by
  have unchanged (noneEmpty : method.emptyOptionals data = []) :
      method.generate ⟨true, none⟩ name data groups =
        method.generate ⟨false, none⟩ name data groups := by
    refine generate_congr_of_noneEmpty noneEmpty ?_ name groups
    rfl
  rcases method.failing_or_sound name data groups with ⟨field, fails⟩ | ⟨complete, passed⟩
  case inl =>
    rcases fails ⟨false, none⟩ with ⟨kept, keeping⟩
    rcases fails ⟨true, none⟩ with ⟨dropped, dropping⟩
    constructor
    case unchanged => exact unchanged
    case sameFailure => exact fun _ _ => ⟨field, kept, dropped, keeping, dropping⟩
    case collapsed => exact fun sound _ => absurd keeping (sound _)
    case rows => exact fun sound => absurd dropping (sound _)
  case inr =>
    have sound := exists_generated_of_sound complete passed
    rcases sound false name groups with ⟨whole, keeping, wholeRows⟩
    rcases sound true name groups with ⟨narrowed, dropping, narrowedRows⟩
    constructor
    case unchanged => exact unchanged
    case sameFailure =>
      rintro failure (failed | failed)
      · cases keeping.symm.trans failed
      · cases dropping.symm.trans failed
    case collapsed =>
      intro _ someEmpty
      rcases exists_invalid_of_emptyOptionals_ne_nil someEmpty with ⟨entry, listed, invalid⟩
      have noRows : method.expectedVariations ⟨false, none⟩ data groups = [] :=
        expectedVariations_of_empty rfl listed invalid
      exact ⟨whole, keeping, wholeRows.trans noRows⟩
    case rows =>
      refine fun _ => ⟨narrowed, dropping, fun choice => ?_⟩
      rcases exists_generated_of_sound (not_missing_withoutDefaults complete)
        (not_lacking_withoutDefaults passed) choice name groups with ⟨other, produced, otherRows⟩
      refine ⟨other, produced, ?_⟩
      rw [otherRows, narrowedRows]
      exact expectedVariations_withoutDefaults passed rfl ⟨choice, none⟩ groups

end Method

theorem Catalogue.get?_register
    (catalogue : Catalogue)
    (name : String)
    (method : Method) :
    (catalogue.register name method).get? name = some method := by
  rw [get?, register, NameTable.get?_insert, if_pos rfl]

/--
Without a limit, whether empty optional fields are dropped changes nothing when there are none and
does not decide whether a run fails.  If there are some, the run that keeps them produces no rows,
and the run that drops them produces the rows of the method that has no defaults for them, on the
input without them.
-/
theorem Catalogue.generate_dropping
    (catalogue : Catalogue)
    (name : String)
    (data : Row)
    (groups : List String) :
    (catalogue.get? name = none →
        ∀ choice,
          catalogue.generate ⟨choice, none⟩ name data groups = .error (.unknownMethod name)) ∧
      ∀ method, catalogue.get? name = some method →
        method.DroppingEffect data
          (catalogue.generate ⟨false, none⟩ name data groups)
          (catalogue.generate ⟨true, none⟩ name data groups)
          fun choice =>
            (catalogue.register name
              (method.withoutDefaults (method.emptyOptionals data))).generate
                ⟨choice, none⟩ name (data.without (method.emptyOptionals data)) groups := by
  constructor
  · intro unknown choice
    rw [generate, unknown]
  · intro method registered
    have reduced :=
      get?_register catalogue name (method.withoutDefaults (method.emptyOptionals data))
    simp only [generate_of_registered registered, generate_of_registered reduced]
    exact method.droppingEffect name data groups

/-- Lamps have a tone by default, which their rules refuse. -/
def lampMethod : Method :=
  (((Method.empty.withRules "id" "required").withRules "tone" "val[warm,cold]").withDefault
    "tone" (.string "dim")).withTemplate "label" "\x7bid\x7d: \x7btone\x7d"

def lampCatalogue : Catalogue := Catalogue.empty.register "lamp" lampMethod

/-- Two lamps in a tone that there is not. -/
def lampInput : Row :=
  OrderedMap.ofList [("tone", .string "red"), ("id", .array [.int 1, .int 2])]

/-- The default must go together with the field, or it would be refused in its turn. -/
theorem lamp_generate_dropping :
    lampCatalogue.get? "lamp" = some lampMethod ∧
      lampMethod.emptyOptionals lampInput = ["tone"] ∧
      (∃ keeping,
        lampCatalogue.generate ⟨false, none⟩ "lamp" lampInput [] = .ok keeping ∧
          keeping.variations = []) ∧
      ∃ dropping reduced,
        lampCatalogue.generate ⟨true, none⟩ "lamp" lampInput [] = .ok dropping ∧
          (lampCatalogue.register "lamp" (lampMethod.withoutDefaults ["tone"])).generate
            ⟨false, none⟩ "lamp" (lampInput.without ["tone"]) [] = .ok reduced ∧
          reduced.variations = dropping.variations ∧
          dropping.variations.length = 2 := by
  have registered : lampCatalogue.get? "lamp" = some lampMethod := by decide +kernel
  have empty : lampMethod.emptyOptionals lampInput = ["tone"] := by decide +kernel
  have counted :
      (lampCatalogue.generate ⟨true, none⟩ "lamp" lampInput []).toOption.map
        (fun generated => generated.variations.length) = some 2 := by
    decide +kernel
  have effect :=
    (Catalogue.generate_dropping lampCatalogue "lamp" lampInput []).2 lampMethod registered
  rw [empty] at effect
  rcases Outcome.exists_generated_of_map_eq counted with ⟨dropping, succeeded, length⟩
  have droppingSound :
      ∀ failure, lampCatalogue.generate ⟨true, none⟩ "lamp" lampInput [] ≠ .error failure := by
    intro failure failed
    cases succeeded.symm.trans failed
  have keepingSound :
      ∀ failure, lampCatalogue.generate ⟨false, none⟩ "lamp" lampInput [] ≠ .error failure := by
    intro failure failed
    rcases effect.sameFailure failure (.inl failed) with ⟨_, _, _, _, alsoFailed⟩
    exact droppingSound _ alsoFailed
  rcases effect.rows droppingSound with ⟨generated, alsoSucceeded, sameRows⟩
  rcases sameRows false with ⟨reduced, produced, same⟩
  cases succeeded.symm.trans alsoSucceeded
  exact ⟨registered, empty, effect.collapsed keepingSound (by simp [empty]), dropping, reduced,
    succeeded, produced, same, length⟩

end Assortment
