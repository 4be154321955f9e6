import Assortment.Proofs.Rule.RoundTrip

/-!
# Allow-lists read back

A rule that lists what it allows holds three notations inside each other: bars between the rules of
a line, brackets around the parameter of a rule, and commas between the items of a list.  They are
taken apart from the outside to the inside, and each step undoes the one that put the text together
as long as its own mark stands in no item: the bar for a line, the closing bracket for the
parameter, the comma for the list.  An opening bracket does no harm, because the first one of the
text stands in front of all items, and neither do empty items and blanks.

A line that is joined from lines has the rules of each of them, one after the other, so it does not
matter what stands on the line beside the list.
-/

namespace Assortment

namespace RuleList

/-- A bar between two lines divides their rules. -/
theorem rules_parse_append
    (before behind : String) :
    (parse (before ++ "|" ++ behind)).rules = (parse before).rules ++ (parse behind).rules := by
  have divided :
      Text.splitAt '|' (before ++ "|" ++ behind) =
        Text.splitAt '|' before ++ Text.splitAt '|' behind :=
    Text.splitAt_append before behind
  simp only [parse, ofSegments, divided, List.filter_append, List.map_append]

/-- A line that is joined from lines has the rules of all of them. -/
theorem rules_parse_intercalate
    (lines : List String) :
    (parse ("|".intercalate lines)).rules = lines.flatMap fun line => (parse line).rules := by
  induction lines with
  | nil => simp [parse, ofSegments]
  | cons line rest inductionHypothesis =>
    cases rest with
    | nil => simp
    | cons next others =>
      simp only [String.intercalate_cons_cons, rules_parse_append, inductionHypothesis,
        List.flatMap_cons]

/-- A line without bars that is not empty is one rule. -/
theorem rules_parse_of_barless
    {text : String}
    (inhabited : text ≠ "")
    (barless : '|' ∉ text.toList) :
    (parse text).rules = [Rule.parse text] := by
  have whole : Text.splitAt '|' text = [text] := by
    have joined : Text.splitAt '|' ("|".intercalate [text]) = [text] :=
      Text.splitAt_intercalate (List.cons_ne_nil text []) (by simpa)
    rwa [String.intercalate_singleton] at joined
  simp [parse, ofSegments, whole, inhabited]

end RuleList

namespace Rule

/-- The text of a rule that allows the items of a list. -/
def allowing (allowed : List String) : String :=
  "val[" ++ ",".intercalate allowed ++ "]"

variable {allowed : List String}

theorem toList_allowing
    (allowed : List String) :
    (allowing allowed).toList =
      "val".toList ++ '[' :: ((",".intercalate allowed).toList ++ ']' :: []) := by
  simp [allowing]

/-- Without a closing bracket in an item, the joined items are the parameter. -/
theorem parse_allowing
    (unclosed : ∀ item ∈ allowed, ']' ∉ item.toList) :
    parse (allowing allowed) = ⟨"val", some (",".intercalate allowed)⟩ := by
  have inside : ']' ∉ (",".intercalate allowed).toList :=
    Text.not_mem_intercalate (by decide) unclosed
  have found := parse_bracketed (toList_allowing allowed) (by decide) inside
  rwa [String.ofList_toList, String.ofList_toList] at found

/-- Without a comma in an item, the joined items are divided into the list again. -/
theorem criterion_listed
    (inhabited : allowed ≠ [])
    (unmarked : ∀ item ∈ allowed, ',' ∉ item.toList) :
    criterion ⟨"val", some (",".intercalate allowed)⟩ = .oneOf allowed := by
  have divided : Text.splitAt ',' (",".intercalate allowed) = allowed :=
    Text.splitAt_intercalate inhabited unmarked
  simp [criterion, Criterion.ofParts, divided]

/-- What is read from the text of an allow-list. -/
structure ReadsBack (allowed : List String) : Prop where
  parsed :
    parse (allowing allowed) = ⟨"val", some (",".intercalate allowed)⟩
  criterion :
    (parse (allowing allowed)).criterion = .oneOf allowed
  scalar_iff :
    ∀ value text, value.scalarText? = some text →
      ((parse (allowing allowed)).accepts value = true ↔ text ∈ allowed)
  array :
    ∀ items, (parse (allowing allowed)).accepts (.array items) = false
  object :
    ∀ members, (parse (allowing allowed)).accepts (.object members) = false
  /-- Other lines on either side leave the rule what it is. -/
  among :
    (∀ item ∈ allowed, '|' ∉ item.toList) →
      ∀ before behind : List String,
        (RuleList.parse ("|".intercalate (before ++ allowing allowed :: behind))).rules =
          (RuleList.parse ("|".intercalate before)).rules ++
            parse (allowing allowed) :: (RuleList.parse ("|".intercalate behind)).rules

/-- Items without bars are written without bars. -/
theorem bar_not_mem_allowing
    (barless : ∀ item ∈ allowed, '|' ∉ item.toList) :
    '|' ∉ (allowing allowed).toList := by
  have inside : '|' ∉ (",".intercalate allowed).toList :=
    Text.not_mem_intercalate (by decide) barless
  simp only [toList_allowing, List.mem_append, List.mem_cons, not_or]
  exact ⟨by decide, by decide, inside, by decide, List.not_mem_nil⟩

/--
A list of items without commas and closing brackets is read back from the text of its rule, whatever
else the items hold, and so the rule accepts the scalars whose text is listed and nothing else.  If
the items have no bars either, the rule is also read from any line in which its text stands among
other segments.
-/
theorem allowing_readsBack
    (inhabited : allowed ≠ [])
    (unmarked : ∀ item ∈ allowed, ',' ∉ item.toList ∧ ']' ∉ item.toList) :
    ReadsBack allowed := by
  have parsed := parse_allowing fun item listed => (unmarked item listed).2
  have listed : (parse (allowing allowed)).criterion = .oneOf allowed := by
    rw [parsed]
    exact criterion_listed inhabited fun item member => (unmarked item member).1
  constructor
  case parsed => exact parsed
  case criterion => exact listed
  case scalar_iff =>
    intro value text written
    simp [accepts, listed, Criterion.accepts, written]
  case array =>
    intro items
    simp [accepts, listed, Criterion.accepts, Value.scalarText?]
  case object =>
    intro members
    simp [accepts, listed, Criterion.accepts, Value.scalarText?]
  case among =>
    intro barless before behind
    have alone :
        (RuleList.parse (allowing allowed)).rules = [parse (allowing allowed)] :=
      RuleList.rules_parse_of_barless (by simp [allowing]) (bar_not_mem_allowing barless)
    simp only [RuleList.rules_parse_intercalate, List.flatMap_append, List.flatMap_cons, alone,
      List.singleton_append]

/-- An empty item, one with an opening bracket and one between blanks, on a line with other rules. -/
theorem stray_brackets_readsBack :
    (["", "a[b", " c "] : List String) ≠ [] ∧
      (∀ item ∈ ["", "a[b", " c "], ',' ∉ item.toList ∧ ']' ∉ item.toList) ∧
      (parse "val[,a[b, c ]").criterion = .oneOf ["", "a[b", " c "] ∧
      (parse "val[,a[b, c ]").accepts .null = true ∧
      (parse "val[,a[b, c ]").accepts (.string "c") = false ∧
      (RuleList.parse "required||val[,a[b, c ]|min[0]").rules =
        [⟨"required", none⟩, parse "val[,a[b, c ]", ⟨"min", some "0"⟩] := by
  have unmarked : ∀ item ∈ ["", "a[b", " c "], ',' ∉ item.toList ∧ ']' ∉ item.toList := by
    decide
  have read := allowing_readsBack (List.cons_ne_nil _ _) unmarked
  have barless : ∀ item ∈ ["", "a[b", " c "], '|' ∉ item.toList := by decide
  refine ⟨List.cons_ne_nil _ _, unmarked, read.criterion, ?_, ?_, ?_⟩
  · exact (read.scalar_iff .null "" rfl).2 List.mem_cons_self
  · exact Bool.eq_false_iff.2 (mt (read.scalar_iff (.string "c") "c" rfl).1 (by decide))
  · exact read.among barless ["required", ""] ["min[0]"]

end Rule

end Assortment
