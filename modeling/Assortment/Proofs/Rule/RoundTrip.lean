import Assortment.Rule.List
import Assortment.Proofs.Text

/-!
# Rules written and parsed again

The text of a parsed rule parses to the same rule, although what stood behind its closing bracket is
gone: the name has no opening bracket and the parameter no closing one, so both are found again
where they were.  A rule without a parameter is its whole text.

For a list of rules the bars come in.  A line is divided at all of its bars before any bracket is
looked at, so no rule of a parsed line has a bar, and the line written for its rules is divided into
their texts again.  Segments are not divided; a rule that comes from a segment with a bar in it is
lost when its list is written on one line.
-/

namespace Assortment

namespace Rule

/-- A text that has a name and a parameter, whatever stands behind them. -/
theorem parse_bracketed
    {name parameter behind : List Char}
    {text : String}
    (written : text.toList = name ++ '[' :: (parameter ++ ']' :: behind))
    (unopened : '[' ∉ name)
    (unclosed : ']' ∉ parameter) :
    parse text = ⟨String.ofList name, some (String.ofList parameter)⟩ := by
  have opened : Text.cut '[' text.toList = some (name, parameter ++ ']' :: behind) :=
    Text.cut_eq_some_iff.2 ⟨written, unopened⟩
  have closed : Text.cut ']' (parameter ++ ']' :: behind) = some (parameter, behind) :=
    Text.cut_eq_some_iff.2 ⟨rfl, unclosed⟩
  simp only [parse, opened, closed]

/-- The two ways in which a text is parsed as a rule. -/
inductive ParsesAs (text : String) : Rule → Prop
  | bare :
      ParsesAs text ⟨text, none⟩
  | bracketed
      {name parameter behind : List Char}
      (written : text.toList = name ++ '[' :: (parameter ++ ']' :: behind))
      (unopened : '[' ∉ name)
      (unclosed : ']' ∉ parameter) :
      ParsesAs text ⟨String.ofList name, some (String.ofList parameter)⟩

theorem parsesAs_parse
    (text : String) :
    ParsesAs text (parse text) := by
  rw [parse]
  split
  · exact .bare
  · next name bracketed opened =>
    rcases Text.cut_eq_some_iff.1 opened with ⟨written, unopened⟩
    split
    · exact .bare
    · next parameter behind closed =>
      rcases Text.cut_eq_some_iff.1 closed with ⟨rfl, unclosed⟩
      exact .bracketed written unopened unclosed

theorem toList_text
    (rule : Rule) :
    rule.text.toList =
      rule.name.toList ++
        match rule.parameter with
        | none => []
        | some parameter => '[' :: (parameter.toList ++ [']']) := by
  rcases rule with ⟨name, _ | parameter⟩ <;> simp [text]

/-- The text of a parsed rule parses to the same rule. -/
theorem parse_text_parse
    (text : String) :
    parse (parse text).text = parse text := by
  have parsed := parsesAs_parse text
  generalize same : parse text = rule at parsed ⊢
  cases parsed with
  | bare => exact same
  | @bracketed name parameter _ _ unopened unclosed =>
    have written :
        (Rule.text ⟨String.ofList name, some (String.ofList parameter)⟩).toList =
          name ++ '[' :: (parameter ++ ']' :: []) := by
      simp [toList_text]
    exact parse_bracketed written unopened unclosed

/-- A rule without a bar in its name or its parameter. -/
def IsBarless (rule : Rule) : Prop :=
  '|' ∉ rule.name.toList ∧ ∀ parameter ∈ rule.parameter, '|' ∉ parameter.toList

theorem bar_not_mem_text_iff
    {rule : Rule} :
    '|' ∉ rule.text.toList ↔ rule.IsBarless := by
  rw [toList_text, List.mem_append, not_or, IsBarless]
  rcases rule with ⟨name, _ | parameter⟩ <;> simp

theorem isBarless_parse
    {text : String}
    (barless : '|' ∉ text.toList) :
    (parse text).IsBarless := by
  have parsed := parsesAs_parse text
  generalize parse text = rule at parsed ⊢
  cases parsed with
  | bare => exact ⟨barless, by simp⟩
  | bracketed written _ _ =>
    rw [written] at barless
    simp only [List.mem_append, List.mem_cons, not_or] at barless
    simp [IsBarless, barless]

theorem text_parse_ne_empty
    {text : String}
    (inhabited : text ≠ "") :
    (parse text).text ≠ "" := by
  have parsed := parsesAs_parse text
  generalize parse text = rule at parsed ⊢
  cases parsed with
  | bare => exact inhabited
  | bracketed _ _ _ =>
    intro empty
    have characters := congrArg String.toList empty
    simp [toList_text] at characters

end Rule

namespace RuleList

variable {segments : List String}

/-- The rules of a list are those of its segments that are not empty. -/
theorem mem_rules_ofSegments_iff
    {rule : Rule} :
    rule ∈ (ofSegments segments).rules ↔
      ∃ segment ∈ segments, segment ≠ "" ∧ Rule.parse segment = rule := by
  simp [ofSegments, and_assoc]

/-- A line has rules without bars only. -/
theorem isBarless_of_mem_parse
    {line : String}
    {rule : Rule}
    (listed : rule ∈ (parse line).rules) :
    rule.IsBarless := by
  rcases mem_rules_ofSegments_iff.1 listed with ⟨segment, divided, _, rfl⟩
  exact Rule.isBarless_parse (Text.not_mem_of_mem_splitAt divided)

/-- Segments without bars are the pieces of the line on which they are written. -/
theorem parse_intercalate
    (barless : ∀ segment ∈ segments, '|' ∉ segment.toList) :
    parse ("|".intercalate segments) = ofSegments segments := by
  cases segments with
  | nil => simp [parse, ofSegments]
  | cons first others =>
    have divided : Text.splitAt '|' ("|".intercalate (first :: others)) = first :: others :=
      Text.splitAt_intercalate (List.cons_ne_nil first others) barless
    rw [parse, divided]

/-- Rules that their texts parse to, and whose texts are not empty, come back from the segments
that are their texts. -/
theorem ofSegments_map_text
    {list : RuleList}
    (parsed : ∀ rule ∈ list.rules, rule.text ≠ "" ∧ Rule.parse rule.text = rule) :
    ofSegments (list.rules.map Rule.text) = list := by
  have kept :
      (list.rules.map Rule.text).filter (fun segment => !segment.isEmpty) =
        list.rules.map Rule.text := by
    rw [List.filter_eq_self]
    intro segment listed
    rcases List.mem_map.1 listed with ⟨rule, member, rfl⟩
    simpa using (parsed rule member).1
  have each : list.rules.map (Rule.parse ∘ Rule.text) = list.rules.map id :=
    List.map_congr_left fun rule member => (parsed rule member).2
  rw [ofSegments, kept, List.map_map, each, List.map_id]

/-- Rules that come from segments are parsed from their line exactly when none of them has a bar. -/
theorem parse_text_ofSegments_iff :
    parse (ofSegments segments).text = ofSegments segments ↔
      ∀ rule ∈ (ofSegments segments).rules, rule.IsBarless := by
  constructor
  · intro same rule listed
    rw [← same] at listed
    exact isBarless_of_mem_parse listed
  · intro barless
    have lineOf :
        parse (ofSegments segments).text =
          ofSegments ((ofSegments segments).rules.map Rule.text) := by
      apply parse_intercalate
      intro segment listed
      rcases List.mem_map.1 listed with ⟨rule, member, rfl⟩
      exact Rule.bar_not_mem_text_iff.2 (barless rule member)
    rw [lineOf]
    apply ofSegments_map_text
    intro rule listed
    rcases mem_rules_ofSegments_iff.1 listed with ⟨segment, _, inhabited, rfl⟩
    exact ⟨Rule.text_parse_ne_empty inhabited, Rule.parse_text_parse segment⟩

/--
The text of a rule and the line of a rule list are normal forms of what they were parsed from, and
a list that comes from segments is parsed from its line exactly when no rule of it has a bar in its
name or its parameter.
-/
theorem text_normalizes :
    (∀ text, Rule.parse (Rule.parse text).text = Rule.parse text) ∧
      (∀ line, parse (parse line).text = parse line) ∧
      ∀ segments,
        parse (ofSegments segments).text = ofSegments segments ↔
          ∀ rule ∈ (ofSegments segments).rules, rule.IsBarless := by
  refine ⟨Rule.parse_text_parse, ?_, fun _ => parse_text_ofSegments_iff⟩
  intro line
  exact parse_text_ofSegments_iff.2 fun _ => isBarless_of_mem_parse

/-- A segment with a bar inside its brackets falls apart on the line of its list. -/
example : (parse (ofSegments ["val[a|b]"]).text).rules = [⟨"val[a", none⟩, ⟨"b]", none⟩] := by
  decide +kernel

end RuleList

end Assortment
