import Assortment.Proofs.Template.Ranking

/-!
# Expansion as simultaneous substitution

A template is read from left to right.  Where a placeholder of a known name begins, the longest such
placeholder is read as the name; elsewhere one character is read as itself.  `Scans` says so of every
position of the text, with nothing but the set of known names to go by, and leaves one reading only.

An expansion goes from one opening brace to the next and tries the known names in the order of their
ranks.  It arrives at the same reading, for no placeholder begins before the next brace, and it
renders each name of the reading as the text that the row or the active groups have for it.
-/

namespace Assortment.Placeholder

theorem written_injective
    {left right : String}
    (same : written left = written right) :
    left = right := by
  exact String.toList_inj.1 (by simpa [written] using same)

/-- The braces add the same to the lengths of all names. -/
theorem length_written_le_iff
    {left right : String} :
    (written left).length ≤ (written right).length ↔ left.toList.length ≤ right.toList.length := by
  simp [written]

end Assortment.Placeholder

namespace Assortment.Template

/-- A part of a template: a character that stands for itself, or the placeholder of a name. -/
inductive Piece where
  | copied (character : Char)
  | named (name : String)
  deriving DecidableEq

/-- What a part of a template becomes when each name stands for a text. -/
def Piece.rendered (textOf : String → String) : Piece → List Char
  | copied character => [character]
  | named name => (textOf name).toList

/-- How a text is read when certain names are known. -/
inductive Scans (known : String → Prop) : List Char → List Piece → Prop
  | done : Scans known [] []
  | named
      {text rest : List Char}
      {name : String}
      {pieces : List Piece}
      (listed : known name)
      (begins : text = '{' :: name.toList ++ ['}'] ++ rest)
      (longest :
        ∀ other, known other → '{' :: other.toList ++ ['}'] <+: text →
          other.toList.length ≤ name.toList.length)
      (later : Scans known rest pieces) :
      Scans known text (.named name :: pieces)
  | copied
      {rest : List Char}
      {character : Char}
      {pieces : List Piece}
      (unmatched : ∀ other, known other → ¬ '{' :: other.toList ++ ['}'] <+: character :: rest)
      (later : Scans known rest pieces) :
      Scans known (character :: rest) (.copied character :: pieces)

namespace Scans

variable {known : String → Prop} {text : List Char}

/-- A text is read in one way only. -/
theorem unique
    {pieces others : List Piece}
    (left : Scans known text pieces)
    (right : Scans known text others) :
    pieces = others := by
  induction left generalizing others with
  | done =>
    cases right with
    | done => rfl
    | named listed begins longest later =>
      cases begins
  | @named text rest name pieces listed begins longest later inductionHypothesis =>
    have opens : Placeholder.written name <+: text := ⟨rest, begins.symm⟩
    cases right with
    | done => cases begins
    | @named _ otherRest otherName _ otherListed otherBegins otherLongest otherLater =>
      have otherOpens : Placeholder.written otherName <+: text := ⟨otherRest, otherBegins.symm⟩
      -- Each of the two is the longest, so neither is longer than the other.
      have sameLength :
          (Placeholder.written name).length = (Placeholder.written otherName).length :=
        Nat.le_antisymm
          (Placeholder.length_written_le_iff.2 (otherLongest name listed opens))
          (Placeholder.length_written_le_iff.2 (longest otherName otherListed otherOpens))
      rcases List.append_inj (begins.symm.trans otherBegins) sameLength with ⟨written, rfl⟩
      rw [Placeholder.written_injective written, inductionHypothesis otherLater]
    | copied unmatched otherLater => exact absurd opens (unmatched name listed)
  | copied unmatched later inductionHypothesis =>
    cases right with
    | named listed begins longest otherLater =>
      exact absurd ⟨_, begins.symm⟩ (unmatched _ listed)
    | copied otherUnmatched otherLater => rw [inductionHypothesis otherLater]

/-- Only the set of known names matters to how a text is read. -/
theorem of_known_iff
    {others : String → Prop}
    {pieces : List Piece}
    (same : ∀ name, known name ↔ others name)
    (scans : Scans known text pieces) :
    Scans others text pieces := by
  have equal : known = others := funext fun name => propext (same name)
  exact equal ▸ scans

theorem known_of_mem
    {pieces : List Piece}
    {name : String}
    (scans : Scans known text pieces)
    (listed : .named name ∈ pieces) :
    known name := by
  induction scans with
  | done => cases listed
  | named first begins longest later inductionHypothesis =>
    cases listed with
    | head => exact first
    | tail _ others => exact inductionHypothesis others
  | copied unmatched later inductionHypothesis =>
    cases listed with
    | tail _ others => exact inductionHypothesis others

theorem copied_of_ne
    {rest : List Char}
    {character : Char}
    {pieces : List Piece}
    (plain : character ≠ '{')
    (later : Scans known rest pieces) :
    Scans known (character :: rest) (.copied character :: pieces) := by
  refine .copied ?_ later
  intro other _ begins
  rcases begins with ⟨after, split⟩
  exact plain (List.cons.inj split).1.symm

/-- Characters before the next opening brace are read as themselves. -/
theorem copied_append
    {before rest : List Char}
    {pieces : List Piece}
    (plain : '{' ∉ before)
    (later : Scans known rest pieces) :
    Scans known (before ++ rest) (before.map .copied ++ pieces) := by
  induction before with
  | nil => exact later
  | cons character others inductionHypothesis =>
    have apart := mt List.mem_cons.2 plain
    have ordinary : character ≠ '{' := by
      intro same
      exact apart (.inl same.symm)
    apply copied_of_ne ordinary
    apply inductionHypothesis
    intro listed
    exact apart (.inr listed)

end Scans

theorem flatMap_rendered_copied
    (textOf : String → String)
    (before : List Char) :
    (before.map Piece.copied).flatMap (Piece.rendered textOf) = before := by
  induction before with
  | nil => rfl
  | cons character rest inductionHypothesis =>
    rw [List.map_cons, List.flatMap_cons, inductionHypothesis]
    rfl

/-- The text that a table has for a name. -/
def replacementIn (entries : List (String × String)) (name : String) : String :=
  (Entries.get? name entries).getD ""

section Ranked

variable {entries : List (String × String)} {text : List Char} {pieces : List Piece}

/-- Where a placeholder of the table begins, the first ranked one is the one that is read. -/
theorem scans_of_find?_eq_some
    {entry : String × String}
    (falling : entries.Pairwise fun left right => rank right ≤ rank left)
    (found :
      entries.find? (fun entry => (Placeholder.written entry.1).isPrefixOf text) = some entry)
    (later :
      Scans (· ∈ Entries.keys entries) (text.drop (Placeholder.written entry.1).length) pieces) :
    Scans (· ∈ Entries.keys entries) text (.named entry.1 :: pieces) := by
  have listed : entry ∈ entries := List.mem_of_find?_eq_some found
  have begins : Placeholder.written entry.1 <+: text :=
    List.isPrefixOf_iff_prefix.1 (List.find?_eq_some_iff_append.1 found).1
  refine .named (Entries.mem_keys_of_mem listed) (List.prefix_iff_eq_append.1 begins).symm ?_ later
  intro other known otherBegins
  rcases List.mem_map.1 known with ⟨candidate, candidateListed, rfl⟩
  exact Placeholder.length_written_le_iff.1
    (longest_of_find? falling found candidateListed otherBegins)

theorem scans_of_find?_eq_none
    {character : Char}
    (absent :
      entries.find? (fun entry => (Placeholder.written entry.1).isPrefixOf (character :: text)) =
        none)
    (later : Scans (· ∈ Entries.keys entries) text pieces) :
    Scans (· ∈ Entries.keys entries) (character :: text) (.copied character :: pieces) := by
  refine .copied ?_ later
  intro other known begins
  rcases List.mem_map.1 known with ⟨candidate, listed, rfl⟩
  exact List.find?_eq_none.1 absent candidate listed (List.isPrefixOf_iff_prefix.2 begins)

/-- Going from brace to brace arrives at the reading of the text and renders it. -/
theorem exists_scans_replace
    (distinct : (Entries.keys entries).Nodup)
    (falling : entries.Pairwise fun left right => rank right ≤ rank left)
    (text : List Char) :
    ∃ pieces,
      Scans (· ∈ Entries.keys entries) text pieces ∧
        replace entries text = pieces.flatMap (Piece.rendered (replacementIn entries)) := by
  fun_induction replace entries text with
  | case1 text divided =>
    have scans : Scans (· ∈ Entries.keys entries) (text ++ []) (text.map .copied ++ []) :=
      Scans.copied_append (Text.cut_eq_none_iff.1 divided) .done
    rw [List.append_nil, List.append_nil] at scans
    exact ⟨text.map .copied, scans, (flatMap_rendered_copied _ text).symm⟩
  | case2 text before after divided followed copied =>
    -- Nothing is skipped on the way to the brace, for no placeholder begins before it.
    rcases Text.cut_eq_some_iff.1 divided with ⟨rfl, plain⟩
    cases found :
        entries.find? fun entry =>
          (Placeholder.written entry.1).isPrefixOf ('{' :: after) with
    | some entry =>
      rcases followed entry.1 with ⟨pieces, scans, replaced⟩
      have held : replacementIn entries entry.1 = entry.2 := by
        have listed : (entry.1, entry.2) ∈ entries := List.mem_of_find?_eq_some found
        rw [replacementIn, (Entries.get?_eq_some_iff distinct).2 listed, Option.getD_some]
      refine ⟨before.map .copied ++ .named entry.1 :: pieces,
        Scans.copied_append plain (scans_of_find?_eq_some falling found scans), ?_⟩
      rw [List.flatMap_append, flatMap_rendered_copied, List.flatMap_cons, Piece.rendered, held,
        ← replaced]
    | none =>
      rcases copied with ⟨pieces, scans, replaced⟩
      refine ⟨before.map .copied ++ .copied '{' :: pieces,
        Scans.copied_append plain (scans_of_find?_eq_none found scans), ?_⟩
      rw [List.flatMap_append, flatMap_rendered_copied, List.flatMap_cons, Piece.rendered,
        ← replaced]
      rfl

end Ranked

/-- The names that are known when a template is expanded for a row. -/
def Known (row : Row) (name : String) : Prop :=
  name ∈ row.keys ∨ name = "activeGroups"

instance (row : Row) : DecidablePred (Known row) := fun _ =>
  inferInstanceAs (Decidable (_ ∨ _))

/-- The text of a known name: that of the row's field, or else the groups with commas between. -/
def replacementFor (row : Row) (groups : List String) (name : String) : String :=
  match row.get? name with
  | some value => value.text
  | none => ", ".intercalate groups

theorem get?_foldl_insert
    {entries : List (String × Value)}
    (distinct : (Entries.keys entries).Nodup)
    (known : OrderedMap String)
    (name : String) :
    (entries.foldl (fun known entry => known.insert entry.1 entry.2.text) known).get? name =
      ((Entries.get? name entries).map Value.text).or (known.get? name) := by
  induction entries generalizing known with
  | nil => rfl
  | cons entry rest inductionHypothesis =>
    rcases List.nodup_cons.1 distinct with ⟨fresh, others⟩
    rw [List.foldl_cons, inductionHypothesis others, OrderedMap.get?_insert, Entries.get?]
    by_cases same : entry.1 = name
    · have absent : Entries.get? name rest = none := Entries.get?_eq_none_iff.2 (same ▸ fresh)
      simp [same, absent]
    · simp [same]

/-- What the table of an expansion has for a name. -/
theorem get?_replacements
    (row : Row)
    (groups : List String)
    (name : String) :
    (replacements row groups).get? name =
      ((row.get? name).map Value.text).or
        (if "activeGroups" = name then some (", ".intercalate groups) else none) := by
  rw [replacements, get?_foldl_insert row.distinct, OrderedMap.get?_insert]
  rfl

/-- There is a replacement for exactly the known names. -/
theorem mem_keys_replacements_iff
    {row : Row}
    {groups : List String}
    {name : String} :
    name ∈ (replacements row groups).keys ↔ Known row name := by
  have sought := get?_replacements row groups name
  rw [← not_iff_not, ← OrderedMap.get?_eq_none_iff, sought, Option.or_eq_none_iff,
    Option.map_eq_none_iff, OrderedMap.get?_eq_none_iff, Known, not_or]
  refine and_congr_right fun _ => ?_
  by_cases same : "activeGroups" = name
  · simp [same]
  · simp [same, Ne.symm same]

/-- The table of an expansion has the right text for each known name, however it is arranged. -/
theorem replacementIn_of_perm
    {entries : List (String × String)}
    {row : Row}
    {groups : List String}
    (arranged : entries.Perm (replacements row groups).entries)
    {name : String}
    (known : Known row name) :
    replacementIn entries name = replacementFor row groups name := by
  have distinct : (Entries.keys entries).Nodup :=
    (arranged.map Prod.fst).nodup_iff.2 (replacements row groups).distinct
  have held : (replacements row groups).get? name = some (replacementFor row groups name) := by
    rw [get?_replacements, replacementFor]
    cases found : row.get? name with
    | some value => rfl
    | none =>
      rcases known with field | reserved
      · exact absurd field (OrderedMap.get?_eq_none_iff.1 found)
      · simp [reserved]
  have listed := arranged.mem_iff.2 (OrderedMap.get?_eq_some_iff.1 held)
  rw [replacementIn, (Entries.get?_eq_some_iff distinct).2 listed, Option.getD_some]

/-- Replacing by ranked entries scans the text and renders what it finds. -/
theorem exists_scans_known
    {entries : List (String × String)}
    {row : Row}
    {groups : List String}
    (arranged : entries.Perm (replacements row groups).entries)
    (text : List Char) :
    ∃ pieces,
      Scans (Known row) text pieces ∧
        replace (ranked entries) text =
          pieces.flatMap (Piece.rendered (replacementFor row groups)) := by
  have rearranged := (ranked_perm entries).trans arranged
  have distinct : (Entries.keys (ranked entries)).Nodup :=
    (rearranged.map Prod.fst).nodup_iff.2 (replacements row groups).distinct
  rcases exists_scans_replace distinct (pairwise_ranked entries) text with
    ⟨pieces, scans, replaced⟩
  have same : ∀ name, name ∈ Entries.keys (ranked entries) ↔ Known row name := by
    intro name
    exact (rearranged.map Prod.fst).mem_iff.trans mem_keys_replacements_iff
  have known := scans.of_known_iff same
  refine ⟨pieces, known, replaced.trans ?_⟩
  apply List.flatMap_congr
  intro piece listed
  cases piece with
  | copied character => rfl
  | named name =>
    rw [Piece.rendered, Piece.rendered,
      replacementIn_of_perm rearranged (known.known_of_mem listed)]

/--
An expansion is the simultaneous substitution that reads the longest known placeholder wherever one
begins.  The reading depends on the template and the field names only, and the table may be filled
in any order.
-/
theorem expand_eq_substitution
    (template : String)
    (row : Row) :
    ∃ pieces,
      Scans (Known row) template.toList pieces ∧
        (∀ others, Scans (Known row) template.toList others → others = pieces) ∧
        (∀ (other : Row) (groups : List String),
          (∀ name, name ∈ other.keys ↔ name ∈ row.keys) →
            expand template other groups =
              String.ofList (pieces.flatMap (Piece.rendered (replacementFor other groups)))) ∧
        ∀ (groups : List String) (entries : List (String × String)),
          entries.Perm (replacements row groups).entries →
            String.ofList (replace (ranked entries) template.toList) =
              expand template row groups := by
  rcases exists_scans_known (List.Perm.refl (replacements row []).entries) template.toList with
    ⟨pieces, scans, _⟩
  refine ⟨pieces, scans, ?unique, ?values, ?order⟩
  case unique =>
    intro others read
    exact read.unique scans
  case values =>
    intro other groups sameFields
    rcases exists_scans_known (List.Perm.refl (replacements other groups).entries)
      template.toList with ⟨others, read, replaced⟩
    have sameKnown : ∀ name, Known other name ↔ Known row name := by
      intro name
      exact or_congr_left (sameFields name)
    rw [expand, replaced, (read.of_known_iff sameKnown).unique scans]
  case order =>
    intro groups entries arranged
    rcases exists_scans_known arranged template.toList with ⟨left, leftScans, leftReplaced⟩
    rcases exists_scans_known (List.Perm.refl (replacements row groups).entries)
      template.toList with ⟨right, rightScans, rightReplaced⟩
    rw [expand, leftReplaced, rightReplaced, leftScans.unique rightScans]

example :
    expand "\x7ba\x7d\x7bb\x7d" (OrderedMap.ofList [("a", .int 1), ("a\x7d\x7bb", .int 3)]) [] =
      "3" := by
  decide +kernel

end Assortment.Template
