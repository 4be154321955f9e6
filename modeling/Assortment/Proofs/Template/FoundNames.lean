import Assortment.Proofs.Template.Names

/-!
# The placeholders that a scan finds

The scan of a template and its expansion look for placeholders in different ways.  The scan keeps
what stands behind the last opening brace and gives a name when a closing brace ends it.  The
expansion compares the text behind every opening brace with the placeholders of the names that it
knows.

Both are readings of the template.  The scan gives the names of the reading in which every plain
name is known, for of the placeholders of plain names only one can begin at a place.  If the fields
of a row have plain names, an expansion knows fewer names, and its reading is that of the scan with
the placeholders of unknown names spelled out.  So the expansion replaces what the scan finds, as
far as it is known, and nothing else.
-/

namespace Assortment.Placeholder

/-- The placeholders of two plain names do not begin the same text. -/
theorem eq_of_written_isPrefix
    {left right : String}
    {text : List Char}
    (leftPlain : IsPlain left)
    (rightPlain : IsPlain right)
    (leftOpens : written left <+: text)
    (rightOpens : written right <+: text) :
    left = right := by
  rcases leftOpens with ⟨leftRest, rfl⟩
  rcases rightOpens with ⟨rightRest, same⟩
  have behind :
      left.toList ++ '}' :: leftRest = right.toList ++ '}' :: rightRest := by
    simpa [written] using same.symm
  -- A plain name ends at the first closing brace, so cutting there gives it back.
  have leftCut :
      Text.cut '}' (left.toList ++ '}' :: leftRest) = some (left.toList, leftRest) :=
    Text.cut_eq_some_iff.2 ⟨rfl, leftPlain.2.2⟩
  have rightCut := Text.cut_eq_some_iff.2 ⟨behind, rightPlain.2.2⟩
  have parts := Option.some.inj (leftCut.symm.trans rightCut)
  exact String.toList_inj.1 (Prod.mk.inj parts).1

/-- What stands behind an opening brace is not the beginning of a plain name that the text ends. -/
def Unfinished (pending : Option (List Char)) (text : List Char) : Prop :=
  ∀ before ∈ pending, '{' ∉ before ∧ '}' ∉ before ∧
    ∀ name, IsPlain name → ¬ written name <+: '{' :: before.reverse ++ text

section Unfinished

variable {pending : Option (List Char)} {character : Char} {rest : List Char}

theorem unfinished_none
    (text : List Char) :
    Unfinished none text :=
  nofun

theorem unfinished_nil
    (unmatched : ∀ name, IsPlain name → ¬ written name <+: '{' :: rest) :
    Unfinished (some []) rest := by
  rintro before ⟨⟩
  exact ⟨List.not_mem_nil, List.not_mem_nil, unmatched⟩

/-- A name that is unfinished stays so behind a character that is not a brace. -/
theorem Unfinished.cons
    (unfinished : Unfinished pending (character :: rest))
    (notOpening : character ≠ '{')
    (notClosing : character ≠ '}') :
    Unfinished (pending.map (character :: ·)) rest := by
  intro before kept
  rcases Option.map_eq_some_iff.1 kept with ⟨earlier, held, rfl⟩
  rcases unfinished earlier held with ⟨noOpening, noClosing, unmatched⟩
  refine ⟨?_, ?_, ?_⟩
  · simp [Ne.symm notOpening, noOpening]
  · simp [Ne.symm notClosing, noClosing]
  · simpa using unmatched

/-- A closing brace ends no plain name when none was begun. -/
theorem Unfinished.scan_closing
    (unfinished : Unfinished pending ('}' :: rest)) :
    scan pending ('}' :: rest) = scan none rest := by
  rcases pending with _ | _ | ⟨last, before⟩
  · simp [scan]
  · simp [scan]
  · rcases unfinished (last :: before) rfl with ⟨noOpening, noClosing, unmatched⟩
    have plain : IsPlain (String.ofList (last :: before).reverse) := by
      refine ⟨?_, ?_, ?_⟩
      · simp
      · rwa [String.toList_ofList, List.mem_reverse]
      · rwa [String.toList_ofList, List.mem_reverse]
    have opens :
        written (String.ofList (last :: before).reverse) <+:
          '{' :: (last :: before).reverse ++ '}' :: rest :=
      ⟨rest, by simp only [written, String.toList_ofList, List.cons_append, List.append_assoc,
        List.nil_append]⟩
    exact absurd opens (unmatched _ plain)

end Unfinished

end Assortment.Placeholder

namespace Assortment.Template

open Placeholder (IsPlain Unfinished)

namespace Piece

/-- The name that a part of a template stands for, if it is the placeholder of one. -/
def name? : Piece → Option String
  | copied _ => none
  | named name => some name

/-- A part of a template as it is written there. -/
def source : Piece → List Char
  | copied character => [character]
  | named name => '{' :: name.toList ++ ['}']

/-- A part of a template with the placeholder of a name in single characters unless it is known. -/
def spelled (known : String → Prop) [DecidablePred known] : Piece → List Piece
  | copied character => [copied character]
  | named name => if known name then [named name] else (Placeholder.written name).map copied

/-- What a part becomes when the placeholders of known names are replaced and all else is copied. -/
def filled
    (known : String → Prop)
    [DecidablePred known]
    (textOf : String → String) :
    Piece → List Char
  | copied character => [character]
  | named name => if known name then (textOf name).toList else '{' :: name.toList ++ ['}']

variable {known : String → Prop} [DecidablePred known]

/-- Spelling out a piece and rendering what is spelled is filling the piece. -/
theorem rendered_spelled
    (textOf : String → String)
    (piece : Piece) :
    (piece.spelled known).flatMap (rendered textOf) = piece.filled known textOf := by
  cases piece with
  | copied character => rfl
  | named name =>
    rw [spelled, filled]
    split
    · simp [rendered]
    · exact flatMap_rendered_copied textOf (Placeholder.written name)

/-- Spelling out unknown names leaves the known ones, in their order. -/
theorem names_flatMap_spelled
    (pieces : List Piece) :
    (pieces.flatMap (spelled known)).filterMap name? =
      (pieces.filterMap name?).filter fun name => known name := by
  induction pieces with
  | nil => rfl
  | cons piece rest inductionHypothesis =>
    rw [List.flatMap_cons, List.filterMap_append, inductionHypothesis]
    cases piece with
    | copied character => rfl
    | named name =>
      rw [spelled]
      split
      · next holds => simp [name?, holds]
      · next fails => simp [name?, fails]

end Piece

namespace Scans

variable {known : String → Prop} {text : List Char} {pieces : List Piece}

theorem flatMap_source
    (scans : Scans known text pieces) :
    pieces.flatMap Piece.source = text := by
  induction scans with
  | done => rfl
  | named listed begins longest later inductionHypothesis =>
    rw [List.flatMap_cons, inductionHypothesis, Piece.source, begins]
  | copied unmatched later inductionHypothesis =>
    rw [List.flatMap_cons, inductionHypothesis]
    rfl

/-- A text can be read with all plain names known. -/
theorem exists_plain
    (text : List Char) :
    ∃ pieces, Scans IsPlain text pieces := by
  by_cases begun : ∃ name, IsPlain name ∧ Placeholder.written name <+: text
  · rcases begun with ⟨name, plain, rest, begins⟩
    rcases exists_plain rest with ⟨pieces, later⟩
    refine ⟨.named name :: pieces, .named plain begins.symm ?_ later⟩
    intro other otherPlain opens
    rw [Placeholder.eq_of_written_isPrefix otherPlain plain opens ⟨rest, begins⟩]
  · cases text with
    | nil => exact ⟨[], .done⟩
    | cons character rest =>
      rcases exists_plain rest with ⟨pieces, later⟩
      refine ⟨.copied character :: pieces, .copied ?_ later⟩
      intro other plain opens
      exact begun ⟨other, plain, opens⟩
termination_by text.length
decreasing_by
  · have opened := Placeholder.length_written_pos name
    rw [← begins, List.length_append]
    omega
  · exact Nat.lt_succ_self rest.length

/-- The scan gives the names of the reading in which all plain names are known. -/
theorem scan_eq
    (scans : Scans IsPlain text pieces)
    {pending : Option (List Char)}
    (unfinished : Unfinished pending text) :
    Placeholder.scan pending text = pieces.filterMap Piece.name? := by
  induction scans generalizing pending with
  | done => rfl
  | @named text rest name pieces plain begins longest later inductionHypothesis =>
    have inhabited : name.toList.reverse ++ [] ≠ [] := by simpa using plain.1
    have behind := inductionHypothesis (Placeholder.unfinished_none rest)
    have shape : text = '{' :: (name.toList ++ '}' :: rest) := by
      simp [begins]
    rw [shape, Placeholder.scan_opening,
      Placeholder.scan_stretch plain.2.1 plain.2.2 [] inhabited, behind]
    simp [Piece.name?]
  | @copied rest character pieces unmatched later inductionHypothesis =>
    by_cases opening : character = '{'
    · subst opening
      rw [Placeholder.scan_opening]
      exact inductionHypothesis (Placeholder.unfinished_nil unmatched)
    · by_cases closing : character = '}'
      · subst closing
        rw [unfinished.scan_closing]
        exact inductionHypothesis (Placeholder.unfinished_none rest)
      · rw [Placeholder.scan_of_not_brace opening closing]
        exact inductionHypothesis (unfinished.cons opening closing)

/-- When fewer names are known, the placeholders of the other names are read as characters. -/
theorem spelled
    {others : String → Prop}
    [DecidablePred others]
    (scans : Scans known text pieces)
    (plain : ∀ name, known name → IsPlain name)
    (fewer : ∀ name, others name → known name) :
    Scans others text (pieces.flatMap (Piece.spelled others)) := by
  induction scans with
  | done => exact .done
  | @named text rest name pieces listed begins longest later inductionHypothesis =>
    rw [List.flatMap_cons, Piece.spelled]
    split
    · next still =>
      refine .named still begins ?_ inductionHypothesis
      intro other otherStill opens
      exact longest other (fewer other otherStill) opens
    · next unknown =>
      -- No other name that is still known begins here, and within the placeholder no brace opens.
      have unmatched :
          ∀ other, others other →
            ¬ Placeholder.written other <+: '{' :: (name.toList ++ ['}'] ++ rest) := by
        intro other otherStill opens
        have same :=
          Placeholder.eq_of_written_isPrefix (plain other (fewer other otherStill))
            (plain name listed) opens ⟨rest, by simp [Placeholder.written]⟩
        exact unknown (same ▸ otherStill)
      have noOpening : '{' ∉ name.toList ++ ['}'] := by
        simpa using (plain name listed).2.1
      rw [begins]
      exact .copied unmatched (copied_append noOpening inductionHypothesis)
  | @copied rest character pieces unmatched later inductionHypothesis =>
    refine .copied ?_ inductionHypothesis
    intro other otherStill opens
    exact unmatched other (fewer other otherStill) opens

end Scans

/-- Where all fields are plain, so are all known names, for the groups have a plain name. -/
theorem isPlain_of_known
    {row : Row}
    (plain : ∀ field ∈ row.keys, IsPlain field)
    {name : String}
    (known : Known row name) :
    IsPlain name := by
  rcases known with field | rfl
  · exact plain name field
  · decide

/--
For a row of plain fields, an expansion replaces exactly those placeholders that the scan of the
template finds and whose names are known, each by the text of its name, and copies everything else.
-/
theorem expand_eq_filled
    {row : Row}
    (plain : ∀ field ∈ row.keys, IsPlain field)
    (template : String)
    (groups : List String) :
    ∃ found replaced,
      Scans IsPlain template.toList found ∧
        found.flatMap Piece.source = template.toList ∧
        found.filterMap Piece.name? = Placeholder.names template ∧
        expand template row groups =
          String.ofList (found.flatMap (Piece.filled (Known row) (replacementFor row groups))) ∧
        Scans (Known row) template.toList replaced ∧
        expand template row groups =
          String.ofList (replaced.flatMap (Piece.rendered (replacementFor row groups))) ∧
        replaced.filterMap Piece.name? =
          (Placeholder.names template).filter fun name => Known row name := by
  rcases Scans.exists_plain template.toList with ⟨found, scans⟩
  have names : found.filterMap Piece.name? = Placeholder.names template :=
    (scans.scan_eq (Placeholder.unfinished_none _)).symm
  have spelled := scans.spelled (fun _ => id) fun _ => isPlain_of_known plain
  rcases exists_scans_known (List.Perm.refl (replacements row groups).entries)
    template.toList with ⟨replaced, read, rendered⟩
  obtain rfl := spelled.unique read
  refine ⟨found, _, scans, scans.flatMap_source, names, ?_, read, ?_, ?_⟩
  · rw [expand, rendered, List.flatMap_assoc]
    simp only [Piece.rendered_spelled]
  · rw [expand, rendered]
  · rw [Piece.names_flatMap_spelled, names]

/-- A row with a field whose name begins that of the other and whose text is the placeholder of it. -/
def nestedRow : Row where
  entries := [("a", .string "\x7bab\x7d"), ("ab", .int 2)]

/-- A template with placeholders inside braces, next to each other, empty and cut short. -/
def nestedTemplate : String :=
  "\x7b\x7ba\x7d\x7bx\x7d\x7d\x7ba\x7bab\x7d\x7bactiveGroups\x7d\x7b\x7d\x7ba"

/-- Among nested, unknown, empty and unclosed braces three names are found and replaced. -/
theorem nested_expand_eq_filled :
    (∀ field ∈ nestedRow.keys, IsPlain field) ∧
      expand nestedTemplate nestedRow ["g", "h"] =
        "\x7b\x7bab\x7d\x7bx\x7d\x7d\x7ba2g, h\x7b\x7d\x7ba" ∧
      ∃ found replaced,
        Scans IsPlain nestedTemplate.toList found ∧
          found.filterMap Piece.name? = ["a", "x", "ab", "activeGroups"] ∧
          expand nestedTemplate nestedRow ["g", "h"] =
            String.ofList
              (found.flatMap
                (Piece.filled (Known nestedRow) (replacementFor nestedRow ["g", "h"]))) ∧
          Scans (Known nestedRow) nestedTemplate.toList replaced ∧
          replaced.filterMap Piece.name? = ["a", "ab", "activeGroups"] := by
  have plain : ∀ field ∈ nestedRow.keys, IsPlain field := by decide
  have names :
      Placeholder.names nestedTemplate = ["a", "x", "ab", "activeGroups"] := by
    decide +kernel
  have known :
      (["a", "x", "ab", "activeGroups"].filter fun name => Known nestedRow name) =
        ["a", "ab", "activeGroups"] := by
    decide +kernel
  rcases expand_eq_filled plain nestedTemplate ["g", "h"] with
    ⟨found, replaced, scans, _, foundNames, filled, read, _, replacedNames⟩
  rw [names] at foundNames replacedNames
  exact ⟨plain, by decide +kernel, found, replaced, scans, foundNames, filled, read,
    replacedNames.trans known⟩

end Assortment.Template
