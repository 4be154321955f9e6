import Assortment.Proofs.Content
import Assortment.Proofs.Template.Substitution

/-!
# What an expansion depends on

An expansion looks at a row through the placeholders that occur in the template.  A name whose
placeholder does not occur there can be known or unknown without any effect on how the template is
read, and what the row holds under it is never asked for.  So two rows that agree on the names that
occur have the same expansion, and templates in which no name of some fields occurs keep rows
in agreement outside these fields.  The active groups are seen through their placeholder in the same
way.
-/

namespace Assortment.Placeholder

/-- The placeholder of a name stands somewhere in a text. -/
def Occurs (name : String) (text : List Char) : Prop :=
  '{' :: name.toList ++ ['}'] <:+: text

instance (name : String) (text : List Char) : Decidable (Occurs name text) :=
  inferInstanceAs (Decidable ('{' :: name.toList ++ ['}'] <:+: text))

theorem Occurs.of_suffix
    {name : String}
    {text rest : List Char}
    (behind : rest <:+ text)
    (occurs : Occurs name rest) :
    Occurs name text :=
  occurs.trans behind.isInfix

end Assortment.Placeholder

namespace Assortment.Template

open Placeholder (Occurs)

namespace Scans

variable {known : String → Prop} {text : List Char} {pieces : List Piece}

/-- A text is read in the same way when the names that occur in it are known in the same way. -/
theorem congr_occurring
    {others : String → Prop}
    (scans : Scans known text pieces)
    (same : ∀ name, Occurs name text → (known name ↔ others name)) :
    Scans others text pieces := by
  induction scans with
  | done => exact .done
  | @named text rest name pieces listed begins longest later inductionHypothesis =>
    have opens : Placeholder.written name <+: text := ⟨rest, begins.symm⟩
    have behind : rest <:+ text := ⟨Placeholder.written name, begins.symm⟩
    refine .named ((same name opens.isInfix).1 listed) begins ?_ ?_
    · intro other listedOther otherOpens
      exact longest other ((same other otherOpens.isInfix).2 listedOther) otherOpens
    · apply inductionHypothesis
      intro other occurs
      exact same other (occurs.of_suffix behind)
  | @copied rest character pieces unmatched later inductionHypothesis =>
    refine .copied ?_ ?_
    · intro other listedOther opens
      exact unmatched other ((same other opens.isInfix).2 listedOther) opens
    · apply inductionHypothesis
      intro other occurs
      exact same other (occurs.of_suffix (List.suffix_cons character rest))

theorem occurs_of_mem
    {name : String}
    (scans : Scans known text pieces)
    (listed : .named name ∈ pieces) :
    Occurs name text := by
  induction scans with
  | done => cases listed
  | @named text rest first pieces known begins longest later inductionHypothesis =>
    cases listed with
    | head => exact List.IsPrefix.isInfix ⟨rest, begins.symm⟩
    | tail _ others =>
      exact (inductionHypothesis others).of_suffix ⟨Placeholder.written first, begins.symm⟩
  | @copied rest character pieces unmatched later inductionHypothesis =>
    cases listed with
    | tail _ others => exact (inductionHypothesis others).of_suffix (List.suffix_cons character rest)

end Scans

/-- Expansions of a template are equal when the names that occur in it are known to both or to
neither of them, and with the same texts. -/
theorem expand_eq_of_occurring
    {template : String}
    {left right : Row}
    {leftGroups rightGroups : List String}
    (sameKnown :
      ∀ name, Occurs name template.toList → (Known left name ↔ Known right name))
    (sameText :
      ∀ name, Occurs name template.toList → Known left name →
        replacementFor left leftGroups name = replacementFor right rightGroups name) :
    expand template left leftGroups = expand template right rightGroups := by
  rcases exists_scans_known (List.Perm.refl (replacements left leftGroups).entries)
    template.toList with ⟨pieces, scans, replaced⟩
  rcases exists_scans_known (List.Perm.refl (replacements right rightGroups).entries)
    template.toList with ⟨others, read, otherReplaced⟩
  obtain rfl := (scans.congr_occurring sameKnown).unique read
  have sameTexts :
      pieces.flatMap (Piece.rendered (replacementFor left leftGroups)) =
        pieces.flatMap (Piece.rendered (replacementFor right rightGroups)) := by
    apply List.flatMap_congr
    intro piece listed
    cases piece with
    | copied character => rfl
    | named name =>
      rw [Piece.rendered, Piece.rendered,
        sameText name (scans.occurs_of_mem listed) (scans.known_of_mem listed)]
  rw [expand, expand, replaced, otherReplaced, sameTexts]

/-- An expansion depends on what the row holds under the names that occur in the template. -/
theorem expand_congr
    {template : String}
    {left right : Row}
    (agree : ∀ name, Occurs name template.toList → left.get? name = right.get? name)
    (groups : List String) :
    expand template left groups = expand template right groups := by
  apply expand_eq_of_occurring
  · intro name occurs
    rw [Known, Known, ← not_iff_not, not_or, not_or, ← OrderedMap.get?_eq_none_iff,
      ← OrderedMap.get?_eq_none_iff, agree name occurs]
  · intro name occurs _
    rw [replacementFor, replacementFor, agree name occurs]

/-- The groups have no effect on the expansion of a template that does not mention them. -/
theorem expand_eq_of_groups_absent
    {template : String}
    (absent : ¬ Occurs "activeGroups" template.toList)
    (row : Row)
    (groups others : List String) :
    expand template row groups = expand template row others := by
  apply expand_eq_of_occurring
  · exact fun _ _ => Iff.rfl
  · intro name occurs known
    have field : name ∈ row.keys := by
      rcases known with field | rfl
      · exact field
      · exact absurd occurs absent
    rcases Option.isSome_iff_exists.1 (Entries.get?_isSome_iff.2 field) with ⟨value, held⟩
    have found : row.get? name = some value := held
    rw [replacementFor, replacementFor, found]

/-- Two rows hold the same under every field that is not listed, or both hold nothing there. -/
def AgreeOutside (fields : List String) (left right : Row) : Prop :=
  ∀ field, field ∉ fields → left.get? field = right.get? field

section Applied

variable {templates : List (String × String)} {fields : List String} {left right : Row}

theorem applyAll_append
    (earlier later : List (String × String))
    (groups : List String)
    (row : Row) :
    applyAll (earlier ++ later) groups row = applyAll later groups (applyAll earlier groups row) :=
  List.foldl_append

/-- Rows that agree outside some fields expand a template alike that names none of these fields. -/
theorem AgreeOutside.expand_eq
    {template : String}
    (agree : AgreeOutside fields left right)
    (independent : ∀ field ∈ fields, ¬ Occurs field template.toList)
    (groups : List String) :
    expand template left groups = expand template right groups := by
  apply expand_congr
  intro name occurs
  apply agree
  intro listed
  exact independent name listed occurs

/-- Writing templates in which no listed field occurs keeps rows in agreement outside these. -/
theorem AgreeOutside.applyAll
    (agree : AgreeOutside fields left right)
    (independent :
      ∀ template ∈ templates, ∀ field ∈ fields, ¬ Occurs field template.2.toList)
    (groups : List String) :
    AgreeOutside fields (applyAll templates groups left) (applyAll templates groups right) := by
  induction templates generalizing left right with
  | nil => exact agree
  | cons template rest inductionHypothesis =>
    have sameText :=
      agree.expand_eq (independent template List.mem_cons_self) groups
    refine inductionHypothesis ?_ fun other listed =>
      independent other (List.mem_cons_of_mem _ listed)
    intro field unlisted
    rw [OrderedMap.get?_insert, OrderedMap.get?_insert, sameText, agree field unlisted]

/-- The groups have no effect on what templates write that do not mention them. -/
theorem applyAll_eq_of_groups_absent
    (absent : ∀ template ∈ templates, ¬ Occurs "activeGroups" template.2.toList)
    (groups others : List String)
    (row : Row) :
    Template.applyAll templates groups row = Template.applyAll templates others row := by
  induction templates generalizing row with
  | nil => rfl
  | cons template rest inductionHypothesis =>
    have sameText :=
      expand_eq_of_groups_absent (absent template List.mem_cons_self) row groups others
    rw [Template.applyAll, Template.applyAll, List.foldl_cons, List.foldl_cons, sameText]
    exact inductionHypothesis (fun other listed => absent other (List.mem_cons_of_mem _ listed)) _

/-- Rows of the same content have the same content when the templates are written. -/
theorem content_applyAll_congr
    (same : left.content = right.content)
    (groups : List String) :
    (Template.applyAll templates groups left).content =
      (Template.applyAll templates groups right).content := by
  have agree : AgreeOutside [] left right := fun field _ => OrderedMap.content_eq_iff.1 same field
  have independent :
      ∀ template ∈ templates, ∀ field ∈ [], ¬ Occurs field template.2.toList := by
    simp
  have applied := agree.applyAll independent groups
  exact OrderedMap.content_eq_iff.2 fun field => applied field List.not_mem_nil

/-- Templates leave the fields alone that they do not produce. -/
theorem get?_applyAll_of_not_mem
    {field : String}
    (foreign : field ∉ Entries.keys templates)
    (groups : List String)
    (row : Row) :
    (Template.applyAll templates groups row).get? field = row.get? field := by
  induction templates generalizing row with
  | nil => rfl
  | cons template rest inductionHypothesis =>
    rcases not_or.1 (mt List.mem_cons.2 foreign) with ⟨other, later⟩
    refine (inductionHypothesis later _).trans ?_
    rw [OrderedMap.get?_insert, if_neg (Ne.symm other)]

end Applied

end Assortment.Template
