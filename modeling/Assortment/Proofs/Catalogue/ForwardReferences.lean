import Assortment.Proofs.Catalogue.Loading
import Assortment.Proofs.Document.ForwardReferences
import Assortment.Proofs.Template.Names

/-!
# Templates that do not refer forward

When a document is reviewed, the names that a scan finds in a template are compared with the outputs
of the later ones; when the template is expanded, the placeholders of all fields of a row are looked
for.  For plain names the two come to the same: where no forward reference is warned about, no
placeholder of a later output occurs in a template.  What a template writes is then settled by the
fields that no later template produces, also through the outputs of the templates before it.

A name that is empty or has a brace in it is found by the expansion and not by the scan.  So the
outputs with such names must be kept out of the texts by other means, and where they are not, a
template can depend on a later output without any warning.
-/

namespace Assortment

namespace Method

/-- No name that the scan of a template finds is the output of a later template. -/
def RefersBackward (method : Method) : Prop :=
  method.templates.entries.Pairwise fun earlier later =>
    later.1 ∉ Placeholder.names earlier.2

/-- An output that is not plain does not occur in any of some templates. -/
def KeepsOut (templates : List (String × String)) (output : String) : Prop :=
  ∀ template ∈ templates, ¬ Placeholder.Occurs output template.2.toList

instance (templates : List (String × String)) (output : String) :
    Decidable (KeepsOut templates output) :=
  inferInstanceAs (Decidable (∀ template ∈ templates, _))

variable
    {method : Method}
    {before after : List (String × String)}
    {field text : String}

/-- Later outputs do not occur in the templates up to a place, whatever their names are. -/
theorem RefersBackward.keepsOut
    (backward : method.RefersBackward)
    (split : method.templates.entries = before ++ (field, text) :: after)
    {output : String}
    (later : output ∈ Entries.keys after)
    (plain : Placeholder.IsPlain output ∨ KeepsOut (before ++ [(field, text)]) output) :
    KeepsOut (before ++ [(field, text)]) output := by
  rcases plain with plain | kept
  · intro template listed occurs
    rcases List.mem_map.1 later with ⟨producer, inAfter, rfl⟩
    rw [RefersBackward, split, List.append_cons] at backward
    exact (List.pairwise_append.1 backward).2.2 template listed producer inAfter
      (Placeholder.mem_names_of_occurs plain occurs)
  · exact kept

/-- The text that a template writes is the expansion in the row as the earlier ones left it. -/
theorem get?_applyAll_of_split
    (split : method.templates.entries = before ++ (field, text) :: after)
    (groups : List String)
    (row : Row) :
    (Template.applyAll method.templates.entries groups row).get? field =
      some (.string (Template.expand text (Template.applyAll before groups row) groups)) := by
  have distinct := method.templates.distinct
  rw [split, Entries.keys_append, Entries.keys_cons] at distinct
  have notLater : field ∉ Entries.keys after :=
    (List.nodup_cons.1 (List.nodup_append.1 distinct).2.1).1
  rw [split, Template.applyAll_append]
  refine (Template.get?_applyAll_of_not_mem notLater groups _).trans ?_
  rw [OrderedMap.get?_insert, if_pos rfl]

end Method

namespace Catalogue

variable
    {value : Value}
    {catalogue : Catalogue}
    {warnings : List Issue}
    {document : Document}
    {name : String}
    {method : Method}

/-- A method that loads without such warnings has templates that only refer backward. -/
theorem refersBackward_of_silent
    (loaded : load value = .ok (catalogue, warnings))
    (read : Document.ofValue? value = some document)
    (silent : ∀ warning ∈ document.forwardWarnings name, warning ∉ warnings)
    (registered : catalogue.get? name = some method) :
    method.RefersBackward := by
  rcases exists_written_of_load loaded read registered with ⟨rfl, written, listed, rfl⟩
  exact List.pairwise_map.2 (Document.pairwise_of_silent listed silent)

/--
A template of a method without warnings about forward references writes the same text into rows that
agree outside the outputs of later templates, as long as those outputs whose names are not plain
occur neither in the template nor in an earlier one.
-/
theorem text_independent_of_later_outputs
    (loaded : load value = .ok (catalogue, warnings))
    (read : Document.ofValue? value = some document)
    (silent : ∀ warning ∈ document.forwardWarnings name, warning ∉ warnings)
    (registered : catalogue.get? name = some method)
    {before after : List (String × String)}
    {field text : String}
    (split : method.templates.entries = before ++ (field, text) :: after)
    (plain :
      ∀ output ∈ Entries.keys after,
        Placeholder.IsPlain output ∨ Method.KeepsOut (before ++ [(field, text)]) output)
    {left right : Row}
    (agree : Template.AgreeOutside (Entries.keys after) left right)
    (groups : List String) :
    ∃ written,
      (Template.applyAll method.templates.entries groups left).get? field =
          some (.string written) ∧
        (Template.applyAll method.templates.entries groups right).get? field =
          some (.string written) := by
  have backward := refersBackward_of_silent loaded read silent registered
  have keptOut (template : String × String) (listed : template ∈ before ++ [(field, text)])
      (output : String) (later : output ∈ Entries.keys after) :
      ¬ Placeholder.Occurs output template.2.toList :=
    backward.keepsOut split later (plain output later) template listed
  -- The earlier templates keep the rows in agreement, so the template finds the same names.
  have agreeBefore :=
    agree.applyAll (fun template listed => keptOut template (List.mem_append_left _ listed)) groups
  have sameText :=
    agreeBefore.expand_eq
      (keptOut (field, text) (List.mem_append_right _ List.mem_cons_self)) groups
  rw [Method.get?_applyAll_of_split split, Method.get?_applyAll_of_split split, ← sameText]
  exact ⟨_, rfl, rfl⟩

/-- A method with two templates, behind which a field without a name and a note are produced. -/
def parcelDocument : Value :=
  .object
    [("config_version", .string "0.1"),
      ("methods", .object
        [("parcel", .object
          [("templates", .object
            [("label", .string "<\x7bcode\x7d>"), ("summary", .string "\x7blabel\x7d!"),
              ("", .string "\x7bsummary\x7d"), ("note", .string "\x7b\x7d")])])])]

/-- A method whose templates build on each other, the last but one with an output without a name. -/
def parcelMethod : Method :=
  (((Method.empty.withTemplate "label" "<\x7bcode\x7d>").withTemplate
    "summary" "\x7blabel\x7d!").withTemplate "" "\x7bsummary\x7d").withTemplate
    "note" "\x7b\x7d"

/-- The templates that stand behind the summary. -/
def parcelLater : List (String × String) :=
  [("", "\x7bsummary\x7d"), ("note", "\x7b\x7d")]

/-- A row that already has a note, which the last template overwrites. -/
def parcelRow : Row where
  entries := [("code", .int 7), ("note", .string "old")]

/-- A row with a value under the other one of the later outputs. -/
def otherParcelRow : Row where
  entries := [("", .null), ("code", .int 7)]

/-- Two rows that differ only in a later field get the same summary from the templates. -/
theorem parcel_text_independent :
    ∃ catalogue document written,
      load parcelDocument = .ok (catalogue, []) ∧
        Document.ofValue? parcelDocument = some document ∧
        (∀ warning ∈ document.forwardWarnings "parcel", warning ∉ []) ∧
        catalogue.get? "parcel" = some parcelMethod ∧
        parcelMethod.templates.entries =
          [("label", "<\x7bcode\x7d>")] ++ ("summary", "\x7blabel\x7d!") :: parcelLater ∧
        Template.AgreeOutside (Entries.keys parcelLater) parcelRow otherParcelRow ∧
        (Template.applyAll parcelMethod.templates.entries [] parcelRow).get? "summary" =
          some (.string written) ∧
        (Template.applyAll parcelMethod.templates.entries [] otherParcelRow).get? "summary" =
          some (.string written) := by
  have split :
      parcelMethod.templates.entries =
        [("label", "<\x7bcode\x7d>")] ++ ("summary", "\x7blabel\x7d!") :: parcelLater := by
    decide +kernel
  have plain :
      ∀ output ∈ Entries.keys parcelLater,
        Placeholder.IsPlain output ∨
          Method.KeepsOut
            ([("label", "<\x7bcode\x7d>")] ++ [("summary", "\x7blabel\x7d!")]) output := by
    decide +kernel
  have agree : Template.AgreeOutside (Entries.keys parcelLater) parcelRow otherParcelRow := by
    intro field unlisted
    rcases not_or.1 (mt List.mem_cons.2 unlisted) with ⟨named, others⟩
    have noNote : field ≠ "note" := by simpa using others
    simp [parcelRow, otherParcelRow, OrderedMap.get?, Entries.get?, Ne.symm named, Ne.symm noNote]
  have loads :
      ((load parcelDocument).toOption.bind fun loaded =>
        (loaded.1.get? "parcel").map fun held => (loaded.2, held)) = some ([], parcelMethod) := by
    decide +kernel
  rcases exists_loaded_of_eq loads with ⟨catalogue, document, loaded, read, registered⟩
  have silent : ∀ warning ∈ document.forwardWarnings "parcel", warning ∉ [] := by simp
  rcases text_independent_of_later_outputs loaded read silent registered split plain agree []
    with ⟨written, left, right⟩
  exact ⟨catalogue, document, written, loaded, read, silent, registered, split, agree, left, right⟩

/-- A method with a template that refers to the output of a later one, which has no name. -/
def namelessDocument : Value :=
  .object
    [("config_version", .string "0.1"),
      ("methods", .object
        [("tag", .object
          [("templates", .object
            [("label", .string "\x7b\x7d"), ("", .string "x")])])])]

/-- A method whose first template has empty braces, and whose second one writes under no name. -/
def namelessMethod : Method :=
  (Method.empty.withTemplate "label" "\x7b\x7d").withTemplate "" "x"

/-- A row that holds something under the empty name. -/
def namelessRow : Row where
  entries := [("code", .int 1), ("", .string "v")]

/-- The same row without the empty name. -/
def otherNamelessRow : Row where
  entries := [("code", .int 1)]

/-- A later output without a name is referred to without a warning, and what it holds shows. -/
theorem nameless_output_not_warned_about :
    ∃ catalogue document,
      load namelessDocument = .ok (catalogue, []) ∧
        Document.ofValue? namelessDocument = some document ∧
        (∀ warning ∈ document.forwardWarnings "tag", warning ∉ []) ∧
        catalogue.get? "tag" = some namelessMethod ∧
        namelessMethod.templates.entries = [] ++ ("label", "\x7b\x7d") :: [("", "x")] ∧
        Template.AgreeOutside (Entries.keys [("", "x")]) namelessRow otherNamelessRow ∧
        (Template.applyAll namelessMethod.templates.entries [] namelessRow).get? "label" ≠
          (Template.applyAll namelessMethod.templates.entries [] otherNamelessRow).get?
            "label" := by
  have agree :
      Template.AgreeOutside (Entries.keys [("", "x")]) namelessRow otherNamelessRow := by
    intro field unlisted
    have named : field ≠ "" := by simpa using unlisted
    simp [namelessRow, otherNamelessRow, OrderedMap.get?, Entries.get?, Ne.symm named]
  have loads :
      ((load namelessDocument).toOption.bind fun loaded =>
        (loaded.1.get? "tag").map fun held => (loaded.2, held)) = some ([], namelessMethod) := by
    decide +kernel
  rcases exists_loaded_of_eq loads with ⟨catalogue, document, loaded, read, registered⟩
  exact ⟨catalogue, document, loaded, read, by simp, registered, by decide +kernel, agree,
    by decide +kernel⟩

end Catalogue

end Assortment
