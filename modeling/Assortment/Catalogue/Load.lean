import Assortment.Catalogue.Basic
import Assortment.Document.Codec
import Assortment.Document.Findings
import Assortment.Document.Shape
import Assortment.Json.Parser
import Assortment.Toml.Parser

/-!
# Loading catalogues

A value is loaded in four steps: its shape is checked, it is read as a document, the document is
reviewed, and its methods are resolved.  The first step that finds an error ends the loading, with
the review that holds the error.  A value of the right shape can always be read and, when its
review has no errors, always be resolved; the two cases that say otherwise are there because the
steps are functions of their own.

The warnings of the review come with the catalogue.  Texts and files are loaded by way of the value
that they denote.
-/

namespace Assortment

namespace Catalogue

/-- A review whose only issue is the given error, as for a document that cannot be read at all. -/
def soleError (code path message : String) : Review :=
  .ofIssues [{ severity := .error, code := code, path := path, message := message }]

/-- The review of a document whose methods cannot be resolved. -/
def unresolved : LoadError → Review
  | .templateNotText method field =>
    soleError "invalid_method" ("/methods/" ++ method ++ "/templates/" ++ field)
      (((LoadError.templateNotText method field).message?).getD "")
  | cause => soleError "invalid_method" "/methods" (cause.message?.getD "")

/-- Load a catalogue from a value, with the warnings beside it. -/
def load (value : Value) : Except Review (Catalogue × List Issue) :=
  let shape := Document.reviewShape value
  if shape.isOk then
    match Document.ofValue? value with
    | none =>
      .error (soleError "invalid_methods_json" "/" "the value is not a methods document")
    | some document =>
      let review := document.review
      if review.isOk then
        match ofDocument document with
        | .ok catalogue => .ok (catalogue, review.warnings)
        | .error cause => .error (unresolved cause)
      else
        .error review
  else
    .error shape

/-- Load a catalogue from a value, with the warnings in it. -/
def ofValue (value : Value) : Except LoadError Catalogue :=
  match load value with
  | .ok (catalogue, warnings) => .ok { catalogue with warnings := warnings }
  | .error review => .error (.invalid review)

/-- Load a catalogue from JSON text; text that is not JSON is the first thing that can fail. -/
def ofJson (text : String) : Except LoadError Catalogue :=
  match Json.parse? text with
  | some value => ofValue value
  | none => .error .malformedJson

/-- Load a catalogue from TOML text; text that is not TOML is the first thing that can fail. -/
def ofToml (text : String) : Except LoadError Catalogue :=
  match Toml.parse? text with
  | some value => ofValue value
  | none => .error .malformedToml

/--
What follows the last point of a file name.  A name without a point has no extension, and neither
has one whose only point is its first character.
-/
def extension? (name : String) : Option String :=
  match Text.cut '.' name.toList.reverse with
  | some (_, []) => none
  | some (extension, _) => some (String.ofList extension.reverse)
  | none => none

/-- Load a catalogue from a file of a name, given its contents if it can be read. -/
def ofFile (name : String) : Option String → Except LoadError Catalogue
  | none => .error .unreadableFile
  | some contents =>
    match extension? name with
    | some "toml" => ofToml contents
    | some "json" => ofJson contents
    | other => .error (.unsupportedFormat (other.getD ""))

example : extension? "m.tar.toml" = some "toml" := by decide +kernel

example : extension? ".toml" = none := by decide +kernel

example : extension? "m." = some "" := by decide +kernel

end Catalogue

end Assortment
