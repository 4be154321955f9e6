import Assortment.Issue

/-!
# Causes of failed loading

Loading a catalogue fails because a text is not JSON or not TOML, because a file cannot be read or
has a name that does not tell its format, because a template is not text, or because the document
does not pass its review.  The wording of the first three is left to whoever reads the text; the
others have one message each.
-/

namespace Assortment

/-- Why a catalogue could not be loaded. -/
inductive LoadError where
  | malformedJson
  | malformedToml
  | unreadableFile
  | unsupportedFormat (extension : String)
  | templateNotText (method field : String)
  | invalid (review : Review)
  deriving DecidableEq

/-- What is said about the cause, where there is a fixed wording. -/
def LoadError.message? : LoadError → Option String
  | malformedJson => none
  | malformedToml => none
  | unreadableFile => none
  | unsupportedFormat extension => some ("unsupported config format: " ++ extension)
  | templateNotText method field =>
    some ("template '" ++ field ++ "' of method '" ++ method ++ "' must be a string")
  | invalid review =>
    some ("invalid methods config (" ++ review.errors.length.repr ++ " errors)")

end Assortment
