import Assortment.Method

/-!
# Catalogues

A catalogue holds methods by name, together with the warnings that were raised when its document
was reviewed.  Catalogues built in code have no warnings.
-/

namespace Assortment

/-- Methods by name, and the warnings about the document they come from. -/
structure Catalogue where
  methods : NameTable Method
  warnings : List Issue
  deriving DecidableEq

namespace Catalogue

/-- The catalogue before anything is registered. -/
def empty : Catalogue := ⟨.empty, []⟩

/-- Register a method under a name, replacing the one that is there. -/
def register (catalogue : Catalogue) (name : String) (method : Method) : Catalogue :=
  { catalogue with methods := catalogue.methods.insert name method }

/-- The method that is registered under a name. -/
def get? (catalogue : Catalogue) (name : String) : Option Method :=
  catalogue.methods.get? name

/-- Whether a method is registered under a name. -/
def contains (catalogue : Catalogue) (name : String) : Bool :=
  catalogue.methods.contains name

/-- The registered names in ascending order. -/
def names (catalogue : Catalogue) : List String :=
  catalogue.methods.names

def size (catalogue : Catalogue) : Nat :=
  catalogue.methods.size

def isEmpty (catalogue : Catalogue) : Bool :=
  catalogue.methods.isEmpty

/-- Register written methods in turn; the first one that cannot be resolved ends it. -/
def registerAll : Catalogue → List (String × WrittenMethod) → Except LoadError Catalogue
  | catalogue, [] => .ok catalogue
  | catalogue, (name, written) :: rest =>
    match Method.ofWritten name written with
    | .ok method => registerAll (catalogue.register name method) rest
    | .error cause => .error cause

/-- Resolve the methods of a document without reviewing it. -/
def ofDocument (document : Document) : Except LoadError Catalogue :=
  registerAll empty document.methods.entries

/-- Whether two catalogues hold the same methods under the same names and have the same
warnings. -/
def same (left right : Catalogue) : Bool :=
  left.names == right.names &&
    (left.methods.entries.zip right.methods.entries).all
      (fun pair => pair.1.2.same pair.2.2) &&
    left.warnings == right.warnings

/-- The methods that are always at hand: drills and pins. -/
def standard : Catalogue :=
  (empty.register "drill"
    (((((Method.empty.withRules "name" "required").withRules "fn" "required|integer").withRules
      "nf" "required|val[left,right]").withDefault "nf" (.string "left")).withTemplate
      "name" "Drill: \x7bname\x7d (\x7bnf\x7d)")).register "pin"
    ((((((Method.empty.withRules "id" "required|natural_no_zero").withRules
      "code" "required|numeric|min[1000]|max[9999]").withRules "mode" "required").withDefault
      "mode" (.string "active")).withTemplate
      "custom_label" "Pin \x7bmode\x7d - groups: \x7bactiveGroups\x7d").withTemplate
      "description" "Object ID: \x7bid\x7d with code \x7bcode\x7d")

end Catalogue

end Assortment
