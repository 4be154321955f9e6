import Assortment.Value.Basic

/-!
# The JSON Schema of methods documents

The shape of documents in the form in which it is published for editors and other tools.  It is
the schema against which `Document.violations` checks a value.
-/

namespace Assortment.Document.JsonSchema

/-- An object of the schema language with a type and further members. -/
def typed (name : String) (members : List (String × Value)) : Value :=
  .object (("type", .string name) :: members)

/-- The schema of texts. -/
def text : Value :=
  typed "string" []

/-- The schema that stands in the document under the given name. -/
def reference (name : String) : Value :=
  .object [("$ref", .string ("#/definitions/" ++ name))]

/-- An object whose members all have one schema, empty when it is left out. -/
def optionalMap (description : String) (item : Value) : Value :=
  typed "object"
    [("description", .string description), ("default", .object []),
      ("additionalProperties", item)]

/-- The schema of rules, which are a line or a list of segments. -/
def rules : Value :=
  .object
    [("description", .string "Rule list as written in configuration."),
      ("anyOf", .array [text, typed "array" [("items", text)]])]

/-- The schema of methods, which have no members but the declared ones. -/
def method : Value :=
  typed "object"
    [("description", .string "Serialized form of one method."),
      ("properties",
        .object
          [("rules",
              optionalMap
                "Field name to rules, either `required|integer` or a list of segments."
                (reference "RuleSource")),
            ("defaults",
              optionalMap "Values injected when a field is absent from the input."
                (.bool true)),
            ("templates",
              optionalMap "Output field to template string, expanded in declaration order."
                text)]),
      ("additionalProperties", .bool false)]

/-- The schema of documents, together with those that it refers to. -/
def document : Value :=
  typed "object"
    [("$schema", .string "http://json-schema.org/draft-07/schema#"),
      ("title", .string "MethodsDocument"),
      ("description",
        .string "Serialized form of a set of generation methods (`methods.toml`/`.json`)."),
      ("required", .array [.string "config_version", .string "methods"]),
      ("properties",
        .object
          [("config_version",
              typed "string"
                [("description", .string "Contract version for the methods document.")]),
            ("methods",
              typed "object"
                [("description", .string "Methods keyed by name."),
                  ("additionalProperties", reference "MethodDocument")])]),
      ("additionalProperties", .bool false),
      ("definitions", .object [("MethodDocument", method), ("RuleSource", rules)])]

end Assortment.Document.JsonSchema
