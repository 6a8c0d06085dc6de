import TypedObject.Schema.Basic

/-!
# The text of a schema

A one-line description for people: registered names where there are any, `[n]` and `[]` before
the element of an array or slice, `*` before the target of a reference, and the fields of a
struct between braces.
-/

namespace TypedObject.Schema

mutual

def text : Schema → String
  | scalar kind name => name.getD kind.name
  | array _ length elem => "[" ++ toString length ++ "]" ++ elem.text
  | slice _ elem => "[]" ++ elem.text
  | struct name fields =>
    name.getD "struct" ++ " \x7b" ++ String.intercalate ";" (fieldTexts fields)
      ++ (if fields.isEmpty then "\x7d" else " \x7d")
  | reference .single target => "*" ++ target.text
  | reference .slice target => "[]*" ++ target.text
  | reference .dynamic _ | openReference _ => "dynamic"
  | placeholder _ name => name

/-- What stands between the semicolons for each field. -/
def fieldTexts : List Field → List String
  | [] => []
  | ⟨name, _, schema⟩ :: fields => (" " ++ name ++ " " ++ schema.text) :: fieldTexts fields

end

end TypedObject.Schema
