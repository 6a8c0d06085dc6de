/-!
# JSON text

The JSON that reports are written in.  Objects keep the order of their fields.  Text is either
compact or spread over lines with two spaces for each level.
-/

namespace TypedObject

/-- A JSON value whose numbers are whole. -/
inductive Json where
  | null
  | bool (value : Bool)
  | number (value : Int)
  | string (value : String)
  | array (items : List Json)
  | object (fields : List (String × Json))

namespace Json

def escape (character : Char) : String :=
  match character with
  | '"' => "\\\""
  | '\\' => "\\\\"
  | '\n' => "\\n"
  | '\r' => "\\r"
  | '\t' => "\\t"
  | '\x08' => "\\b"
  | '\x0c' => "\\f"
  | _ =>
    if character.toNat < 0x10 then "\\u000" ++ String.ofList (Nat.toDigits 16 character.toNat)
    else if character.toNat < 0x20 then "\\u00" ++ String.ofList (Nat.toDigits 16 character.toNat)
    else String.singleton character

def quoted (text : String) : String :=
  "\"" ++ String.join (text.toList.map escape) ++ "\""

def atom : Json → String
  | null => "null"
  | bool value => if value then "true" else "false"
  | number value => toString value
  | string value => quoted value
  | array _ => "[]"
  | object _ => "\x7b\x7d"

mutual

/-- The text without blanks. -/
def compact : Json → String
  | array items => "[" ++ String.intercalate "," (compactItems items) ++ "]"
  | object fields => "\x7b" ++ String.intercalate "," (compactFields fields) ++ "\x7d"
  | value => value.atom

def compactItems : List Json → List String
  | [] => []
  | item :: items => item.compact :: compactItems items

def compactFields : List (String × Json) → List String
  | [] => []
  | (name, value) :: fields => (quoted name ++ ":" ++ value.compact) :: compactFields fields

end

def lineStart (level : Nat) : String := "\n" ++ String.ofList (List.replicate (2 * level) ' ')

def block (opening closing : String) (level : Nat) (parts : List String) : String :=
  opening ++ String.intercalate "," (parts.map (lineStart (level + 1) ++ ·))
    ++ lineStart level ++ closing

mutual

/-- The text on lines, for a value that begins at a level. -/
def prettyAt (level : Nat) : Json → String
  | array [] => "[]"
  | array (item :: items) =>
    block "[" "]" level (item.prettyAt (level + 1) :: prettyItems (level + 1) items)
  | object [] => "\x7b\x7d"
  | object ((name, value) :: fields) =>
    block "\x7b" "\x7d" level
      ((quoted name ++ ": " ++ value.prettyAt (level + 1)) :: prettyFields (level + 1) fields)
  | value => value.atom

def prettyItems (level : Nat) : List Json → List String
  | [] => []
  | item :: items => item.prettyAt level :: prettyItems level items

def prettyFields (level : Nat) : List (String × Json) → List String
  | [] => []
  | (name, value) :: fields =>
    (quoted name ++ ": " ++ value.prettyAt level) :: prettyFields level fields

end

def pretty (value : Json) : String := value.prettyAt 0

end Json

end TypedObject
