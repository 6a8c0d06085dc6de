/-!
# Written strings

A string is written in the first of these ways that can hold it: as it is between double quotes,
as it is between single quotes, the same two ways over several lines, and with escapes between
double quotes.
-/

namespace TypedObject.Toml.Written

/-- The ways to write a string. -/
inductive Style where
  | plain
  | literal
  | plainLines
  | literalLines
  | escaped
  | escapedLines
  deriving DecidableEq, Repr

def isControl (character : Char) : Bool :=
  (character.toNat < 0x20 && character ≠ '\t' && character ≠ '\n') || character.toNat = 0x7F

/-- The length of the longest run of a character in a text. -/
def longestRun (wanted : Char) (text : List Char) : Nat :=
  (text.foldl (fun (longest, current) character =>
    let current := if character = wanted then current + 1 else 0
    (max longest current, current)) (0, 0)).1

def style (text : List Char) : Style :=
  let hasControl := text.any isControl
  let hasLines := text.contains '\n'
  let hasBackslash := text.contains '\\'
  let doubles := longestRun '"' text
  let singles := longestRun '\'' text
  if !hasControl && !hasBackslash && doubles = 0 && !hasLines then .plain
  else if !hasControl && singles = 0 && !hasLines then .literal
  else if !hasControl && !hasBackslash && doubles < 3 then .plainLines
  else if !hasControl && singles < 3 then .literalLines
  else if hasLines then .escapedLines
  else .escaped

def fourDigits (code : Nat) : String :=
  let digits := (Nat.toDigits 16 code).map Char.toUpper
  String.ofList (List.replicate (4 - digits.length) '0' ++ digits)

def escape (keepsLines : Bool) (character : Char) : String :=
  match character with
  | '\x08' => "\\b"
  | '\t' => "\\t"
  | '\n' => if keepsLines then "\n" else "\\n"
  | '\x0c' => "\\f"
  | '\r' => "\\r"
  | '\\' => "\\\\"
  | _ =>
    if isControl character then "\\u" ++ fourDigits character.toNat
    else String.singleton character

/-- The characters between double quotes, where so many double quotes may stand in a row. -/
def escapeAll (keepsLines : Bool) (allowed : Nat) : (row : Nat) → List Char → List Char
  | _, [] => []
  | row, '"' :: text =>
    if row < allowed then '"' :: escapeAll keepsLines allowed (row + 1) text
    else '\\' :: '"' :: escapeAll keepsLines allowed 0 text
  | _, character :: text =>
    (escape keepsLines character).toList ++ escapeAll keepsLines allowed 0 text

def string (text : String) : String :=
  let characters := text.toList
  let lineBreak := if characters.contains '\n' then "\n" else ""
  match style characters with
  | .plain | .escaped => "\"" ++ String.ofList (escapeAll false 0 0 characters) ++ "\""
  | .literal => "'" ++ text ++ "'"
  | .plainLines | .escapedLines =>
    "\"\"\"" ++ lineBreak ++ String.ofList (escapeAll true 2 0 characters) ++ "\"\"\""
  | .literalLines => "'''" ++ lineBreak ++ text ++ "'''"

end TypedObject.Toml.Written
