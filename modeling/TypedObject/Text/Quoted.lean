import TypedObject.Text.Hidden

/-!
# Quoted text

How messages show a text or a character between quotes: the quote itself, the backslash and the
common control characters get a backslash escape, hidden characters are written as their code
point in hexadecimal, and everything else stands as it is.
-/

namespace TypedObject.Text

/-- The code point of a character as lower-case hexadecimal digits without leading zeros. -/
def codeDigits (character : Char) : String :=
  String.ofList (Nat.toDigits 16 character.toNat)

def escape (quote character : Char) : String :=
  if character = '\x00' then "\\0"
  else if character = '\t' then "\\t"
  else if character = '\r' then "\\r"
  else if character = '\n' then "\\n"
  else if character = '\\' then "\\\\"
  else if character = quote then "\\" ++ String.singleton character
  else if isHidden character then "\\u\x7b" ++ codeDigits character ++ "\x7d"
  else String.singleton character

def quoted (text : String) : String :=
  "\"" ++ String.join (text.toList.map (escape '"')) ++ "\""

def quotedChar (character : Char) : String :=
  "'" ++ escape '\'' character ++ "'"

end TypedObject.Text
