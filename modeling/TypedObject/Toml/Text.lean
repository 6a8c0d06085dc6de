import TypedObject.Toml.Scanner

/-!
# Strings

A string stands between double quotes, where a backslash begins an escape, or between single
quotes, where every character stands for itself.  Between three quotes it may go over several
lines: a line break at its very beginning does not count, and every line break counts as one line
feed.
-/

namespace TypedObject.Toml.Text

open Scanner

def hexDigit? (character : Char) : Option Nat :=
  if character.isDigit then some (character.toNat - 48)
  else if 'a' ≤ character ∧ character ≤ 'f' then some (character.toNat - 87)
  else if 'A' ≤ character ∧ character ≤ 'F' then some (character.toNat - 55)
  else none

def codePoint : (digits : Nat) → (high : Nat) → Scanner Char
  | 0, code => if code.isValidChar then return Char.ofNat code else failure
  | digits + 1, high => do
    match hexDigit? (← next) with
    | some low => codePoint digits (16 * high + low)
    | none => failure

def escaped : Scanner Char := do
  match ← next with
  | 'b' => return '\x08'
  | 't' => return '\t'
  | 'n' => return '\n'
  | 'f' => return '\x0c'
  | 'r' => return '\r'
  | '"' => return '"'
  | '\\' => return '\\'
  | 'u' => codePoint 4 0
  | 'U' => codePoint 8 0
  | _ => failure

/-- Takes what comes after the opening quote on one line. -/
def line (quote : Char) (hasEscapes : Bool) : Scanner (List Char) :=
  collect do
    let character ← next
    if character = quote then return none
    if hasEscapes && character = '\\' then
      return some (← escaped)
    guard (isPlain character)
    return some character

/-- Takes the line break that a backslash takes away, with the blanks and line breaks around it,
if one comes next. -/
def joint? : Scanner Bool :=
  (do blanks
      guard (← newline?)
      blankLines
      return true) <|> return false

/-- Takes the end of a string of several lines: three quotes, after up to two that belong to the
string. -/
def closing (quote : Char) : Scanner (List Char) := do
  let run ← takeWhile (· = quote)
  guard (3 ≤ run.length ∧ run.length ≤ 5)
  return run.drop 3

def piece? (quote : Char) (hasEscapes : Bool) : Scanner (Option (List Char)) := do
  let run := (← get).takeWhile (· = quote)
  if 3 ≤ run.length then return none
  if !run.isEmpty then
    return some (← takeWhile (· = quote))
  if ← newline? then return some ['\n']
  let character ← next
  guard (isPlain character)
  if hasEscapes && character = '\\' then
    if ← joint? then return some []
    return some [← escaped]
  return some [character]

def lines (quote : Char) (hasEscapes : Bool) : Scanner (List Char) := do
  discard newline?
  let pieces ← collect (piece? quote hasEscapes)
  return pieces.flatten ++ (← closing quote)

def short (quote : Char) : Scanner String := do
  skip quote
  return String.ofList (← line quote (quote = '"'))

def any (quote : Char) : Scanner String := do
  if ← skip? [quote, quote, quote] then
    return String.ofList (← lines quote (quote = '"'))
  short quote

end TypedObject.Toml.Text
