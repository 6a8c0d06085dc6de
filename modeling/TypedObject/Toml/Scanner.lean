/-!
# Scanning text

A scanner takes characters from the front of a text and fails when they are not what it wants.
-/

namespace TypedObject.Toml

/-- Takes characters from the front of a text, or fails. -/
abbrev Scanner := StateT (List Char) Option

namespace Scanner

def peek? : Scanner (Option Char) := fun text => some (text.head?, text)

def next : Scanner Char
  | [] => none
  | character :: rest => some (character, rest)

/-- Takes some characters if they come next, and says whether they did. -/
def skip? (wanted : List Char) : Scanner Bool := fun text =>
  if wanted.isPrefixOf text then some (true, text.drop wanted.length) else some (false, text)

def skip (wanted : Char) : Scanner Unit := do
  let found ← next
  guard (found = wanted)

def takeWhile (test : Char → Bool) : Scanner (List Char) := fun text =>
  some (text.takeWhile test, text.dropWhile test)

def collectIn {α : Type} (item? : Scanner (Option α)) : (bound : List Char) → Scanner (List α)
  | [] => do
    guard (← item?).isNone
    return []
  | _ :: bound => do
    match ← item? with
    | none => return []
    | some item => return item :: (← collectIn item? bound)

/-- Takes items until there is none.  Every item takes a character, so that there are no more
items than characters. -/
def collect {α : Type} (item? : Scanner (Option α)) : Scanner (List α) := fun text =>
  collectIn item? text text

def isBlank (character : Char) : Bool := character = ' ' || character = '\t'

/-- A character that may stand in a comment or, but for its own marks, in a string. -/
def isPlain (character : Char) : Bool :=
  character = '\t' || (0x20 ≤ character.toNat && character.toNat ≠ 0x7F)

def blanks : Scanner Unit := discard (takeWhile isBlank)

def newline? : Scanner Bool := do
  if ← skip? ['\n'] then return true
  skip? ['\r', '\n']

def comment : Scanner Unit := do
  if ← skip? ['#'] then discard (takeWhile isPlain)

def lineEnd : Scanner Unit := do
  blanks
  comment
  unless ← newline? do
    guard ((← peek?) = none)

def blankLines : Scanner Unit := discard (collect do
  blanks
  return if ← newline? then some () else none)

def gap : Scanner Unit := discard (collect do
  blanks
  comment
  return if ← newline? then some () else none)

end Scanner

end TypedObject.Toml
