import TypedObject.Toml.Moment
import TypedObject.Toml.Number
import TypedObject.Toml.Table
import TypedObject.Toml.Text

/-!
# Documents

A document is a list of lines.  A line has a key with its value, or a header, under which the
keys up to the next header stand.
-/

namespace TypedObject.Toml

open Scanner

/-- What a line says. -/
inductive Line where
  | entry (path : List String) (value : Value)
  | header (path : List String)
  | item (path : List String)

namespace Document

/-- Tables and arrays are nested up to this level, and keys have up to this many parts. -/
def maximalDepth : Nat := 79

def isKeyCharacter (character : Char) : Bool :=
  character.isAlphanum || character = '_' || character = '-'

def isWordCharacter (character : Char) : Bool :=
  isKeyCharacter character || character = '+' || character = '.' || character = ':'

def simpleKey : Scanner String := do
  match ← peek? with
  | some '"' => Text.short '"'
  | some '\'' => Text.short '\''
  | _ =>
    let name ← takeWhile isKeyCharacter
    guard !name.isEmpty
    return String.ofList name

def keyPart : Scanner String := do
  blanks
  let name ← simpleKey
  blanks
  return name

def key : Scanner (List String) := do
  let first ← keyPart
  let others ← collect do
    if ← skip? ['.'] then
      return some (← keyPart)
    return none
  guard (others.length < maximalDepth)
  return first :: others

def word? (word : List Char) : Option Value :=
  if word = ['t', 'r', 'u', 'e'] then some (.boolean true)
  else if word = ['f', 'a', 'l', 's', 'e'] then some (.boolean false)
  else if Moment.isMoment word then some .moment
  else if Number.isFloat word then some .float
  else (Number.integer? word).map .integer

/-- Whether a time of day follows after a blank. -/
def isTimeAhead : List Char → Bool
  | ' ' :: tens :: ones :: ':' :: _ => tens.isDigit && ones.isDigit
  | _ => false

def scalar : Scanner Value := do
  match ← peek? with
  | some '"' => return .string (← Text.any '"')
  | some '\'' => return .string (← Text.any '\'')
  | _ =>
    let word ← takeWhile isWordCharacter
    if Moment.isDate word && isTimeAhead (← get) then
      skip ' '
      guard (Moment.isZonedTime (← takeWhile isWordCharacter))
      return .moment
    word? word

/-- Takes an array, whose items may stand on lines of their own. -/
def array (item : Scanner Value) : Scanner Value := do
  skip '['
  let items ← collect do
    gap
    if (← peek?) = some ']' then return none
    let value ← item
    gap
    unless ← skip? [','] do
      guard ((← peek?) = some ']')
    return some value
  skip ']'
  return .array items

def entry (item : Scanner Value) : Scanner (List String × Value) := do
  let path ← key
  skip '='
  blanks
  let value ← item
  blanks
  return (path, value)

/-- Takes a table between braces, which stands on one line. -/
def inlineTable (item : Scanner Value) : Scanner Value := do
  skip '\x7b'
  blanks
  if ← skip? ['\x7d'] then return .table .inline []
  let first ← entry item
  let others ← collect do
    if ← skip? [','] then
      return some (← entry item)
    return none
  skip '\x7d'
  return .table .inline (← addAll (first :: others) [])

def value : (levels : Nat) → Scanner Value
  | 0 => scalar
  | levels + 1 => do
    match ← peek? with
    | some '[' => array (value levels)
    | some '\x7b' => inlineTable (value levels)
    | _ => scalar

def statement : Scanner Line := do
  if ← skip? ['[', '['] then
    let path ← key
    guard (← skip? [']', ']'])
    return .item path
  if ← skip? ['['] then
    let path ← key
    skip ']'
    return .header path
  let (path, value) ← entry (value maximalDepth)
  return .entry path value

/-- Takes a line, unless the text is at its end.  The line may be empty. -/
def line? : Scanner (Option (List Line)) := do
  if (← peek?).isNone then return none
  blanks
  let before ← get
  let isEmpty := match before with
    | [] | '#' :: _ | '\n' :: _ | '\r' :: _ => true
    | _ => false
  let said ← if isEmpty then pure [] else (do return [← statement])
  lineEnd
  return some said

/-- The lines of a text, which may begin with a byte order mark. -/
def lines : Scanner (List Line) := do
  discard (skip? ['\uFEFF'])
  return (← collect line?).flatten

/-- The keys with their values before the next header, and the lines from there on. -/
def body : List Line → List (List String × Value) × List Line
  | .entry path value :: lines =>
    let (pairs, rest) := body lines
    ((path, value) :: pairs, rest)
  | lines => ([], lines)

theorem length_body_le (lines : List Line) : (body lines).2.length ≤ lines.length := by
  fun_induction body lines with
  | case1 path value lines pairs rest equation induction =>
      rw [equation] at induction
      simp only [List.length_cons]
      exact Nat.le_succ_of_le induction
  | case2 => exact Nat.le_refl _

def addSections (lines : List Line) (root : Entries) : Option Entries :=
  match lines with
  | [] => some root
  | .entry .. :: _ => none
  | .header path :: lines => do
    let root ← alter (section? (body lines).1) path root
    addSections (body lines).2 root
  | .item path :: lines => do
    let root ← alter (sections? (body lines).1) path root
    addSections (body lines).2 root
termination_by lines.length
decreasing_by
  all_goals
    have := length_body_le lines
    simp only [List.length_cons]
    omega

/-- The entries of the table that a text defines. -/
def parse? (text : String) : Option Entries := do
  let (lines, _) ← lines.run text.toList
  let (pairs, rest) := body lines
  addSections rest (← addAll pairs [])

end Document

end TypedObject.Toml
