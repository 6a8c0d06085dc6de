/-!
# Numbers

Integers and floats as they are written.  Digits may be grouped by single underscores, and a
decimal integer part has no leading zeros.  Integers have 64 bits.  A float is checked and its
value is not kept.  Of a number that is too large only the beginning is read.
-/

namespace TypedObject.Toml.Number

/-- The digits of a group of digits, which single underscores may part. -/
def ungrouped? (isDigit : Char → Bool) : List Char → Option (List Char)
  | [] => none
  | digit :: rest =>
    if isDigit digit then
      match rest with
      | [] => some [digit]
      | '_' :: rest => (ungrouped? isDigit rest).map (digit :: ·)
      | rest => (ungrouped? isDigit rest).map (digit :: ·)
    else none

def decimal? (text : List Char) : Option (List Char) :=
  match ungrouped? Char.isDigit text with
  | some ['0'] => some ['0']
  | some ('0' :: _) => none
  | digits => digits

def digitValue (digit : Char) : Nat :=
  if digit.isDigit then digit.toNat - 48 else digit.toLower.toNat - 87

/-- The number that digits write in a base.  They are read until the number reaches a bound. -/
def ofDigits (base bound : Nat) (digits : List Char) : Nat :=
  digits.foldl (fun number digit =>
    if number < bound then base * number + digitValue digit else number) 0

def isDigitIn (base : Nat) (digit : Char) : Bool :=
  digit.isAlphanum && digitValue digit < base

def integerBound : Nat := 0x8000000000000001

def magnitude (base : Nat) (digits : List Char) : Int := ofDigits base integerBound digits

def unbounded? : List Char → Option Int
  | '0' :: 'x' :: digits => (ungrouped? (isDigitIn 16) digits).map (magnitude 16)
  | '0' :: 'o' :: digits => (ungrouped? (isDigitIn 8) digits).map (magnitude 8)
  | '0' :: 'b' :: digits => (ungrouped? (isDigitIn 2) digits).map (magnitude 2)
  | '-' :: digits => (decimal? digits).map fun digits => -magnitude 10 digits
  | '+' :: digits => (decimal? digits).map (magnitude 10)
  | digits => (decimal? digits).map (magnitude 10)

def integer? (text : List Char) : Option Int :=
  match unbounded? text with
  | some number =>
    if -0x8000000000000000 ≤ number ∧ number < 0x8000000000000000 then some number else none
  | none => none

/-- Half a step beyond the largest float of 64 bits.  The number has 309 places. -/
def floatBound : Nat := 0x3FFFFFFFFFFFFF <<< 970

/-- Whether a decimal number is too large for a float of 64 bits.  A number with more or fewer
places than the bound is told by that alone, and of others the whole places decide. -/
def isTooLarge (digits : List Char) (exponent : Int) : Bool :=
  match digits.dropWhile (· = '0') with
  | [] => false
  | digits =>
    let places := digits.length + exponent
    let whole := digits.take 309 ++ List.replicate (309 - digits.length) '0'
    309 < places || (places = 309 && floatBound ≤ ofDigits 10 floatBound whole)

def isExponentMark (character : Char) : Bool := character = 'e' || character = 'E'

/-- The absolute value of an exponent.  It is read until it reaches 65536, and the digits after
that do not count. -/
def exponentOf (digits : List Char) : Int := ofDigits 10 0x10000 digits

def exponent? : List Char → Option Int
  | [] => some 0
  | mark :: rest =>
    if isExponentMark mark then
      match rest with
      | '-' :: digits => (ungrouped? Char.isDigit digits).map fun digits => -exponentOf digits
      | '+' :: digits => (ungrouped? Char.isDigit digits).map exponentOf
      | digits => (ungrouped? Char.isDigit digits).map exponentOf
    else none

def fraction? : List Char → Option (List Char × List Char)
  | '.' :: rest =>
    (ungrouped? Char.isDigit (rest.takeWhile (!isExponentMark ·))).map fun digits =>
      (digits, rest.dropWhile (!isExponentMark ·))
  | rest => some ([], rest)

def unsigned? (text : List Char) : Option (List Char × Int) := do
  if text = ['i', 'n', 'f'] ∨ text = ['n', 'a', 'n'] then return ([], 0)
  let isWhole := fun (character : Char) => character ≠ '.' && !isExponentMark character
  let rest := text.dropWhile isWhole
  guard !rest.isEmpty
  let whole ← decimal? (text.takeWhile isWhole)
  let (fraction, rest) ← fraction? rest
  return (whole ++ fraction, (← exponent? rest) - fraction.length)

/-- Whether a text is a float.  One that is too large is no float, unless it is negative. -/
def isFloat : List Char → Bool
  | '-' :: text => (unsigned? text).isSome
  | '+' :: text | text => (unsigned? text).any fun (digits, exponent) => !isTooLarge digits exponent

end TypedObject.Toml.Number
