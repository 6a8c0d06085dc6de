/-!
# Dates and times

A moment is a date, a time of day, or both, and then it may tell its distance from universal time.
Moments are checked and not kept.
-/

namespace TypedObject.Toml.Moment

def pair? (low high : Nat) (tens ones : Char) : Option Nat :=
  let number := 10 * (tens.toNat - 48) + (ones.toNat - 48)
  if tens.isDigit ∧ ones.isDigit ∧ low ≤ number ∧ number ≤ high then some number else none

def daysIn (year month : Nat) : Nat :=
  if month = 2 then
    if year % 4 = 0 ∧ (year % 100 ≠ 0 ∨ year % 400 = 0) then 29 else 28
  else if month ∈ [4, 6, 9, 11] then 30
  else 31

def isDate : List Char → Bool
  | [y1, y2, y3, y4, '-', m1, m2, '-', d1, d2] =>
    match pair? 0 99 y1 y2, pair? 0 99 y3 y4, pair? 1 12 m1 m2, pair? 1 31 d1 d2 with
    | some century, some year, some month, some day => day ≤ daysIn (100 * century + year) month
    | _, _, _, _ => false
  | _ => false

/-- A time of day with its seconds, of which there may be parts. -/
def isTime : List Char → Bool
  | h1 :: h2 :: ':' :: m1 :: m2 :: ':' :: s1 :: s2 :: rest =>
    (pair? 0 23 h1 h2).isSome && (pair? 0 59 m1 m2).isSome && (pair? 0 60 s1 s2).isSome &&
      match rest with
      | [] => true
      | '.' :: digits => !digits.isEmpty && digits.all Char.isDigit
      | _ => false
  | _ => false

def isOffset : List Char → Bool
  | [zone] => zone = 'Z' || zone = 'z'
  | [sign, h1, h2, ':', m1, m2] =>
    (sign = '+' || sign = '-') && (pair? 0 23 h1 h2).isSome && (pair? 0 59 m1 m2).isSome
  | _ => false

/-- A time of day that may be followed by a distance from universal time. -/
def isZonedTime (text : List Char) : Bool :=
  let isClock := fun (character : Char) => character.isDigit || character = ':' || character = '.'
  let offset := text.dropWhile isClock
  isTime (text.takeWhile isClock) && (offset.isEmpty || isOffset offset)

/-- A moment whose date and time, if it has both, are joined by a letter. -/
def isMoment (text : List Char) : Bool :=
  isDate text || isTime text ||
    match text.drop 10 with
    | mark :: time => isDate (text.take 10) && (mark = 'T' || mark = 't') && isZonedTime time
    | [] => false

end TypedObject.Toml.Moment
