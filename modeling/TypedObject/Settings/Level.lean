/-!
# Log levels

How much is logged, from errors only to everything.  A level is named in letters of any case, or
by its number.
-/

namespace TypedObject

/-- How much is logged. -/
inductive LogLevel where
  | error
  | warn
  | info
  | debug
  | trace
  deriving DecidableEq, Repr

namespace LogLevel

def all : List LogLevel := [error, warn, info, debug, trace]

def name : LogLevel → String
  | error => "ERROR"
  | warn => "WARN"
  | info => "INFO"
  | debug => "DEBUG"
  | trace => "TRACE"

/-- The number that decimal digits write, after an optional plus sign.  There are no levels from
ten on, so that a number is not read further. -/
def number? (text : List Char) : Option Nat :=
  let digits := match text with
    | '+' :: digits => digits
    | digits => digits
  if digits.isEmpty || !digits.all Char.isDigit then none
  else some (digits.foldl (fun number digit =>
    if number < 10 then 10 * number + (digit.toNat - 48) else number) 0)

def ofText? (text : String) : Option LogLevel :=
  match number? text.toList with
  | some 0 => none
  | some (number + 1) => all[number]?
  | none => all.find? fun level => level.name.toList = text.toList.map Char.toUpper

@[simp] theorem ofText?_name (level : LogLevel) : ofText? level.name = some level := by
  cases level <;> decide

end LogLevel

end TypedObject
