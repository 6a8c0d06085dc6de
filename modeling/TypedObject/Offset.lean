/-!
# Offsets

Sizes and offsets are numbers below 2⁶⁴.  A sum or product that leaves this range is no offset.
-/

namespace TypedObject.Offset

/-- The first number that is no offset. -/
def bound : Nat := 18446744073709551616

def ofNat? (number : Nat) : Option Nat := if number < bound then some number else none

def add? (left right : Nat) : Option Nat := ofNat? (left + right)

def mul? (left right : Nat) : Option Nat := ofNat? (left * right)

/-- Where an item lies in a run of items of one size that begins at `start`. -/
def ofItem? (index size start : Nat) : Option Nat := do
  let distance ← mul? index size
  add? distance start

end TypedObject.Offset
