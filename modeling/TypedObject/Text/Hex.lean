import TypedObject.Bytes
import TypedObject.Text.Quoted

/-!
# Hexadecimal text

Two digits a byte, the high half first.  Writing uses lower case; reading takes either case and
looks at the UTF-8 bytes of the text: first at their number, which must be even, then at each of
them in order.
-/

namespace TypedObject.Text.Hex

inductive Error where
  | oddLength
  /-- The first byte that is not a digit, and where it stands. -/
  | badByte (byte : UInt8) (position : Nat)
  deriving DecidableEq, Repr

/-- The wording of an error.  A bad byte is shown as the character of its code point. -/
def Error.message : Error → String
  | .oddLength => "Odd number of digits"
  | .badByte byte position =>
    "Invalid character " ++ quotedChar (Char.ofNat byte.toNat) ++ " at position "
      ++ toString position

def digit (number : Nat) : Char :=
  if number < 10 then Char.ofNat (48 + number) else Char.ofNat (87 + number)

def value? (byte : UInt8) : Option Nat :=
  let code := byte.toNat
  if 48 ≤ code ∧ code ≤ 57 then some (code - 48)
  else if 97 ≤ code ∧ code ≤ 102 then some (code - 87)
  else if 65 ≤ code ∧ code ≤ 70 then some (code - 55)
  else none

def digits : Bytes → List Char
  | [] => []
  | byte :: rest => digit (byte.toNat / 16) :: digit (byte.toNat % 16) :: digits rest

def encode (bytes : Bytes) : String :=
  String.ofList (digits bytes)

/-- Reads pairs of digits; `position` counts the bytes of text already read. -/
def decodePairs (position : Nat) : Bytes → Except Error Bytes
  | high :: low :: rest =>
    match value? high, value? low with
    | some highValue, some lowValue => do
      let bytes ← decodePairs (position + 2) rest
      return UInt8.ofNat (16 * highValue + lowValue) :: bytes
    | none, _ => .error (.badByte high position)
    | some _, none => .error (.badByte low (position + 1))
  | [_] => .error .oddLength
  | [] => .ok []

def decode (text : Bytes) : Except Error Bytes :=
  if text.length % 2 = 1 then .error .oddLength else decodePairs 0 text

end TypedObject.Text.Hex
