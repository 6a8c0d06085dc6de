/-!
# Byte strings and little-endian numbers

Every encoding in this library is a list of bytes.  A number of known width is written with its
least significant byte first; `Bytes.ofNat` and `Bytes.toNat` are inverse to each other on the
numbers that fit the width, and a number that does not fit loses its high bytes.
-/

namespace TypedObject

abbrev Bytes := List UInt8

namespace Bytes

def range : (width : Nat) → Nat
  | 0 => 1
  | width + 1 => 256 * range width

/-- The `width` low bytes of a number, least significant first. -/
def ofNat : (width number : Nat) → Bytes
  | 0, _ => []
  | width + 1, number => UInt8.ofNat number :: ofNat width (number / 256)

/-- The number whose bytes, least significant first, are given. -/
def toNat : Bytes → Nat
  | [] => 0
  | byte :: rest => byte.toNat + 256 * toNat rest

def ofInt (width : Nat) (number : Int) : Bytes :=
  ofNat width (number % (range width : Int)).toNat

/-- The signed number written in two's complement: the upper half of the range stands for the
negative numbers. -/
def toInt (bytes : Bytes) : Int :=
  let range := range bytes.length
  let number := toNat bytes
  if 2 * number < range then (number : Int) else (number : Int) - (range : Int)

def ofText (text : String) : Bytes :=
  text.toUTF8.data.toList

def toText? (bytes : Bytes) : Option String :=
  String.fromUTF8? ⟨bytes.toArray⟩

/-- Whether there are fewer bytes than a number says.  No more bytes than that are looked at. -/
def isShorter : Bytes → (size : Nat) → Bool
  | _, 0 => false
  | [], _ + 1 => true
  | _ :: rest, size + 1 => isShorter rest size

@[simp] theorem isShorter_iff (bytes : Bytes) (size : Nat) :
    isShorter bytes size = true ↔ bytes.length < size := by
  induction bytes generalizing size with
  | nil => cases size <;> simp [isShorter]
  | cons byte rest induction => cases size <;> simp [isShorter, induction]

theorem exists_front
    {bytes : Bytes} {size : Nat} (fits : size ≤ bytes.length) :
    ∃ front rest, bytes = front ++ rest ∧ front.length = size :=
  ⟨bytes.take size, bytes.drop size, (List.take_append_drop _ _).symm, List.length_take_of_le fits⟩

@[simp] theorem length_ofNat (width number : Nat) : (ofNat width number).length = width := by
  induction width generalizing number with
  | zero => rfl
  | succ width induction => simp [ofNat, induction]

theorem toNat_lt (bytes : Bytes) : toNat bytes < range bytes.length := by
  induction bytes with
  | nil => exact Nat.one_pos
  | cons byte rest induction =>
      have byteBound := byte.toNat_lt
      simp only [toNat, List.length_cons, range]
      omega

/-- Writing keeps a number modulo the range of its width. -/
theorem toNat_ofNat (width number : Nat) :
    toNat (ofNat width number) = number % range width := by
  induction width generalizing number with
  | zero => simp [ofNat, toNat, range, Nat.mod_one]
  | succ width induction =>
      simp only [ofNat, toNat, induction, range, Nat.mod_mul]
      simp

theorem ofNat_toNat (bytes : Bytes) : ofNat bytes.length (toNat bytes) = bytes := by
  induction bytes with
  | nil => rfl
  | cons byte rest induction =>
      have byteBound := byte.toNat_lt
      have low : UInt8.ofNat (byte.toNat + 256 * toNat rest) = byte := by
        apply UInt8.toNat_inj.mp
        simp
      have high : (byte.toNat + 256 * toNat rest) / 256 = toNat rest := by omega
      simp only [toNat, List.length_cons, ofNat, low, high, induction]

@[simp] theorem toText?_ofText (text : String) : toText? (ofText text) = some text := by
  simp [toText?, ofText, String.fromUTF8?, String.fromUTF8, text.isValidUTF8]

theorem ofText_of_toText? {bytes : Bytes} {text : String}
    (decoded : toText? bytes = some text) : ofText text = bytes := by
  unfold toText? String.fromUTF8? at decoded
  split at decoded
  · cases decoded
    simp [ofText, String.fromUTF8]
  · cases decoded

end Bytes

end TypedObject
