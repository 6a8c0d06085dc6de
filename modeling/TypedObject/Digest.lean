import TypedObject.Text.Hex

/-!
# Digests

A digest is 32 bytes.  It is written as 64 hexadecimal digits and is read back from exactly such
a text, or from the first 32 bytes of a byte string.
-/

namespace TypedObject

/-- Thirty-two bytes that name some content. -/
structure Digest where
  bytes : Bytes
  length_eq : bytes.length = 32
  deriving DecidableEq

namespace Digest

def size : Nat := 32

inductive Error where
  | hex (error : Text.Hex.Error)
  | length (actual : Nat)
  deriving DecidableEq, Repr

def Error.message : Error → String
  | .hex error => "invalid hex string: " ++ error.message
  | .length actual => "invalid byte length: expected 32, got " ++ toString actual

/-- The digest of 32 zero bytes, which names nothing. -/
def blank : Digest := ⟨List.replicate 32 0, by simp⟩

instance : Inhabited Digest := ⟨blank⟩

def isBlank (digest : Digest) : Bool := digest.bytes.all (· = 0)

def ofBytes (bytes : Bytes) : Except Error Digest :=
  if exact : bytes.length = 32 then .ok ⟨bytes, exact⟩ else .error (.length bytes.length)

/-- The digest at the start of a byte string, which may be longer. -/
def ofStart (bytes : Bytes) : Except Error Digest :=
  if enough : 32 ≤ bytes.length then
    .ok ⟨bytes.take 32, by simp only [List.length_take]; omega⟩
  else .error (.length bytes.length)

def toHex (digest : Digest) : String := Text.Hex.encode digest.bytes

/-- Reads hexadecimal digits given as the UTF-8 bytes of a text. -/
def ofHexBytes (text : Bytes) : Except Error Digest :=
  match Text.Hex.decode text with
  | .ok bytes => ofBytes bytes
  | .error error => .error (.hex error)

def ofHex (text : String) : Except Error Digest := ofHexBytes (Bytes.ofText text)

def short (digest : Digest) : String := Text.Hex.encode (digest.bytes.take 4)

def le (left right : Digest) : Bool := decide (left.bytes ≤ right.bytes)

theorem ext_bytes {left right : Digest} (same : left.bytes = right.bytes) : left = right := by
  cases left
  cases right
  cases same
  rfl

theorem isBlank_iff (digest : Digest) : digest.isBlank = true ↔ digest = blank := by
  constructor
  · intro zero
    apply ext_bytes
    have each : ∀ byte ∈ digest.bytes, byte = 0 := by
      simpa [isBlank] using zero
    exact List.eq_replicate_iff.mpr ⟨digest.length_eq, each⟩
  · rintro rfl
    simp [isBlank, blank]

end Digest

end TypedObject
