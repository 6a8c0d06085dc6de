import TypedObject.Bytes

/-!
# Counts and counted bytes

The wire form of schemas, registries and values rests on one rule: whatever has no fixed length
is preceded by a count, a little-endian number of four bytes.
-/

namespace TypedObject.Wire

def countSize : Nat := 4

def word (number : Nat) : Bytes := Bytes.ofNat 4 number

/-- A count.  It is a number below 2³²; of a larger one the low part is written. -/
def count (number : Nat) : Bytes := word number

/-- A byte string after its length. -/
def counted (bytes : Bytes) : Bytes := count bytes.length ++ bytes

def text (content : String) : Bytes := counted (Bytes.ofText content)

@[simp] theorem length_word (number : Nat) : (word number).length = 4 := by simp [word]

@[simp] theorem length_count (number : Nat) : (count number).length = 4 := by simp [count]

@[simp] theorem length_counted (bytes : Bytes) : (counted bytes).length = 4 + bytes.length := by
  simp [counted]

end TypedObject.Wire
