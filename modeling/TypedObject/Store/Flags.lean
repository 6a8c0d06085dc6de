/-!
# Store flags

Three flags that a store keeps for the structures built on top of it.  A byte may hold other bits
as well; they are no flags and are dropped.
-/

namespace TypedObject

structure Flags where
  hashTableIndex : Bool
  entireRefs : Bool
  lazyUpdating : Bool
  deriving DecidableEq, Repr

namespace Flags

def empty : Flags := ⟨false, false, false⟩

def all : Flags := ⟨true, true, true⟩

/-- The flags among the bits of a number. -/
def ofBits (bits : Nat) : Flags := ⟨bits.testBit 0, bits.testBit 1, bits.testBit 2⟩

def bits (flags : Flags) : Nat :=
  flags.hashTableIndex.toNat + 2 * flags.entireRefs.toNat + 4 * flags.lazyUpdating.toNat

/-- The flags whose bits make the whole number. -/
def ofBits? (bits : Nat) : Option Flags :=
  if (ofBits bits).bits = bits then some (ofBits bits) else none

def union (left right : Flags) : Flags :=
  ⟨left.hashTableIndex || right.hashTableIndex, left.entireRefs || right.entireRefs,
    left.lazyUpdating || right.lazyUpdating⟩

def minus (left right : Flags) : Flags :=
  ⟨left.hashTableIndex && !right.hashTableIndex, left.entireRefs && !right.entireRefs,
    left.lazyUpdating && !right.lazyUpdating⟩

def contains (left right : Flags) : Bool := right.minus left = empty

def words (flags : Flags) : List (List String) :=
  (if flags.hashTableIndex then [["hash", "table", "index"]] else []) ++
    (if flags.entireRefs then [["entire", "refs"]] else []) ++
    (if flags.lazyUpdating then [["lazy", "updating"]] else [])

def text (flags : Flags) : String :=
  if flags = empty then "none"
  else String.intercalate "|" (flags.words.map (String.intercalate "-"))

/-- The names in upper case between bars; nothing when there is no flag. -/
def title (flags : Flags) : String :=
  String.intercalate " | " (flags.words.map fun name => (String.intercalate "_" name).toUpper)

def summary (flags : Flags) : String :=
  "Flags(" ++ (if flags = empty then "0x0" else flags.title) ++ ")"

theorem ofBits_bits (flags : Flags) : ofBits flags.bits = flags := by
  obtain ⟨first, second, third⟩ := flags
  cases first <;> cases second <;> cases third <;> decide

end Flags

end TypedObject
