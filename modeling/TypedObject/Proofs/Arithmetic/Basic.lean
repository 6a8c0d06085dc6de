import TypedObject.Proofs.View.Shortcut

/-!
# Reckoning with words

Sizes and offsets are words of 64 bits.  Products and the sums of sizes are checked, but
an offset moves past a part without a check, and bytes are cut at a size without one.
Such steps are written here for any way of reckoning, and they stop with a fault where
they would leave the bytes at hand.  Words and integers agree as long as no word
overflows, and where one does there are not bytes enough either.
-/

namespace TypedObject

/-- What must not happen while sizes and offsets are reckoned. -/
inductive Fault where
  /-- A sum that is not checked goes beyond the bytes at hand. -/
  | sum (left right available : Nat)
  /-- A difference would be negative. -/
  | difference (left right : Nat)
  /-- Bytes are cut where there are none. -/
  | cut (size available : Nat)

/-- Why a computation stops: the data is refused, or there is a fault. -/
inductive Stop where
  | refused (error : SchemaError)
  | fault (fault : Fault)

/-- A computation that may stop with a fault. -/
abbrev Guarded (α : Type) := Except Stop α

namespace Guarded

variable {α β : Type}

/-- The computation without faults that has the answer. -/
def of (answer : Except SchemaError α) : Guarded α := answer.mapError .refused

theorem of_bind (answer : Except SchemaError α) (next : α → Except SchemaError β) :
    of (answer >>= next) = of answer >>= fun value => of (next value) := by
  cases answer <;> rfl

/-- The bytes from an offset on. -/
def rest (bytes : Bytes) (offset : Nat) : Guarded Bytes :=
  if offset ≤ bytes.length then .ok (bytes.drop offset)
  else .error (.refused .invalidSchemaOrData)

/-- The bytes up to a size, which is not checked. -/
def front (bytes : Bytes) (size : Nat) : Guarded Bytes :=
  if size ≤ bytes.length then .ok (bytes.take size) else .error (.fault (.cut size bytes.length))

/-- What is left of a number, which is not checked. -/
def difference (left right : Nat) : Guarded Nat :=
  if right ≤ left then .ok (left - right) else .error (.fault (.difference left right))

end Guarded

/-- A way of reckoning: with products and sums that may be refused, and with sums that are
not checked. -/
structure Arithmetic where
  product? : Nat → Nat → Option Nat
  sum? : Nat → Nat → Option Nat
  sum : Nat → Nat → Nat

/-- Bytes that words can measure leave such bytes behind any offset. -/
theorem Offset.addressable_drop
    {bytes : Bytes} (addressable : bytes.length < Offset.bound) (offset : Nat) :
    (bytes.drop offset).length < Offset.bound :=
  Nat.lt_of_le_of_lt (List.drop_sublist offset bytes).length_le addressable

namespace Arithmetic

/-- Words refuse what they cannot hold, and unchecked sums wrap around. -/
def words : Arithmetic := ⟨Offset.mul?, Offset.add?, fun left right => (left + right) % Offset.bound⟩

/-- Integers hold everything. -/
def integers : Arithmetic :=
  ⟨fun left right => some (left * right), fun left right => some (left + right), (· + ·)⟩

/-- Moves an offset past a part of the available bytes, without a check. -/
def advance (arithmetic : Arithmetic) (offset size available : Nat) : Guarded Nat :=
  if offset + size ≤ available then .ok (arithmetic.sum offset size)
  else .error (.fault (.sum offset size available))

/-- Where an item lies in a run of items of one size that begins at `start`. -/
def item? (arithmetic : Arithmetic) (index size start : Nat) : Option Nat := do
  let distance ← arithmetic.product? index size
  arithmetic.sum? distance start

/-- What is reckoned is right, and nothing below the bound is refused or wraps around. -/
structure Faithful (arithmetic : Arithmetic) : Prop where
  product_eq : ∀ {left right product}, arithmetic.product? left right = some product →
    product = left * right
  product_none : ∀ {left right}, arithmetic.product? left right = none →
    Offset.bound ≤ left * right
  sum_eq : ∀ {left right sum}, arithmetic.sum? left right = some sum → sum = left + right
  sum_none : ∀ {left right}, arithmetic.sum? left right = none → Offset.bound ≤ left + right
  sum_of_lt : ∀ {left right}, left + right < Offset.bound →
    arithmetic.sum left right = left + right

theorem faithful_words : words.Faithful where
  product_eq found := (Offset.mul?_eq_some_iff.mp found).1
  product_none refused := by simpa [words, Offset.mul?, Offset.ofNat?] using refused
  sum_eq found := (Offset.add?_eq_some_iff.mp found).1
  sum_none refused := by simpa [words, Offset.add?, Offset.ofNat?] using refused
  sum_of_lt small := Nat.mod_eq_of_lt small

theorem faithful_integers : integers.Faithful where
  product_eq found := (Option.some.inj found).symm
  product_none refused := nomatch refused
  sum_eq found := (Option.some.inj found).symm
  sum_none refused := nomatch refused
  sum_of_lt _ := rfl

namespace Faithful

variable {arithmetic : Arithmetic} (faithful : arithmetic.Faithful)

include faithful

theorem advance_eq
    {offset size available : Nat} (inside : offset + size ≤ available)
    (addressable : available < Offset.bound) :
    arithmetic.advance offset size available = .ok (offset + size) := by
  rw [advance, if_pos inside, faithful.sum_of_lt (Nat.lt_of_le_of_lt inside addressable)]

theorem item?_cases (index size start : Nat) :
    arithmetic.item? index size start = some (index * size + start) ∨
      arithmetic.item? index size start = none ∧ Offset.bound ≤ index * size + start := by
  unfold item?
  cases product : arithmetic.product? index size with
  | none =>
      have large := faithful.product_none product
      exact .inr ⟨rfl, by omega⟩
  | some distance =>
      obtain rfl := faithful.product_eq product
      change arithmetic.sum? _ start = _ ∨ arithmetic.sum? _ start = _ ∧ _
      cases sum : arithmetic.sum? (index * size) start with
      | none => exact .inr ⟨rfl, faithful.sum_none sum⟩
      | some place =>
          obtain rfl := faithful.sum_eq sum
          exact .inl rfl

/-- An item that lies within the bytes is found there, and any other is refused. -/
theorem fitting_item
    {bytes : Bytes} (addressable : bytes.length < Offset.bound) (index size start : Nat) :
    (View.offset (arithmetic.item? index size start) >>= View.fitting bytes) =
      View.fitting bytes (index * size + start) := by
  rcases faithful.item?_cases index size start with found | ⟨refused, large⟩
  · rw [found]
    rfl
  · rw [refused, View.fitting_of_lt (Nat.lt_of_lt_of_le addressable large)]
    rfl

/-- A sum that the bytes reach for is found, and any other is refused. -/
theorem fitting_sum
    {bytes : Bytes} (addressable : bytes.length < Offset.bound) (left right : Nat) :
    (View.offset (arithmetic.sum? left right) >>= View.fitting bytes) =
      View.fitting bytes (left + right) := by
  cases sum : arithmetic.sum? left right with
  | none =>
      have large := faithful.sum_none sum
      rw [View.fitting_of_lt (Nat.lt_of_lt_of_le addressable large)]
      rfl
  | some total =>
      obtain rfl := faithful.sum_eq sum
      rfl

end Faithful

end Arithmetic

end TypedObject
