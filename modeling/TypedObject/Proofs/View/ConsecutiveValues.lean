import TypedObject.Proofs.Value.Parts

/-!
# Values one after the other

Where a view has a fixed size, access multiplies instead of measuring.  Measuring would
have found the same: each value has the fixed size as soon as the bytes reach for it, so
a run of values ends where multiplication says, or there are not bytes enough for it.
This is so for values without bytes and for types that contain themselves, as long as a
fixed size is found at all.
-/

namespace TypedObject

namespace View

/-- Where so many values of a view end that lie one after the other from an offset on,
when each is measured in the bytes that are left for it. -/
def endOfValues (view : View) (bytes : Bytes) : (count start : Nat) → Except SchemaError Nat
  | 0, start => .ok start
  | count + 1, start => do
    let rest ← (Value.mk view bytes).restFrom start
    let size ← view.size rest
    view.endOfValues bytes count (start + size)

variable {view : View} {bytes : Bytes}

/-- Within the bytes an offset moves over the values as a run of them is measured. -/
theorem endOfValues_eq_sizeOfRun
    (count : Nat) {start : Nat} (inside : start ≤ bytes.length) :
    view.endOfValues bytes count start =
      (sizeOfRun view.size count (bytes.drop start)).map (start + ·) := by
  induction count generalizing start with
  | zero => rfl
  | succ count induction =>
      rw [endOfValues, Value.restFrom_of_le inside, sizeOfRun]
      change (view.size (bytes.drop start) >>= _) = _
      cases measured : view.size (bytes.drop start) with
      | error error => rfl
      | ok size =>
          have fits := le_of_sizeWithin measured
          rw [List.length_drop] at fits
          change view.endOfValues bytes count (start + size) =
            (sizeOfRun view.size count ((bytes.drop start).drop size) >>= _).map _
          rw [induction (by omega), List.drop_drop, Outcome.map_bind]
          cases sizeOfRun view.size count (bytes.drop (start + size)) with
          | error error => rfl
          | ok others => simp [Except.map, pure, Except.pure, bind, Except.bind, Nat.add_assoc]

/-- Beyond the bytes there is no value, not even one without bytes. -/
theorem endOfValues_of_lt
    {count start : Nat} (nonempty : count ≠ 0) (outside : bytes.length < start) :
    view.endOfValues bytes count start = .error .invalidSchemaOrData := by
  cases count with
  | zero => exact absurd rfl nonempty
  | succ count =>
      rw [endOfValues, Value.restFrom_of_lt outside]
      rfl

theorem fitting_eq_ite (bytes : Bytes) (size : Nat) :
    fitting bytes size =
      if size ≤ bytes.length then .ok size else .error .invalidSchemaOrData := by
  split
  · rename_i fits
    exact fitting_of_le fits
  · rename_i short
    exact fitting_of_lt (Nat.lt_of_not_le short)

theorem endOfValues_of_fixedSize?
    (linked : view.Linked) {width : Nat} (fixed : view.fixedSize? = some width)
    (bytes : Bytes) (count start : Nat) :
    view.endOfValues bytes count start =
      if count = 0 ∨ start + count * width ≤ bytes.length then .ok (start + count * width)
      else .error .invalidSchemaOrData := by
  by_cases inside : start ≤ bytes.length
  · have measured := sizeOfParts_replicate_eq_fitting linked fixed count (bytes.drop start)
    rw [endOfValues_eq_sizeOfRun count inside, sizeOfRun_eq_sizeOfParts, measured,
      fitting_eq_ite, List.length_drop]
    by_cases fits : start + count * width ≤ bytes.length
    · rw [if_pos (by omega), if_pos (.inr fits)]
      rfl
    · have nonempty : count ≠ 0 := by
        rintro rfl
        omega
      rw [if_neg (by omega), if_neg (by simp [nonempty, fits])]
      rfl
  · by_cases empty : count = 0
    · subst empty
      simp [endOfValues]
    · have short : ¬start + count * width ≤ bytes.length := by omega
      rw [endOfValues_of_lt empty (Nat.lt_of_not_le inside), if_neg (by simp [empty, short])]

/-- A fixed size is what measuring finds, whenever the bytes reach for it, and so many
values one after the other end so many fixed sizes further on, unless the bytes end
before. -/
theorem fixedSize_agrees_with_measuring
    {registry : Registry} (returned : registry.Returned) {view : View}
    (reachable : Reachable registry view) {width : Nat}
    (fixed : view.fixedSize? = some width) :
    (∀ bytes, view.size bytes =
      if width ≤ bytes.length then .ok width else .error .invalidSchemaOrData) ∧
    ∀ bytes count start, view.endOfValues bytes count start =
      if count = 0 ∨ start + count * width ≤ bytes.length then .ok (start + count * width)
      else .error .invalidSchemaOrData := by
  have linked := reachable.linked returned.registered
  constructor
  · intro bytes
    rw [size_eq_fitting linked fixed, fitting_eq_ite]
  · exact endOfValues_of_fixedSize? linked fixed

end View

namespace Registry

/-- A link holds no other link, although its type contains itself. -/
def linkSchema : Schema :=
  .struct (some "Link")
    [⟨"number", "", .scalar .uint16 none⟩,
      ⟨"next", "", .array none 0 (.placeholder .struct "Link")⟩,
      ⟨"names", "", .array none 0 (.scalar .string none)⟩,
      ⟨"nothing", "", .struct none []⟩]

def linkRegistry : Registry := ⟨[("Link", linkSchema)], none⟩

theorem returned_linkRegistry : linkRegistry.Returned :=
  returned_of_canonical (by decide +kernel)

end Registry

namespace View

def linkView : View := ⟨Registry.linkRegistry, Registry.linkSchema⟩

/-- A link takes two bytes, whatever follows, and three links do not fit five bytes. -/
theorem measuring_linkView :
    linkView.fixedSize? = some 2 ∧ linkView.size [1, 2, 3] = .ok 2 ∧
      linkView.size [1] = .error .invalidSchemaOrData ∧
      linkView.endOfValues [1, 2, 3, 4, 5] 2 1 = .ok 5 ∧
      linkView.endOfValues [1, 2, 3, 4, 5] 3 0 = .error .invalidSchemaOrData := by
  have reachable : Reachable Registry.linkRegistry linkView :=
    .byName (rfl : Registry.linkRegistry.viewByName "Link" = .ok linkView)
  have fixed : linkView.fixedSize? = some 2 := by decide +kernel
  obtain ⟨measured, several⟩ :=
    fixedSize_agrees_with_measuring Registry.returned_linkRegistry reachable fixed
  exact ⟨fixed, measured _, measured _, several _ _ _, several _ _ _⟩

end View

end TypedObject
