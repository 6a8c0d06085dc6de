import TypedObject.Proofs.View.Measuring

/-!
# The size of a value is exact

The size that is found is the length of the only encoding at the front of the bytes,
and the size of every encoding that stays within the depth limit is found.  A fixed
size is looked for over all levels again wherever a sequence occurs, so what is found
may lie deeper than the limit; that it is an encoding nevertheless needs the levels
of both added up.
-/

namespace TypedObject.View

/-- The size of a scalar. -/
def scalarSize (kind : Kind) (bytes : Bytes) : Except SchemaError Nat :=
  if kind = .string then do
    let count ← countAt bytes
    offset (Offset.add? count Wire.countSize)
  else offset kind.fixedSize?

/-- The size of a reference or a list of references. -/
def referenceSizeAt (kind : ReferenceKind) (bytes : Bytes) : Except SchemaError Nat :=
  match kind with
  | .single => .ok referenceSize
  | .dynamic => .ok dynamicSize
  | .slice => do
    let count ← countAt bytes
    offset (Offset.ofItem? count referenceSize Wire.countSize)

theorem sizeWithin_scalar
    (levels : Nat) (registry : Registry) (kind : Kind) (name : Option String) (bytes : Bytes) :
    sizeWithin (levels + 1) ⟨registry, .scalar kind name⟩ bytes =
      scalarSize kind bytes >>= fitting bytes := by
  cases kind <;> rfl

theorem sizeWithin_reference
    (levels : Nat) (registry : Registry) (kind : ReferenceKind) (target : Schema)
    (bytes : Bytes) :
    sizeWithin (levels + 1) ⟨registry, .reference kind target⟩ bytes =
      referenceSizeAt kind bytes >>= fitting bytes := by
  cases kind <;> rfl

theorem sizeWithin_openReference
    (levels : Nat) (registry : Registry) (kind : ReferenceKind) (bytes : Bytes) :
    sizeWithin (levels + 1) ⟨registry, .openReference kind⟩ bytes =
      referenceSizeAt kind bytes >>= fitting bytes := by
  cases kind <;> rfl

theorem sizeWithin_slice
    (levels : Nat) (registry : Registry) (name : Option String) (inner : Schema)
    (bytes : Bytes) :
    sizeWithin (levels + 1) ⟨registry, .slice name inner⟩ bytes =
      (do
        let elem ← follow registry inner
        let count ← countAt bytes
        sizeOfSequence elem (sizeWithin levels elem) count Wire.countSize bytes) >>=
          fitting bytes :=
  rfl

theorem sizeWithin_array
    (levels : Nat) (registry : Registry) (name : Option String) (length : Nat) (inner : Schema)
    (bytes : Bytes) :
    sizeWithin (levels + 1) ⟨registry, .array name length inner⟩ bytes =
      (do
        let elem ← follow registry inner
        sizeOfSequence elem (sizeWithin levels elem) length 0 bytes) >>= fitting bytes :=
  rfl

theorem sizeWithin_struct
    (levels : Nat) (registry : Registry) (name : Option String) (fields : List Field)
    (bytes : Bytes) :
    sizeWithin (levels + 1) ⟨registry, .struct name fields⟩ bytes =
      sizeOfFields (sizeWithin levels) ⟨registry, .struct name fields⟩ fields bytes >>=
        fitting bytes :=
  rfl

/-- A size that fits is one that was measured, and conversely. -/
theorem bind_fitting_eq_ok_iff
    {measured : Except SchemaError Nat} {bytes : Bytes} {size : Nat} :
    (measured >>= fitting bytes) = .ok size ↔ measured = .ok size ∧ size ≤ bytes.length := by
  rw [Outcome.bind_eq_ok_iff]
  simp only [fitting_eq_ok_iff]
  constructor
  · intro found
    obtain ⟨size', same, rfl, fits⟩ := found
    exact ⟨same, fits⟩
  · intro found
    exact ⟨size, found.1, rfl, found.2⟩

theorem sound_scalarSize
    {kind : Kind} {bytes : Bytes} {size : Nat} (measured : scalarSize kind bytes = .ok size)
    (fits : size ≤ bytes.length) : Fronts (EncodesScalar kind) bytes size := by
  unfold scalarSize at measured
  split at measured
  · rename_i isString
    obtain ⟨count, counted, added⟩ := Outcome.bind_eq_ok_iff.mp measured
    obtain ⟨rfl, _⟩ := Offset.add?_eq_some_iff.mp (offset_eq_ok_iff.mp added)
    obtain ⟨countFits, rest, rfl⟩ := countAt_eq_ok_iff.mp counted
    rw [List.length_append, Wire.length_count, Wire.countSize] at fits
    obtain ⟨content, rest', rfl, rfl⟩ := Bytes.exists_front (by omega : count ≤ rest.length)
    refine ⟨Wire.counted content, rest', ?_, ?_, .inr ⟨isString, content, countFits, rfl⟩⟩
    · rw [Wire.counted, List.append_assoc]
    · rw [Wire.length_counted, Wire.countSize, Nat.add_comm]
  · obtain ⟨encoded, rest, rfl, rfl⟩ := Bytes.exists_front fits
    exact ⟨encoded, rest, rfl, rfl, .inl (offset_eq_ok_iff.mp measured)⟩

theorem sound_referenceSizeAt
    {kind : ReferenceKind} {bytes : Bytes} {size : Nat}
    (measured : referenceSizeAt kind bytes = .ok size) (fits : size ≤ bytes.length) :
    Fronts (EncodesReference kind) bytes size := by
  cases kind with
  | single =>
      cases measured
      obtain ⟨encoded, rest, rfl, length⟩ := Bytes.exists_front fits
      exact ⟨encoded, rest, rfl, length, length⟩
  | dynamic =>
      cases measured
      obtain ⟨encoded, rest, rfl, length⟩ := Bytes.exists_front fits
      exact ⟨encoded, rest, rfl, length, length⟩
  | slice =>
      obtain ⟨count, counted, placed⟩ := Outcome.bind_eq_ok_iff.mp measured
      obtain ⟨rfl, _⟩ := Offset.ofItem?_eq_some_iff.mp (offset_eq_ok_iff.mp placed)
      obtain ⟨countFits, rest, rfl⟩ := countAt_eq_ok_iff.mp counted
      rw [List.length_append, Wire.length_count, Wire.countSize] at fits
      obtain ⟨identifiers, rest', rfl, length⟩ :=
        Bytes.exists_front (by omega : count * referenceSize ≤ rest.length)
      refine ⟨Wire.count count ++ identifiers, rest', by rw [List.append_assoc], ?_,
        count, identifiers, countFits, length, rfl⟩
      rw [List.length_append, Wire.length_count, length, Wire.countSize, Nat.add_comm]

theorem complete_scalarSize
    {kind : Kind} {encoded : Bytes} (encodes : EncodesScalar kind encoded) (rest : Bytes) :
    scalarSize kind (encoded ++ rest) = .ok encoded.length := by
  unfold scalarSize
  rcases encodes with fixed | ⟨rfl, content, fits, rfl⟩
  · have notString : kind ≠ .string := by
      intro same
      rw [same] at fixed
      cases fixed
    rw [if_neg notString, fixed]
    rfl
  · have small : content.length + Wire.countSize < Offset.bound := by
      unfold Wire.countBound at fits
      unfold Wire.countSize Offset.bound
      omega
    rw [if_pos rfl, Wire.counted, List.append_assoc]
    refine Outcome.bind_eq_ok_iff.mpr ⟨content.length, countAt_count_append fits _, ?_⟩
    apply offset_eq_ok_iff.mpr
    apply Offset.add?_eq_some_iff.mpr
    refine ⟨?_, ?_⟩
    · rw [List.length_append, Wire.length_count, Wire.countSize, Nat.add_comm]
    · rw [List.length_append, Wire.length_count, Nat.add_comm]
      exact small

theorem complete_referenceSizeAt
    {kind : ReferenceKind} {encoded : Bytes} (encodes : EncodesReference kind encoded)
    (rest : Bytes) : referenceSizeAt kind (encoded ++ rest) = .ok encoded.length := by
  cases kind with
  | single => exact congrArg Except.ok (Eq.symm encodes)
  | dynamic => exact congrArg Except.ok (Eq.symm encodes)
  | slice =>
      obtain ⟨count, identifiers, fits, length, rfl⟩ := encodes
      rw [List.append_assoc]
      refine Outcome.bind_eq_ok_iff.mpr ⟨count, countAt_count_append fits _, ?_⟩
      apply offset_eq_ok_iff.mpr
      apply Offset.ofItem?_eq_some_iff.mpr
      rw [List.length_append, Wire.length_count, length]
      unfold Wire.countBound at fits
      unfold referenceSize Wire.countSize Offset.bound
      omega

/-- Only sizes of encodings are found.  A fixed size is looked for over all levels
again, so its levels are added to those of the measuring. -/
theorem sound_sizeWithin
    {levels : Nat} {view : View} (linked : view.Linked) :
    Sound (sizeWithin levels view) (EncodesWithin (levels + (depthLimit + 1)) view) := by
  induction levels generalizing view with
  | zero => exact fun _ _ measured => nomatch measured
  | succ levels induction =>
      intro bytes size measured
      rw [Nat.succ_add]
      have fixed : ∀ {elem : View}, elem.Linked → ∀ bytes : Bytes,
          elem.fixedSize? = some bytes.length →
          EncodesWithin (levels + (depthLimit + 1)) elem bytes := by
        intro elem linkedElem item known
        have within := encodesWithin_of_fixedSizeWithin linkedElem known
        exact within.mono (Nat.le_add_left _ _)
      obtain ⟨registry, schema⟩ := view
      cases schema with
      | scalar kind name =>
          rw [sizeWithin_scalar] at measured
          obtain ⟨found, fits⟩ := bind_fitting_eq_ok_iff.mp measured
          exact sound_scalarSize found fits
      | reference kind target =>
          rw [sizeWithin_reference] at measured
          obtain ⟨found, fits⟩ := bind_fitting_eq_ok_iff.mp measured
          exact sound_referenceSizeAt found fits
      | openReference kind =>
          rw [sizeWithin_openReference] at measured
          obtain ⟨found, fits⟩ := bind_fitting_eq_ok_iff.mp measured
          exact sound_referenceSizeAt found fits
      | slice name inner =>
          rw [sizeWithin_slice] at measured
          obtain ⟨found, fits⟩ := bind_fitting_eq_ok_iff.mp measured
          obtain ⟨elem, follows, continued⟩ := Outcome.bind_eq_ok_iff.mp found
          obtain ⟨count, counted, sized⟩ := Outcome.bind_eq_ok_iff.mp continued
          have linkedElem := linked.of_follow List.mem_cons_self follows
          obtain ⟨items, rest, split, length, countFits, run⟩ :=
            sound_sizeOfSequence_counted (fixed linkedElem) (induction linkedElem) counted sized
              fits
          exact ⟨_, rest, split, length, elem, count, items, follows, countFits, run, rfl⟩
      | array name length inner =>
          rw [sizeWithin_array] at measured
          obtain ⟨found, fits⟩ := bind_fitting_eq_ok_iff.mp measured
          obtain ⟨elem, follows, sized⟩ := Outcome.bind_eq_ok_iff.mp found
          have linkedElem := linked.of_follow List.mem_cons_self follows
          obtain ⟨encoded, rest, split, rfl, run⟩ :=
            sound_sizeOfSequence (fixed linkedElem) (induction linkedElem) sized
              (Nat.zero_le _) fits
          exact ⟨encoded, rest, split, (Nat.zero_add _).symm, elem, follows, run⟩
      | struct name fields =>
          obtain ⟨parts, followFields, linkedParts⟩ := linked.fields
          change fields.mapM (ofField ⟨registry, .struct name fields⟩) = .ok parts at followFields
          rw [sizeWithin_struct, sizeOfFields_eq_sizeOfParts followFields] at measured
          obtain ⟨found, fits⟩ := bind_fitting_eq_ok_iff.mp measured
          have soundParts : Sound (sizeOfParts (sizeWithin levels) parts)
              (EncodesRun (EncodesWithin (levels + (depthLimit + 1))) parts) :=
            sound_sizeOfParts fun part member => induction (linkedParts part member)
          obtain ⟨encoded, rest, split, length, run⟩ := soundParts bytes size found
          exact ⟨encoded, rest, split, length, parts, followFields, run⟩
      | placeholder kind name => cases linked.full

/-- The size of every encoding within the levels is found, whatever follows it.  Below the
limit the shortcut looks at least as deep as the measuring itself, so it misses no size. -/
theorem complete_sizeWithin
    {levels : Nat} (within : levels ≤ depthLimit + 1) (view : View) :
    Complete (sizeWithin levels view) (EncodesWithin levels view) := by
  induction levels generalizing view with
  | zero => exact fun _ _ encodes => nomatch encodes
  | succ levels induction =>
      have less : levels ≤ depthLimit + 1 := Nat.le_of_succ_le within
      have each := induction less
      have sized : ∀ (elem : View) (item : Bytes), EncodesWithin levels elem item →
          item.length < Offset.bound → Sizes elem.fixedSize? item :=
        fun elem item encodes short => sizes_fixedSizeWithin encodes less short
      intro encoded rest encodes short
      have fits : encoded.length ≤ (encoded ++ rest).length := by
        rw [List.length_append]
        omega
      obtain ⟨registry, schema⟩ := view
      cases schema with
      | scalar kind name =>
          rw [sizeWithin_scalar]
          exact bind_fitting_eq_ok_iff.mpr ⟨complete_scalarSize encodes rest, fits⟩
      | reference kind target =>
          rw [sizeWithin_reference]
          exact bind_fitting_eq_ok_iff.mpr ⟨complete_referenceSizeAt encodes rest, fits⟩
      | openReference kind =>
          rw [sizeWithin_openReference]
          exact bind_fitting_eq_ok_iff.mpr ⟨complete_referenceSizeAt encodes rest, fits⟩
      | slice name inner =>
          obtain ⟨elem, count, items, follows, countFits, run, rfl⟩ := encodes
          rw [sizeWithin_slice]
          refine bind_fitting_eq_ok_iff.mpr ⟨?_, fits⟩
          refine Outcome.bind_eq_ok_iff.mpr ⟨elem, follows, ?_⟩
          rw [List.append_assoc] at short ⊢
          refine Outcome.bind_eq_ok_iff.mpr ⟨count, countAt_count_append countFits _, ?_⟩
          rw [List.length_append, Wire.length_count] at short ⊢
          exact complete_sizeOfSequence (sized elem) each (drop_count_append _ _) run short
      | array name length inner =>
          obtain ⟨elem, follows, run⟩ := encodes
          rw [sizeWithin_array]
          refine bind_fitting_eq_ok_iff.mpr ⟨?_, fits⟩
          refine Outcome.bind_eq_ok_iff.mpr ⟨elem, follows, ?_⟩
          rw [← Nat.zero_add encoded.length]
          rw [← Nat.zero_add (encoded ++ rest).length] at short
          exact complete_sizeOfSequence (sized elem) each rfl run short
      | struct name fields =>
          obtain ⟨parts, followFields, run⟩ := encodes
          rw [sizeWithin_struct, sizeOfFields_eq_sizeOfParts followFields]
          exact bind_fitting_eq_ok_iff.mpr
            ⟨complete_sizeOfParts each parts encoded rest run short, fits⟩
      | placeholder kind name => cases encodes

/-- What is found as the size of a value is the length of the only encoding at the
front of the bytes, and the length of every encoding there that stays within the
depth limit is found, whatever follows it. -/
theorem size_exact
    {registry : Registry} (returned : registry.Returned) {view : View}
    (reachable : Reachable registry view) {bytes : Bytes}
    (addressable : bytes.length < Offset.bound) :
    (∀ size, view.size bytes = .ok size →
      size ≤ bytes.length ∧ view.Encodes (bytes.take size) ∧
        ∀ length ≤ bytes.length, view.Encodes (bytes.take length) → length = size) ∧
    ∀ length ≤ bytes.length, EncodesWithin (depthLimit + 1) view (bytes.take length) →
      view.size bytes = .ok length := by
  have linked := reachable.linked returned.registered
  constructor
  · intro size measured
    obtain ⟨encoded, rest, rfl, rfl, within⟩ := sound_sizeWithin linked bytes size measured
    have fits : encoded.length ≤ (encoded ++ rest).length := by
      rw [List.length_append]
      omega
    have encodes : view.Encodes encoded := ⟨_, within⟩
    refine ⟨fits, ?_, ?_⟩
    · rw [List.take_left]
      exact encodes
    · intro length short other
      have same : (encoded ++ rest).take length = encoded :=
        Encodes.prefixFree view _ _ _ _ other encodes (List.take_append_drop _ _)
      rw [← same, List.length_take_of_le short]
  · intro length short within
    have split : bytes.take length ++ bytes.drop length = bytes := List.take_append_drop _ _
    have found := complete_sizeWithin (Nat.le_refl _) view (bytes.take length)
      (bytes.drop length) within (by rw [split]; exact addressable)
    rw [split, List.length_take_of_le short] at found
    exact found

/-- The view of a tree of bytes. -/
def nodeView : View := ⟨Registry.nodeRegistry, Registry.nodeSchema⟩

/-- A node that refers to the identifier of zeros. -/
def nodeBytes (item : UInt8) (children : List Bytes) : Bytes :=
  [item] ++ (List.replicate referenceSize 0 ++ (Wire.count children.length ++ children.flatten))

private theorem encodesWithin_nodeBytes
    {levels : Nat} {children : List Bytes} (fits : children.length < Wire.countBound)
    (each : ∀ child ∈ children, EncodesWithin levels nodeView child) (item : UInt8) :
    EncodesWithin (levels + 2) nodeView (nodeBytes item children) := by
  have run : EncodesRun (EncodesWithin levels) (List.replicate children.length nodeView)
      children.flatten := by
    clear fits
    induction children with
    | nil => rfl
    | cons child children induction =>
        obtain ⟨first, others⟩ := List.forall_mem_cons.mp each
        exact ⟨child, children.flatten, first, induction others, rfl⟩
  have list : EncodesWithin (levels + 1) ⟨Registry.nodeRegistry, .slice none
      (.placeholder .struct "Node")⟩ (Wire.count children.length ++ children.flatten) :=
    ⟨nodeView, children.length, children.flatten, rfl, fits, run, rfl⟩
  exact ⟨_, rfl, [item], _, .inl rfl,
    ⟨List.replicate referenceSize 0, _, List.length_replicate,
      ⟨_, [], list, rfl, (List.append_nil _).symm⟩, rfl⟩, rfl⟩

/-- A node with one child; the byte after it does not matter. -/
theorem size_nodeBytes :
    nodeView.size (nodeBytes 7 [nodeBytes 8 []] ++ [9]) = .ok 74 ∧
      nodeView.Encodes ((nodeBytes 7 [nodeBytes 8 []] ++ [9]).take 74) := by
  have returned : Registry.nodeRegistry.Returned := .inl ⟨_, _, .inl Registry.declare_nodeRegistry⟩
  have reachable : Reachable Registry.nodeRegistry nodeView :=
    .byName (rfl : Registry.nodeRegistry.viewByName "Node" = .ok nodeView)
  have addressable : (nodeBytes 7 [nodeBytes 8 []] ++ [9]).length < Offset.bound := by decide
  obtain ⟨sound, complete⟩ := size_exact returned reachable addressable
  have leaf : EncodesWithin 2 nodeView (nodeBytes 8 []) :=
    encodesWithin_nodeBytes (by decide) (List.forall_mem_nil _) 8
  have tree : EncodesWithin 4 nodeView (nodeBytes 7 [nodeBytes 8 []]) :=
    encodesWithin_nodeBytes (by decide) (List.forall_mem_singleton.mpr leaf) 7
  have within := tree.mono (by decide : 4 ≤ depthLimit + 1)
  have measured := complete 74 (by decide) within
  exact ⟨measured, (sound 74 measured).2.1⟩

end TypedObject.View
