import TypedObject.Proofs.Registry.Declared
import TypedObject.Proofs.Registry.Exactness
import TypedObject.Proofs.Schema.NestingLimit

/-!
# Declared registries on the wire

Linked entries with formed schemas are read back as they are, unless one of them is
too deep.  Only the decoder has a nesting limit, so a registry can be declared that
no one can read; reading it fails at its first deep entry.
-/

namespace TypedObject.Registry

open Entries

theorem readEntry_failsWith
    {seen : Entries} {entry : String × Schema} (formed : FormedEntry entry)
    (short : entry.2.encode.length < Wire.countBound)
    (deep : Schema.nestingLimit < entry.2.depth) (rest : Bytes) :
    Reader.FailsWith (readEntry seen) .invalidEncodedSchema (encodeEntry entry ++ rest) := by
  have refused : Schema.decode entry.2.encode = .error .invalidEncodedSchema := by
    rw [Schema.decode_encode_of_proper (formed.formed.proper short)]
    exact if_neg (Nat.not_le.mpr deep)
  refine ⟨rest, ?_⟩
  unfold readEntry encodeEntry
  rw [List.append_assoc, Reader.bind_of_ok (Reader.exact_text.reads (formed.name_fits short) _),
    Reader.bind_of_ok (Reader.exact_counted.reads short rest)]
  exact Reader.bind_of_error (by rw [Reader.lift_apply, refused])

theorem readEntries_failsWith
    {seen later : Entries} (distinct : (seen ++ later).Distinct)
    (formed : ∀ entry ∈ later, FormedEntry entry)
    (short : ∀ entry ∈ later, entry.2.encode.length < Wire.countBound)
    (deep : ∃ entry ∈ later, Schema.nestingLimit < entry.2.depth) (rest : Bytes) :
    Reader.FailsWith (readEntries seen later.length) .invalidEncodedSchema
      (later.flatMap encodeEntry ++ rest) := by
  induction later generalizing seen with
  | nil =>
      obtain ⟨entry, member, _⟩ := deep
      cases member
  | cons entry later induction =>
      obtain ⟨formedEntry, formedLater⟩ := List.forall_mem_cons.mp formed
      obtain ⟨shortEntry, shortLater⟩ := List.forall_mem_cons.mp short
      simp only [List.length_cons, readEntries, List.flatMap_cons, List.append_assoc]
      by_cases deepEntry : Schema.nestingLimit < entry.2.depth
      · obtain ⟨left, failed⟩ := readEntry_failsWith formedEntry shortEntry deepEntry
          (later.flatMap encodeEntry ++ rest)
        exact ⟨left, Reader.bind_of_error failed⟩
      · have split : seen ++ entry :: later = (seen ++ [entry]) ++ later := by simp
        rw [split] at distinct
        have readable : ReadableEntry entry :=
          ⟨formedEntry, shortEntry, Nat.le_of_not_lt deepEntry⟩
        have read := (exact_readEntry seen).reads
          ⟨readable, (distinct_append_singleton_iff.mp distinct.left).2⟩
          (later.flatMap encodeEntry ++ rest)
        have deepLater : ∃ other ∈ later, Schema.nestingLimit < other.2.depth := by
          obtain ⟨other, member, tooDeep⟩ := deep
          rcases List.mem_cons.mp member with rfl | inside
          · exact absurd tooDeep deepEntry
          · exact ⟨other, inside, tooDeep⟩
        obtain ⟨left, failed⟩ := induction distinct formedLater shortLater deepLater
        exact ⟨left, by rw [Reader.bind_of_ok read, failed]⟩

/-- The registry without its types, as far as it can be read back. -/
theorem decode_encode_of_formed
    {registry : Registry} (registered : registry.entries.Registered)
    (formed : ∀ entry ∈ registry.entries, FormedEntry entry)
    (countFits : registry.entries.length < Wire.countBound)
    (short : ∀ entry ∈ registry.entries, entry.2.encode.length < Wire.countBound) :
    decode registry.encode =
      if ∀ entry ∈ registry.entries, entry.2.depth ≤ Schema.nestingLimit then
        .ok ⟨registry.entries, none⟩
      else .error .invalidEncodedSchema := by
  have distinct := registered.increasing.distinct
  split
  · rename_i shallow
    refine decode_eq_ok_iff.mpr ⟨rfl, ⟨⟨countFits, distinct, ?_⟩, ?_, ?_⟩, rfl⟩
    · exact fun entry member =>
        ⟨formed entry member, short entry member, shallow entry member⟩
    · exact registered.increasing
    · exact registered.linked
  · rename_i notShallow
    have deep : ∃ entry ∈ registry.entries, Schema.nestingLimit < entry.2.depth := by
      simpa using notShallow
    have unread : Reader.FailsWith readAll .invalidEncodedSchema registry.encode := by
      have distinctAll : Distinct ([] ++ registry.entries) := distinct
      obtain ⟨left, failed⟩ := readEntries_failsWith distinctAll formed short deep []
      refine ⟨left, ?_⟩
      unfold readAll encode Entries.encode
      rw [Reader.bind_of_ok (Reader.exact_count.reads countFits _)]
      rw [List.append_nil] at failed
      exact failed
    obtain ⟨left, failed⟩ := unread
    rw [decode, Reader.whole_of_error failed]
    rfl

/-- A declared registry survives the wire exactly up to the nesting limit, and what is
read back has the same content. -/
theorem decode_encode_of_declaredBy
    {declarations : Declarations} {calls : List (TypeExpr × String)} {registry : Registry}
    (declared : DeclaredBy declarations calls registry) (layoutsSound : declarations.Sound)
    (typesSound : ∀ call ∈ calls, call.1.Sound)
    (countFits : registry.entries.length < Wire.countBound)
    (encodingsFit : ∀ entry ∈ registry.entries, entry.2.encode.length < Wire.countBound) :
    ((∃ decoded, decode registry.encode = .ok decoded) ↔
      ∀ entry ∈ registry.entries, entry.2.depth ≤ Schema.nestingLimit) ∧
    ((∃ entry ∈ registry.entries, Schema.nestingLimit < entry.2.depth) →
      decode registry.encode = .error .invalidEncodedSchema) ∧
    ∀ decoded, decode registry.encode = .ok decoded →
      decoded.isBuildCapable = false ∧
      decoded.reference = registry.reference ∧
      decoded.names = registry.names ∧
      (∀ name, decoded.schemaReference name = registry.schemaReference name) ∧
      (∀ name, decoded.schemaByName name = registry.schemaByName name) ∧
      decoded.encode = registry.encode := by
  have outcome := decode_encode_of_formed declared.registered
    (declared.formed layoutsSound typesSound) countFits encodingsFit
  by_cases shallow : ∀ entry ∈ registry.entries, entry.2.depth ≤ Schema.nestingLimit
  · rw [if_pos shallow] at outcome
    refine ⟨⟨fun _ => shallow, fun _ => ⟨_, outcome⟩⟩, ?_, ?_⟩
    · intro deep
      obtain ⟨entry, member, tooDeep⟩ := deep
      exact absurd (shallow entry member) (Nat.not_le.mpr tooDeep)
    · intro decoded accepted
      rw [outcome] at accepted
      cases accepted
      exact ⟨rfl, rfl, rfl, fun _ => rfl, fun _ => rfl, rfl⟩
  · rw [if_neg shallow] at outcome
    refine ⟨⟨fun accepted => ?_, fun shallow' => absurd shallow' shallow⟩, fun _ => outcome, ?_⟩
    · obtain ⟨decoded, same⟩ := accepted
      rw [outcome] at same
      cases same
    · intro decoded accepted
      rw [outcome] at accepted
      cases accepted

theorem decode_encode_nodeRegistry :
    ∃ decoded, decode nodeRegistry.encode = .ok decoded ∧ decoded.names = ["Node"] ∧
      decoded.schemaByName "Node" = .ok nodeSchema := by
  have layoutsSound : nodeDeclarations.Sound := by
    intro declaration member
    cases List.mem_singleton.mp member
    intro field inside
    simp only [nodeFields, List.mem_cons, List.not_mem_nil, or_false] at inside
    rcases inside with rfl | rfl | rfl
    · rfl
    · trivial
    · trivial
  have typesSound : ∀ call ∈ nodeCalls, call.1.Sound := by
    intro call member
    cases List.mem_singleton.mp member
    trivial
  obtain ⟨readable, _, same⟩ := decode_encode_of_declaredBy (.inl declare_nodeRegistry)
    layoutsSound typesSound (by decide) (by decide +kernel)
  obtain ⟨decoded, accepted⟩ := readable.mpr (by decide)
  obtain ⟨_, _, sameNames, _, sameSchemas, _⟩ := same decoded accepted
  exact ⟨decoded, accepted, sameNames, sameSchemas "Node"⟩

end TypedObject.Registry
