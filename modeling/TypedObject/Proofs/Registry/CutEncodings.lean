import TypedObject.Proofs.Registry.Declared
import TypedObject.Proofs.Registry.Exactness
import TypedObject.Proofs.Wire.Delimited

/-!
# Encodings that were cut short or extended

Schemas and registries are written with the lengths of all that they contain, and what is
inside is decoded only when it was read in full.  So the checks on an accepted encoding
find the same bytes when its end is missing, and the decoder gets as far as the first
read that reaches beyond the end.  Bytes behind the encoding are noticed before anything
is made of what was read.
-/

namespace TypedObject

namespace Schema

open Reader

theorem delimited_readKind (reference? : Option ReferenceKind) :
    (do
      let kindCode ← word
      match Kind.ofCode? kindCode with
      | some kind => return (reference?, kind)
      | none => fail .invalidEncodedSchema : Reader (Option ReferenceKind × Kind)).Delimited := by
  apply delimited_word.bind
  intro kindCode
  cases Kind.ofCode? kindCode with
  | some kind => exact delimited_pure _
  | none => exact delimited_fail _

theorem delimited_readCodes : readCodes.Delimited := by
  apply delimited_word.bind
  intro referenceCode
  cases ReferenceKind.ofCode referenceCode with
  | notReference => exact (delimited_pure none).bind delimited_readKind
  | known kind => exact (delimited_pure (some kind)).bind delimited_readKind
  | unknown => exact (delimited_fail _).bind delimited_readKind

variable (readNested : Bytes → Except SchemaError Schema)

theorem delimited_readNode : (readNode readNested).Delimited := by
  apply delimited_readCodes.bind
  intro codes
  apply delimited_text.bind
  intro name
  apply delimited_count.bind
  intro length
  apply delimited_count.bind
  intro fieldCount
  apply Delimited.bind
  · apply delimited_times
    exact delimited_counted.bind fun field => delimited_lift _
  · intro fields
    apply delimited_counted.bind
    intro elem
    exact delimited_pure _

end Schema

namespace Registry

open Reader

theorem delimited_readEntry (seen : Entries) : (readEntry seen).Delimited := by
  apply delimited_text.bind
  intro name
  apply delimited_counted.bind
  intro encoded
  apply (delimited_lift _).bind
  intro schema
  split
  · exact delimited_fail _
  · exact delimited_pure _

theorem delimited_readEntries (seen : Entries) (count : Nat) :
    (readEntries seen count).Delimited := by
  induction count generalizing seen with
  | zero => exact delimited_pure seen
  | succ count induction =>
      apply (delimited_readEntry seen).bind
      intro entry
      exact induction (seen ++ [entry])

theorem delimited_readAll : readAll.Delimited :=
  delimited_count.bind (delimited_readEntries [])

/-- An accepted encoding of a schema or of a registry that is cut short ends too early,
wherever it is cut, and with anything behind it it is no encoding. -/
theorem accepted_selfDelimiting :
    (∀ bytes schema, Schema.decode bytes = .ok schema →
      Wire.SelfDelimiting Schema.decode bytes) ∧
    ∀ bytes registry, decode bytes = .ok registry → Wire.SelfDelimiting decode bytes := by
  constructor
  · intro bytes schema accepted
    obtain ⟨node, read, _⟩ := Outcome.bind_eq_ok_iff.mp accepted
    apply Wire.selfDelimiting_of_whole (Schema.delimited_readNode _) _ read
    intro bytes error failed
    exact Outcome.bind_eq_error_iff.mpr (.inl failed)
  · intro bytes registry accepted
    obtain ⟨entries, read, _⟩ := Outcome.bind_eq_ok_iff.mp accepted
    apply Wire.selfDelimiting_of_whole delimited_readAll _ read
    intro bytes error failed
    exact Outcome.bind_eq_error_iff.mpr (.inl failed)

/-- A schema cut in its name, and a registry cut in the schema of its only entry. -/
theorem nodeRegistry_cut_and_extended :
    (∃ need available, available < need ∧
      Schema.decode (nodeSchema.encode.take 14) = .error (.unexpectedEnd need available)) ∧
    Schema.decode (nodeSchema.encode ++ [0]) = .error .invalidEncodedSchema ∧
    (∃ need available, available < need ∧
      decode (nodeRegistry.encode.take 30) = .error (.unexpectedEnd need available)) ∧
    decode (nodeRegistry.encode ++ [0]) = .error .invalidEncodedSchema := by
  have canonical : nodeRegistry.entries.Canonical := by decide +kernel
  have readable := canonical.each _ List.mem_cons_self
  have schemaRead : Schema.decode nodeSchema.encode = .ok nodeSchema :=
    Schema.decode_eq_ok_iff.mpr ⟨⟨readable.proper, readable.shallow⟩, rfl⟩
  have read : decode nodeRegistry.encode = .ok ⟨nodeRegistry.entries, none⟩ :=
    decode_eq_ok_iff.mpr ⟨rfl, canonical, rfl⟩
  have schemaEnds := accepted_selfDelimiting.1 _ _ schemaRead
  have registryEnds := accepted_selfDelimiting.2 _ _ read
  exact ⟨schemaEnds.cut 14 (by decide +kernel), schemaEnds.extended [0] nofun,
    registryEnds.cut 30 (by decide +kernel), registryEnds.extended [0] nofun⟩

end Registry

end TypedObject
