import TypedObject.Proofs.Registry.Exactness

/-!
# The canonical form of a registry

The canonical form is described on the bytes, without linking, sorting or writing
anything: which entries stand in which order, what each of them decodes to, and
where placeholders lead.
-/

namespace TypedObject.Registry

/-- An entry of an encoded registry, with the schema that its bytes decode to. -/
structure WrittenEntry where
  name : String
  encoded : Bytes
  schema : Schema

/-- The bytes are a canonical registry with the given entries. -/
structure CanonicalForm (bytes : Bytes) (entries : List WrittenEntry) : Prop where
  written : bytes = Wire.count entries.length ++
    entries.flatMap fun entry => Wire.text entry.name ++ Wire.counted entry.encoded
  counts_fit : entries.length < Wire.countBound ∧
    ∀ entry ∈ entries, Wire.FitsText entry.name ∧ entry.encoded.length < Wire.countBound
  names_nonempty : ∀ entry ∈ entries, entry.name ≠ ""
  names_increasing : entries.Pairwise fun first later =>
    Bytes.ofText first.name < Bytes.ofText later.name
  decoded : ∀ entry ∈ entries,
    Schema.decode entry.encoded = .ok entry.schema ∧ entry.schema.name? = some entry.name
  linked : ∀ entry ∈ entries, ∀ kind name, .placeholder kind name ∈ entry.schema.nodes →
    ∃ target ∈ entries, target.name = name ∧ target.schema.kind = kind

/-- The registry of written entries, which knows no types. -/
def ofWritten (entries : List WrittenEntry) : Registry :=
  ⟨entries.map fun entry => (entry.name, entry.schema), none⟩

theorem encode_ofWritten
    {bytes : Bytes} {entries : List WrittenEntry} (canonical : CanonicalForm bytes entries) :
    (ofWritten entries).encode = bytes := by
  rw [canonical.written]
  unfold encode Entries.encode ofWritten
  rw [List.length_map, List.flatMap_map]
  congr 1
  apply List.flatMap_congr
  intro entry member
  rw [(Schema.decode_eq_ok_iff.mp (canonical.decoded entry member).1).2]

theorem canonical_ofWritten
    {bytes : Bytes} {entries : List WrittenEntry} (canonical : CanonicalForm bytes entries) :
    (ofWritten entries).entries.Canonical := by
  have increasing : (ofWritten entries).entries.Increasing := by
    apply List.pairwise_map.mpr
    exact canonical.names_increasing.imp fun less => Bytes.ofText_lt_iff.mp less
  refine ⟨⟨?_, increasing.distinct, ?_⟩, increasing, ?_⟩
  · rw [ofWritten, List.length_map]
    exact canonical.counts_fit.1
  · intro entry member
    obtain ⟨written, inside, rfl⟩ := List.mem_map.mp member
    have encodingFits := (canonical.counts_fit.2 written inside).2
    obtain ⟨decoded, own⟩ := canonical.decoded written inside
    obtain ⟨⟨proper, shallow⟩, same⟩ := Schema.decode_eq_ok_iff.mp decoded
    rw [same] at encodingFits
    exact ⟨⟨canonical.names_nonempty written inside, own, proper.formed⟩, encodingFits, shallow⟩
  · intro entry member mention inside
    obtain ⟨written, within, rfl⟩ := List.mem_map.mp member
    obtain ⟨target, targetWithin, named, kind⟩ := canonical.linked written within
      mention.1 mention.2 (Schema.mem_placeholders_iff.mp inside)
    have found := increasing.distinct.lookup_eq_some_iff.mpr
      (List.mem_map_of_mem targetWithin)
    rw [named] at found
    rw [Entries.kindOf?, found, Option.map_some, kind]

theorem canonicalForm_of_canonical
    {entries : Entries} (canonical : entries.Canonical) :
    CanonicalForm entries.encode
      (entries.map fun entry => ⟨entry.1, entry.2.encode, entry.2⟩) := by
  constructor
  · rw [Entries.encode, List.length_map, List.flatMap_map]
  · refine ⟨by rw [List.length_map]; exact canonical.count_fits, ?_⟩
    intro written member
    obtain ⟨entry, inside, rfl⟩ := List.mem_map.mp member
    have readable := canonical.each entry inside
    exact ⟨readable.name_fits readable.encoding_fits, readable.encoding_fits⟩
  · intro written member
    obtain ⟨entry, inside, rfl⟩ := List.mem_map.mp member
    exact (canonical.each entry inside).name_nonempty
  · apply List.pairwise_map.mpr
    exact canonical.increasing.imp fun less => Bytes.ofText_lt_iff.mpr less
  · intro written member
    obtain ⟨entry, inside, rfl⟩ := List.mem_map.mp member
    have readable := canonical.each entry inside
    exact ⟨Schema.decode_eq_ok_iff.mpr ⟨⟨readable.proper, readable.shallow⟩, rfl⟩,
      readable.own_name⟩
  · intro written member kind name within
    obtain ⟨entry, inside, rfl⟩ := List.mem_map.mp member
    have known := canonical.linked entry inside (kind, name)
      (Schema.mem_placeholders_iff.mpr within)
    obtain ⟨schema, found, sameKind⟩ := Option.map_eq_some_iff.mp known
    exact ⟨⟨name, schema.encode, schema⟩,
      List.mem_map_of_mem (Lookup.mem_of_lookup found), rfl, sameKind⟩

/-- The decoder accepts exactly the canonical registries, and returns the entries that
were written. -/
theorem decode_eq_ok_iff_canonicalForm (bytes : Bytes) :
    (∀ registry, decode bytes = .ok registry ↔
      ∃ entries, CanonicalForm bytes entries ∧ registry = ofWritten entries) ∧
    ∀ entries, CanonicalForm bytes entries →
      (ofWritten entries).names = entries.map (·.name) ∧
      (∀ entry ∈ entries, (ofWritten entries).schemaByName entry.name = .ok entry.schema) ∧
      (ofWritten entries).encode = bytes ∧
      (ofWritten entries).reference = .ofContent .registry bytes := by
  constructor
  · intro registry
    rw [decode_eq_ok_iff]
    constructor
    · intro found
      obtain ⟨entries, types?⟩ := registry
      obtain ⟨untyped, canonical, rfl⟩ := found
      cases untyped
      refine ⟨_, canonicalForm_of_canonical canonical, ?_⟩
      simp [ofWritten, Function.comp_def]
    · intro found
      obtain ⟨entries, canonical, rfl⟩ := found
      exact ⟨rfl, canonical_ofWritten canonical, (encode_ofWritten canonical).symm⟩
  · intro entries canonical
    have encoded := encode_ofWritten canonical
    refine ⟨?_, ?_, encoded, ?_⟩
    · simp [names, ofWritten, Function.comp_def]
    · intro entry member
      have distinct := (canonical_ofWritten canonical).distinct
      have found := distinct.lookup_eq_some_iff.mpr (List.mem_map_of_mem member)
      rw [schemaByName, schema?, found]
    · rw [reference, encoded]

/-- A registry in which a struct refers to itself and holds another entry. -/
def listEntries : List WrittenEntry :=
  let item : Schema := .scalar .uint8 (some "Item")
  let node : Schema := .struct (some "Node")
    [⟨"item", "", .placeholder .uint8 "Item"⟩, ⟨"next", "", .referenceTo .single "Node"⟩]
  [⟨"Item", item.encode, item⟩, ⟨"Node", node.encode, node⟩]

private theorem canonicalForm_listEntries :
    CanonicalForm (ofWritten listEntries).encode listEntries := by
  constructor
  · rfl
  · exact ⟨by decide, by decide +kernel⟩
  · decide
  · decide
  · intro entry member
    simp only [listEntries, List.mem_cons, List.not_mem_nil, or_false] at member
    rcases member with rfl | rfl
    · exact ⟨rfl, rfl⟩
    · exact ⟨by decide +kernel, rfl⟩
  · intro entry member kind name within
    simp only [listEntries, List.mem_cons, List.not_mem_nil, or_false] at member
    rcases member with rfl | rfl
    · simp [Schema.nodes, Schema.descendants] at within
    · simp only [Schema.nodes, Schema.descendants, Schema.descendantsOfFields, Schema.referenceTo,
        List.mem_cons, List.cons_append, List.nil_append, List.not_mem_nil, or_false, reduceCtorEq,
        false_or, Schema.placeholder.injEq] at within
      rcases within with ⟨rfl, rfl⟩ | ⟨rfl, rfl⟩
      · exact ⟨_, List.mem_cons_self, rfl, rfl⟩
      · exact ⟨_, List.mem_cons_of_mem _ List.mem_cons_self, rfl, rfl⟩

theorem decode_listEntries :
    decode (ofWritten listEntries).encode = .ok (ofWritten listEntries) ∧
      (ofWritten listEntries).names = ["Item", "Node"] := by
  have accepted := (decode_eq_ok_iff_canonicalForm (ofWritten listEntries).encode).1
  have facts := (decode_eq_ok_iff_canonicalForm (ofWritten listEntries).encode).2
  constructor
  · exact (accepted _).mpr ⟨listEntries, canonicalForm_listEntries, rfl⟩
  · exact (facts listEntries canonicalForm_listEntries).1

end TypedObject.Registry
