import TypedObject.Proofs.Registry.Linking
import TypedObject.Proofs.Schema.Exactness
import TypedObject.Proofs.Text.ByteOrder
import TypedObject.Registry.Decode

/-!
# Decoding accepts exactly the canonical registries

The entries are read first, whatever their order and the kinds of their
placeholders.  Linking then keeps everything that reading asks for, so writing the
linked entries gives the bytes again only when linking changed nothing, that is,
when the entries were in order and their placeholders had the right kinds.
-/

namespace TypedObject

namespace Entries

/-- An entry as it is written. -/
def encodeEntry (entry : String × Schema) : Bytes :=
  Wire.text entry.1 ++ Wire.counted entry.2.encode

/-- What is asked of one entry. -/
structure ReadableEntry (entry : String × Schema) : Prop extends FormedEntry entry where
  encoding_fits : entry.2.encode.length < Wire.countBound
  shallow : entry.2.depth ≤ Schema.nestingLimit

/-- What is asked of the entries before they are linked. -/
structure Readable (entries : Entries) : Prop where
  count_fits : entries.length < Wire.countBound
  distinct : entries.Distinct
  each : ∀ entry ∈ entries, ReadableEntry entry

/-- Entries that have a canonical encoding. -/
structure Canonical (entries : Entries) : Prop extends Readable entries where
  increasing : entries.Increasing
  linked : entries.Linked

instance (entry : String × Schema) : Decidable (ReadableEntry entry) :=
  decidable_of_iff (FormedEntry entry ∧ entry.2.encode.length < Wire.countBound ∧
    entry.2.depth ≤ Schema.nestingLimit)
    ⟨fun ⟨formed, fits, shallow⟩ => ⟨formed, fits, shallow⟩,
      fun ⟨formed, fits, shallow⟩ => ⟨formed, fits, shallow⟩⟩

instance (entries : Entries) : Decidable entries.Readable :=
  decidable_of_iff (entries.length < Wire.countBound ∧ entries.Distinct ∧
    ∀ entry ∈ entries, ReadableEntry entry)
    ⟨fun ⟨fits, distinct, each⟩ => ⟨fits, distinct, each⟩,
      fun ⟨fits, distinct, each⟩ => ⟨fits, distinct, each⟩⟩

instance (entries : Entries) : Decidable entries.Canonical :=
  decidable_of_iff (entries.Readable ∧ entries.Increasing ∧ entries.Linked)
    ⟨fun ⟨readable, increasing, linked⟩ => ⟨readable, increasing, linked⟩,
      fun ⟨readable, increasing, linked⟩ => ⟨readable, increasing, linked⟩⟩

theorem ReadableEntry.proper
    {entry : String × Schema} (readable : ReadableEntry entry) :
    Schema.ProperAt true entry.2 :=
  readable.formed.proper readable.encoding_fits

theorem FormedEntry.name_fits
    {entry : String × Schema} (formed : FormedEntry entry)
    (short : entry.2.encode.length < Wire.countBound) : Wire.FitsText entry.1 := by
  have nameFits : Wire.FitsText (entry.2.name?.getD "") := (formed.formed.proper short).1.fits.1
  rw [formed.own_name] at nameFits
  exact nameFits

theorem Readable.formed
    {entries : Entries} (readable : entries.Readable) : ∀ entry ∈ entries, FormedEntry entry :=
  fun entry member => (readable.each entry member).toFormedEntry

theorem Canonical.registered
    {entries : Entries} (canonical : entries.Canonical) : entries.Registered :=
  ⟨canonical.increasing, fun entry member => (canonical.formed entry member).full,
    canonical.linked⟩

theorem Readable.relabel
    {entries : Entries} (readable : entries.Readable) : entries.relabel.Readable := by
  refine ⟨?_, readable.distinct.relabel, ?_⟩
  · rw [Entries.relabel, List.length_map]
    exact readable.count_fits
  · intro entry member
    obtain ⟨before, inside, rfl⟩ := List.mem_map.mp member
    have readableBefore := readable.each before inside
    refine ⟨formedEntry_relabel readable.formed _ member, ?_, ?_⟩
    · rw [(Schema.length_encode_relabel before.2).1]
      exact readableBefore.encoding_fits
    · rw [Schema.depth_relabel]
      exact readableBefore.shallow

theorem Readable.perm
    {entries entries' : Entries} (readable : entries.Readable) (same : entries.Perm entries') :
    entries'.Readable := by
  refine ⟨?_, readable.distinct.perm same, ?_⟩
  · rw [← same.length_eq]
    exact readable.count_fits
  · intro entry member
    exact readable.each entry (same.mem_iff.mpr member)

end Entries

namespace Registry

open Entries

theorem exact_readEntry (seen : Entries) :
    Reader.Exact (readEntry seen)
      (fun entry => ReadableEntry entry ∧ seen.lookup entry.1 = none) encodeEntry := by
  intro bytes entry rest
  unfold readEntry
  rw [Reader.bind_eq_ok_iff]
  simp only [Reader.exact_text bytes, Reader.bind_eq_ok_iff, Reader.lift_eq_ok_iff,
    Schema.decode_eq_ok_iff]
  constructor
  · intro found
    obtain ⟨name, middle, ⟨nameFits, rfl⟩, encoded, middle', encodedRead, schema, middle'',
      ⟨⟨⟨proper, shallow⟩, rfl⟩, rfl⟩, checked⟩ := found
    obtain ⟨encodingFits, rfl⟩ := (Reader.exact_counted _ _ _).mp encodedRead
    split at checked
    · cases checked
    · rename_i accepted
      simp only [not_or, Decidable.not_not, Bool.not_eq_true, Option.isSome_eq_false_iff,
        Option.isNone_iff_eq_none] at accepted
      obtain ⟨nonempty, own, full, fresh⟩ := accepted
      obtain ⟨rfl, rfl⟩ := Reader.pure_eq_ok_iff.mp checked
      exact ⟨⟨⟨⟨nonempty, own, proper.formed⟩, encodingFits, shallow⟩, fresh⟩,
        by rw [encodeEntry, List.append_assoc]⟩
  · intro found
    obtain ⟨⟨readable, fresh⟩, rfl⟩ := found
    obtain ⟨name, schema⟩ := entry
    refine ⟨name, _, ⟨readable.name_fits readable.encoding_fits, by rw [encodeEntry, List.append_assoc]⟩,
      schema.encode, rest, Reader.exact_counted.reads readable.encoding_fits rest, schema, rest,
      ⟨⟨⟨readable.proper, readable.shallow⟩, rfl⟩, rfl⟩, ?_⟩
    rw [if_neg]
    · rfl
    · have own : schema.name? = some name := readable.own_name
      have full : schema.isPlaceholder = false := readable.full
      have nonempty : name ≠ "" := readable.name_nonempty
      simp [own, full, nonempty, fresh]

theorem readEntries_eq_ok_iff
    {seen entries : Entries} (distinct : seen.Distinct) {count : Nat} {bytes rest : Bytes} :
    readEntries seen count bytes = (.ok entries, rest) ↔
      ∃ later, entries = seen ++ later ∧ later.length = count ∧ entries.Distinct ∧
        (∀ entry ∈ later, ReadableEntry entry) ∧ bytes = later.flatMap encodeEntry ++ rest := by
  induction count generalizing seen bytes with
  | zero =>
      rw [readEntries, Reader.pure_eq_ok_iff]
      constructor
      · intro found
        obtain ⟨rfl, rfl⟩ := found
        exact ⟨[], by simp, rfl, distinct, nofun, rfl⟩
      · intro found
        obtain ⟨later, rfl, none, _, _, rfl⟩ := found
        cases List.length_eq_zero_iff.mp none
        simp
  | succ count induction =>
      rw [readEntries, Reader.bind_eq_ok_iff]
      simp only [exact_readEntry seen bytes]
      constructor
      · intro found
        obtain ⟨entry, middle, ⟨⟨readable, fresh⟩, rfl⟩, continued⟩ := found
        have grown : (seen ++ [entry]).Distinct :=
          distinct_append_singleton_iff.mpr ⟨distinct, fresh⟩
        obtain ⟨later, rfl, length, distinctAll, each, rfl⟩ := (induction grown).mp continued
        refine ⟨entry :: later, by simp, by simp [length], distinctAll, ?_, by simp⟩
        exact List.forall_mem_cons.mpr ⟨readable, each⟩
      · intro found
        obtain ⟨later, rfl, length, distinctAll, each, rfl⟩ := found
        cases later with
        | nil => cases length
        | cons entry later =>
            obtain ⟨readable, others⟩ := List.forall_mem_cons.mp each
            have split : seen ++ entry :: later = (seen ++ [entry]) ++ later := by simp
            rw [split] at distinctAll
            have grown : (seen ++ [entry]).Distinct := distinctAll.left
            have fresh := (distinct_append_singleton_iff.mp grown).2
            refine ⟨entry, later.flatMap encodeEntry ++ rest, ⟨⟨readable, fresh⟩, by simp⟩, ?_⟩
            exact (induction grown).mpr
              ⟨later, split, Nat.succ.inj length, by rw [split]; exact distinctAll, others, rfl⟩

/-- What is read back is what was written, if the entries can be read at all. -/
theorem whole_readAll_eq_ok_iff
    {bytes : Bytes} {entries : Entries} :
    Reader.whole readAll bytes = .ok entries ↔ entries.Readable ∧ bytes = entries.encode := by
  have none : Entries.Distinct [] := List.nodup_nil
  rw [Reader.whole_eq_ok_iff]
  unfold readAll
  rw [Reader.bind_eq_ok_iff]
  simp only [Reader.exact_count bytes, readEntries_eq_ok_iff none, List.nil_append,
    List.append_nil]
  constructor
  · intro found
    obtain ⟨count, middle, ⟨fits, rfl⟩, later, rfl, rfl, distinct, each, rfl⟩ := found
    exact ⟨⟨fits, distinct, each⟩, rfl⟩
  · intro found
    obtain ⟨⟨fits, distinct, each⟩, rfl⟩ := found
    exact ⟨entries.length, _, ⟨fits, rfl⟩, entries, rfl, rfl, distinct, each, rfl⟩

/-- The only registry with an accepted encoding is the one that was encoded: what linking
makes of entries is readable again, so equal bytes mean equal entries. -/
theorem decode_eq_ok_iff
    {bytes : Bytes} {registry : Registry} :
    decode bytes = .ok registry ↔
      registry.types? = none ∧ registry.entries.Canonical ∧ bytes = registry.encode := by
  unfold decode
  rw [Outcome.bind_eq_ok_iff]
  simp only [whole_readAll_eq_ok_iff, Outcome.bind_eq_ok_iff]
  constructor
  · intro found
    obtain ⟨entries, ⟨readable, rfl⟩, linked, link, checked⟩ := found
    obtain ⟨closed, rfl⟩ := readable.distinct.link_eq_ok_iff.mp link
    split at checked
    · rename_i same
      cases checked
      have linkedReadable : entries.relabel.sorted.Readable :=
        readable.relabel.perm entries.relabel.perm_sorted.symm
      have first := whole_readAll_eq_ok_iff.mpr ⟨readable, rfl⟩
      have second := whole_readAll_eq_ok_iff.mpr ⟨linkedReadable, rfl⟩
      have sameBytes : entries.relabel.sorted.encode = entries.encode := same
      rw [sameBytes, first] at second
      have sameEntries : entries = entries.relabel.sorted := Except.ok.inj second
      have unchanged :=
        (relabel_sorted_eq_self_iff closed readable.distinct).mp sameEntries.symm
      rw [← sameEntries]
      exact ⟨rfl, ⟨readable, unchanged.1, unchanged.2⟩, rfl⟩
    · cases checked
  · intro found
    obtain ⟨entries, types?⟩ := registry
    obtain ⟨untyped, canonical, rfl⟩ := found
    cases untyped
    have unchanged :=
      (relabel_sorted_eq_self_iff canonical.linked.closed canonical.distinct).mpr
        ⟨canonical.increasing, canonical.linked⟩
    refine ⟨entries, ⟨canonical.toReadable, rfl⟩, ⟨entries, none⟩, ?_, if_pos rfl⟩
    exact canonical.distinct.link_eq_ok_iff.mpr ⟨canonical.linked.closed, by rw [unchanged]⟩

end Registry

end TypedObject
