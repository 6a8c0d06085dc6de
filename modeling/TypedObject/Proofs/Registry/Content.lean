import TypedObject.Proofs.Registry.Declared
import TypedObject.Proofs.Registry.Exactness

/-!
# The content of a registry

The canonical encoding of a registry leaves nothing out of its entries.  The decoder
for schemas is exact over any number of levels, so two schemas of one encoding are
read with as many levels as both need, and no nesting limit enters.  The entries are
then known one by one, since names and schemas are written with their lengths.
-/

namespace TypedObject

theorem Schema.ProperAt.eq_of_encode_eq
    {isRoot : Bool} {first second : Schema} (properFirst : ProperAt isRoot first)
    (properSecond : ProperAt isRoot second) (same : first.encode = second.encode) :
    first = second := by
  have readFirst : decodeWithin (first.depth + second.depth + 1) isRoot first.encode =
      .ok first := by
    apply (decodeWithin_eq_ok_iff _).mpr
    exact ⟨⟨properFirst, by omega⟩, rfl⟩
  have readSecond : decodeWithin (first.depth + second.depth + 1) isRoot first.encode =
      .ok second := by
    apply (decodeWithin_eq_ok_iff _).mpr
    exact ⟨⟨properSecond, by omega⟩, same⟩
  rw [readFirst] at readSecond
  exact Except.ok.inj readSecond

namespace Entries

/-- Formed entries of which everything fits the counts of the encoding. -/
structure Countable (entries : Entries) : Prop where
  count_fits : entries.length < Wire.countBound
  formed : ∀ entry ∈ entries, FormedEntry entry
  short : ∀ entry ∈ entries, entry.2.encode.length < Wire.countBound

theorem eq_of_encodeEntry_append_eq
    {first second : String × Schema} (formedFirst : FormedEntry first)
    (formedSecond : FormedEntry second) (shortFirst : first.2.encode.length < Wire.countBound)
    (shortSecond : second.2.encode.length < Wire.countBound) {rest rest' : Bytes}
    (same : encodeEntry first ++ rest = encodeEntry second ++ rest') :
    first = second ∧ rest = rest' := by
  simp only [encodeEntry, List.append_assoc] at same
  obtain ⟨sameName, sameLater⟩ := Reader.exact_text.unambiguous
    (formedFirst.name_fits shortFirst) (formedSecond.name_fits shortSecond) same
  obtain ⟨sameEncoding, sameRest⟩ :=
    Reader.exact_counted.unambiguous shortFirst shortSecond sameLater
  have sameSchema := Schema.ProperAt.eq_of_encode_eq (formedFirst.formed.proper shortFirst)
    (formedSecond.formed.proper shortSecond) sameEncoding
  exact ⟨Prod.ext sameName sameSchema, sameRest⟩

theorem eq_of_flatMap_encodeEntry_eq
    {first second : Entries} (sameLength : first.length = second.length)
    (formedFirst : ∀ entry ∈ first, FormedEntry entry)
    (formedSecond : ∀ entry ∈ second, FormedEntry entry)
    (shortFirst : ∀ entry ∈ first, entry.2.encode.length < Wire.countBound)
    (shortSecond : ∀ entry ∈ second, entry.2.encode.length < Wire.countBound)
    (same : first.flatMap encodeEntry = second.flatMap encodeEntry) : first = second := by
  induction first generalizing second with
  | nil => exact (List.length_eq_zero_iff.mp sameLength.symm).symm
  | cons entry first induction =>
      cases second with
      | nil => cases sameLength
      | cons entry' second =>
          obtain ⟨formedEntry, formedFirst⟩ := List.forall_mem_cons.mp formedFirst
          obtain ⟨formedEntry', formedSecond⟩ := List.forall_mem_cons.mp formedSecond
          obtain ⟨shortEntry, shortFirst⟩ := List.forall_mem_cons.mp shortFirst
          obtain ⟨shortEntry', shortSecond⟩ := List.forall_mem_cons.mp shortSecond
          simp only [List.flatMap_cons] at same
          obtain ⟨sameEntry, sameOthers⟩ := eq_of_encodeEntry_append_eq formedEntry
            formedEntry' shortEntry shortEntry' same
          rw [sameEntry, induction (Nat.succ.inj sameLength) formedFirst formedSecond shortFirst
            shortSecond sameOthers]

/-- Countable entries are known from their encoding. -/
theorem Countable.eq_of_encode_eq
    {first second : Entries} (countableFirst : first.Countable)
    (countableSecond : second.Countable) (same : first.encode = second.encode) :
    first = second := by
  obtain ⟨sameLength, sameEntries⟩ := Reader.exact_count.unambiguous
    countableFirst.count_fits countableSecond.count_fits same
  exact eq_of_flatMap_encodeEntry_eq sameLength countableFirst.formed countableSecond.formed
    countableFirst.short countableSecond.short sameEntries

end Entries

namespace Registry

/-- The registry was decoded, or declared by sound declarations and with counts that
fit the encoding. -/
inductive Sound (registry : Registry) : Prop where
  | decoded {bytes : Bytes} (accepted : decode bytes = .ok registry)
  | declared {declarations : Declarations} {calls : List (TypeExpr × String)}
      (declared : DeclaredBy declarations calls registry) (layoutsSound : declarations.Sound)
      (typesSound : ∀ call ∈ calls, call.1.Sound)
      (countFits : registry.entries.length < Wire.countBound)
      (encodingsFit : ∀ entry ∈ registry.entries, entry.2.encode.length < Wire.countBound)

theorem Sound.countable {registry : Registry} (sound : registry.Sound) :
    registry.entries.Countable := by
  cases sound with
  | decoded accepted =>
      obtain ⟨_, canonical, _⟩ := decode_eq_ok_iff.mp accepted
      exact ⟨canonical.count_fits, canonical.formed,
        fun entry member => (canonical.each entry member).encoding_fits⟩
  | declared declared layoutsSound typesSound countFits encodingsFit =>
      exact ⟨countFits, declared.formed layoutsSound typesSound, encodingsFit⟩

theorem Sound.entries_eq_of_encode_eq
    {first second : Registry} (soundFirst : first.Sound) (soundSecond : second.Sound)
    (same : first.encode = second.encode) : first.entries = second.entries :=
  soundFirst.countable.eq_of_encode_eq soundSecond.countable same

end Registry

end TypedObject
