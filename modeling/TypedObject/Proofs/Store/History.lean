import TypedObject.Proofs.Outcome
import TypedObject.Store.Pack

/-!
# The history of a store

A store is what operations have made of an empty one.  Under each reference it holds
what was written there first, whoever wrote it; flags do not matter.  So bytes that
are added are read back from then on, unless their reference was taken before by
other bytes: what is stored never changes, and the add then writes nothing.
-/

namespace TypedObject

namespace Store

/-- What a caller can do to a store. -/
inductive Operation where
  | set (reference : Reference) (bytes : Bytes)
  | add (bytes : Bytes)
  | setFlags (flags : Flags)
  | unsetFlags (flags : Flags)

/-- What an operation writes, and under which reference. -/
def Operation.write? : Operation → Option (Reference × Bytes)
  | set reference bytes => some (reference, bytes)
  | add bytes => some (referenceOf bytes, bytes)
  | setFlags _ | unsetFlags _ => none

def apply (store : Store) : Operation → Store
  | .set reference bytes => store.set reference bytes
  | .add bytes => (store.add bytes).2
  | .setFlags flags => store.setFlags flags
  | .unsetFlags flags => store.unsetFlags flags

def run (store : Store) (operations : List Operation) : Store := operations.foldl apply store

/-- Everything that operations write, in order. -/
def writes (operations : List Operation) : List (Reference × Bytes) :=
  operations.filterMap Operation.write?

/-- Looking up, a write counts as if it came last, even where it has no effect. -/
theorem get?_set (store : Store) (reference : Reference) (bytes : Bytes) (other : Reference) :
    (store.set reference bytes).get? other =
      (store.objects ++ [(reference, bytes)]).lookup other := by
  unfold set
  split
  · rename_i taken
    obtain ⟨earlier, found⟩ := Option.isSome_iff_exists.mp taken
    rw [get?] at found ⊢
    rw [List.lookup_append]
    by_cases same : other = reference
    · rw [same, found, Option.some_or]
    · have unequal : (other == reference) = false := by simpa using same
      rw [List.lookup_cons, unequal, List.lookup_nil, Option.or_none]
  · rfl

theorem get?_apply (store : Store) (operation : Operation) (reference : Reference) :
    (store.apply operation).get? reference =
      (store.get? reference).or (operation.write?.toList.lookup reference) := by
  cases operation with
  | set written bytes =>
      rw [apply, get?_set, List.lookup_append]
      rfl
  | add bytes =>
      rw [apply, add, get?_set, List.lookup_append]
      rfl
  | setFlags flags => exact Option.or_none.symm
  | unsetFlags flags => exact Option.or_none.symm

/-- After operations a store holds what it held before, and else their first write. -/
theorem get?_run (store : Store) (operations : List Operation) (reference : Reference) :
    (store.run operations).get? reference =
      (store.get? reference).or ((writes operations).lookup reference) := by
  induction operations generalizing store with
  | nil => exact Option.or_none.symm
  | cons operation operations induction =>
      have others : (store.run (operation :: operations)) = (store.apply operation).run operations :=
        rfl
      have split : writes (operation :: operations) =
          operation.write?.toList ++ writes operations := by
        rw [writes, List.filterMap_cons]
        cases operation.write? <;> rfl
      rw [others, induction, get?_apply, split, List.lookup_append, Option.or_assoc]

theorem get?_run_empty (flags : Flags) (operations : List Operation) (reference : Reference) :
    ((empty flags).run operations).get? reference = (writes operations).lookup reference := by
  rw [get?_run]
  exact Option.none_or

end Store

namespace Pack

open Store

/-- The pack after operations on its store. -/
def after (pack : Pack) (operations : List Operation) : Pack :=
  { pack with store := pack.store.run operations }

/-- The bytes were stored, as they are or as the encoding of a value, and the caller was
given the reference. -/
inductive Acknowledges (pack : Pack) (bytes : Bytes) : Reference → Pack → Prop where
  | add : Acknowledges pack bytes (pack.store.add bytes).1
      { pack with store := (pack.store.add bytes).2 }
  | save {datum : Datum} (encodes : datum.encode = bytes) :
      Acknowledges pack bytes (pack.save datum).1 (pack.save datum).2

theorem Acknowledges.eq
    {pack pack' : Pack} {bytes : Bytes} {reference : Reference}
    (acknowledged : pack.Acknowledges bytes reference pack') :
    reference = referenceOf bytes ∧ pack' = pack.after [.add bytes] := by
  cases acknowledged with
  | add => exact ⟨rfl, rfl⟩
  | save encodes =>
      rw [← encodes]
      exact ⟨rfl, rfl⟩

/-- What was acknowledged is held from then on, unless something was held before. -/
theorem Acknowledges.get?_after
    {pack pack' : Pack} {bytes : Bytes} {reference : Reference}
    (acknowledged : pack.Acknowledges bytes reference pack') (later : List Operation) :
    (pack'.after later).store.get? reference =
      (pack.store.get? reference).or (some bytes) := by
  obtain ⟨rfl, rfl⟩ := acknowledged.eq
  have written : (writes (.add bytes :: later)).lookup (referenceOf bytes) = some bytes := by
    change List.lookup (referenceOf bytes) ((referenceOf bytes, bytes) :: writes later) = _
    rw [List.lookup_cons, beq_self_eq_true]
  have held := pack.store.get?_run (.add bytes :: later) (referenceOf bytes)
  rw [written] at held
  exact held

theorem object_of_get?
    {pack : Pack} {reference : Reference} {bytes : Bytes}
    (found : pack.store.get? reference = some bytes) :
    pack.object reference =
      if referenceOf bytes = reference then .ok bytes
      else .error (.hashMismatch reference (referenceOf bytes)) := by
  simp only [object, Store.get, found, bind, Except.bind]

/-- Bytes whose storing was acknowledged are read back from then on exactly when the first
write under their reference, if there was one before, wrote them too.  Otherwise every
read answers for the bytes of that first write. -/
theorem acknowledged_object_iff
    {registry : Registry} {flags : Flags} {history : List Operation} {bytes : Bytes}
    {reference : Reference} {pack : Pack}
    (acknowledged : Acknowledges ⟨registry, (empty flags).run history⟩ bytes reference pack)
    (later : List Operation) :
    ((pack.after later).object reference = .ok bytes ↔
      ∀ first, (writes history).lookup reference = some first → first = bytes) ∧
    ∀ first, (writes history).lookup reference = some first →
      (pack.after later).object reference =
        if referenceOf first = reference then .ok first
        else .error (.hashMismatch reference (referenceOf first)) := by
  have own : referenceOf bytes = reference := acknowledged.eq.1.symm
  have held := acknowledged.get?_after later
  rw [get?_run_empty] at held
  cases earlier : (writes history).lookup reference with
  | none =>
      rw [earlier, Option.none_or] at held
      have readBack := object_of_get? held
      rw [if_pos own] at readBack
      exact ⟨⟨fun _ => nofun, fun _ => readBack⟩, nofun⟩
  | some first =>
      rw [earlier, Option.some_or] at held
      have answer := object_of_get? held
      refine ⟨⟨?_, ?_⟩, ?_⟩
      · intro readBack other same
        cases same
        rw [answer] at readBack
        split at readBack
        · exact Except.ok.inj readBack
        · cases readBack
      · intro same
        rw [answer, same first rfl, if_pos own]
      · intro other same
        cases same
        exact answer

/-- A pack whose store holds bytes under a reference that is not theirs. -/
def strayPack (reference : Reference) : Pack :=
  ⟨⟨[], none⟩, (empty .all).run [.set reference [2], .unsetFlags .all]⟩

theorem object_added_beside_stray :
    Acknowledges (strayPack .blank) [1] (referenceOf [1])
      ((strayPack .blank).after [.add [1]]) ∧
    (((strayPack .blank).after [.add [1]]).after
      [.set (referenceOf [1]) [3], .add [4]]).object (referenceOf [1]) = .ok [1] := by
  have added : Acknowledges (strayPack .blank) [1] (referenceOf [1])
      ((strayPack .blank).after [.add [1]]) := .add
  refine ⟨added, ?_⟩
  apply (acknowledged_object_iff added _).1.mpr
  intro first taken
  have free : (writes [.set .blank [2], .unsetFlags .all]).lookup (referenceOf [1]) = none := by
    decide +kernel
  rw [free] at taken
  cases taken

/-- Bytes cannot be read back after they were added when others have their reference. -/
theorem not_object_added_under_stray :
    Acknowledges (strayPack (referenceOf [1])) [1] (referenceOf [1])
      ((strayPack (referenceOf [1])).after [.add [1]]) ∧
    ((strayPack (referenceOf [1])).after [.add [1]]).object (referenceOf [1]) =
      .error (.hashMismatch (referenceOf [1]) (referenceOf [2])) := by
  have held : ((strayPack (referenceOf [1])).after [.add [1]]).store.get? (referenceOf [1]) =
      some [2] := by
    decide +kernel
  have foreign : referenceOf [2] ≠ referenceOf [1] := by
    decide +kernel
  exact ⟨.add, (object_of_get? held).trans (if_neg foreign)⟩

end Pack

end TypedObject
