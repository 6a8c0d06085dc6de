import Mathlib.Algebra.BigOperators.Group.Finset.Basic
import TypedObject.Proofs.Lookup
import TypedObject.Proofs.Store.History

/-!
# Stores answer like histories

A history only remembers what it was asked.  It answers for a reference with the first
bytes written under it, counts each reference once, and finds its flags by going
through all bytes that set or unset some.  A store keeps no history, but it answers
every request as the history of the requests before does.
-/

namespace TypedObject

namespace Flags

/-- The flags are the bits of a number below eight. -/
theorem bits_ofBits (bits : Nat) : (ofBits bits).bits = bits &&& all.bits := by
  have known : all.bits = 2 ^ 3 - 1 := rfl
  rw [known, Nat.and_two_pow_sub_one_eq_mod]
  simp only [ofBits, Flags.bits, Nat.toNat_testBit]
  omega

theorem ofBits_or (bits bits' : UInt8) :
    ofBits (bits ||| bits').toNat = (ofBits bits.toNat).union (ofBits bits'.toNat) := by
  simp only [ofBits, union, UInt8.toNat_or, Nat.testBit_or]

theorem ofBits_and_not (bits bits' : UInt8) :
    ofBits (bits &&& ~~~bits').toNat = (ofBits bits.toNat).minus (ofBits bits'.toNat) := by
  have complement : ∀ index < 8, (~~~bits').toNat.testBit index = !bits'.toNat.testBit index := by
    intro index small
    have inverted : (~~~bits').toNat = 2 ^ 8 - (bits'.toNat + 1) := by
      rw [UInt8.toNat_not, Nat.sub_sub, Nat.add_comm]
      rfl
    rw [inverted, Nat.testBit_two_pow_sub_succ bits'.toNat_lt, decide_eq_true small,
      Bool.true_and]
  simp only [ofBits, minus, UInt8.toNat_and, Nat.testBit_and, complement 0 (by decide),
    complement 1 (by decide), complement 2 (by decide)]

end Flags

namespace Store

/-- What a caller can ask of a store.  Flags are given as the bits of a byte, of which
some may be no flags. -/
inductive Request where
  | set (reference : Reference) (bytes : Bytes)
  | add (bytes : Bytes)
  | setFlags (bits : UInt8)
  | unsetFlags (bits : UInt8)
  | get (reference : Reference)
  | contains (reference : Reference)
  | size
  | isEmpty
  | totalBytes
  | flags

/-- What a caller is told. -/
inductive Response where
  | done
  | reference (reference : Reference)
  | bytes (result : Except StoreError Bytes)
  | truth (holds : Bool)
  | number (number : Nat)

/-- The operation that a request asks for, unless it only reads. -/
def Request.operation? : Request → Option Operation
  | set reference bytes => some (.set reference bytes)
  | add bytes => some (.add bytes)
  | setFlags bits => some (.setFlags (.ofBits bits.toNat))
  | unsetFlags bits => some (.unsetFlags (.ofBits bits.toNat))
  | get _ | contains _ | size | isEmpty | totalBytes | flags => none

/-- The answer of a store to a request. -/
def answer (store : Store) : Request → Response
  | .set _ _ | .setFlags _ | .unsetFlags _ => .done
  | .add bytes => .reference (store.add bytes).1
  | .get reference => .bytes (store.get reference)
  | .contains reference => .truth (store.contains reference)
  | .size => .number store.size
  | .isEmpty => .truth store.isEmpty
  | .totalBytes => .number store.totalBytes
  | .flags => .number store.flags.bits

/-- The store after a request. -/
def after (store : Store) (request : Request) : Store :=
  match request.operation? with
  | some operation => store.apply operation
  | none => store

/-- The store after requests. -/
def afterAll (store : Store) (requests : List Request) : Store := requests.foldl after store

/-- The answers of a store to requests in order. -/
def answers (store : Store) : List Request → List Response
  | [] => []
  | request :: rest => store.answer request :: (store.after request).answers rest

/-- The bits that a store was made with, and what it has been asked since. -/
structure History where
  initial : UInt8
  past : List Request

namespace History

/-- Everything that was written, in order. -/
def written (history : History) : List (Reference × Bytes) :=
  writes (history.past.filterMap Request.operation?)

/-- The references that were written under. -/
def references (history : History) : Finset Reference :=
  (history.written.map (·.1)).toFinset

/-- The bytes that were the first to be written under a reference. -/
def firstWrite (history : History) (reference : Reference) : Except StoreError Bytes :=
  match history.written.lookup reference with
  | some bytes => .ok bytes
  | none => .error (.notFound reference)

/-- How many bytes the first write under a reference wrote. -/
def firstLength (history : History) (reference : Reference) : Nat :=
  ((history.written.lookup reference).getD []).length

/-- The bits after a request on the flags. -/
def mask (bits : UInt8) : Request → UInt8
  | .setFlags more => bits ||| more
  | .unsetFlags fewer => bits &&& ~~~fewer
  | _ => bits

/-- The bits after all requests. -/
def bits (history : History) : UInt8 := history.past.foldl mask history.initial

/-- The answer of a history to a request. -/
def answer (history : History) : Request → Response
  | .set _ _ | .setFlags _ | .unsetFlags _ => .done
  | .add bytes => .reference (referenceOf bytes)
  | .get reference => .bytes (history.firstWrite reference)
  | .contains reference => .truth (history.firstWrite reference).isOk
  | .size => .number history.references.card
  | .isEmpty => .truth (history.references.card = 0)
  | .totalBytes => .number (∑ reference ∈ history.references, history.firstLength reference)
  | .flags => .number (history.bits.toNat &&& Flags.all.bits)

/-- The history with one more request. -/
def after (history : History) (request : Request) : History :=
  ⟨history.initial, history.past ++ [request]⟩

/-- The answers of a history to requests in order. -/
def answers (history : History) : List Request → List Response
  | [] => []
  | request :: rest => history.answer request :: (history.after request).answers rest

theorem written_after (history : History) (request : Request) :
    (history.after request).written =
      history.written ++ (request.operation?.bind Operation.write?).toList := by
  rw [written, after, List.filterMap_append, writes, List.filterMap_append]
  cases request <;> rfl

theorem bits_after (history : History) (request : Request) :
    (history.after request).bits = mask history.bits request := by
  rw [bits, after, List.foldl_append]
  rfl

end History

theorem flags_set (store : Store) (reference : Reference) (bytes : Bytes) :
    (store.set reference bytes).flags = store.flags := by
  unfold set
  split <;> rfl

theorem get?_after (store : Store) (request : Request) (reference : Reference) :
    (store.after request).get? reference = (store.get? reference).or
      ((request.operation?.bind Operation.write?).toList.lookup reference) := by
  unfold after
  cases request.operation? with
  | none => exact Option.or_none.symm
  | some operation => exact store.get?_apply operation reference

variable {store : Store}

theorem once_set
    (once : (store.objects.map (·.1)).Nodup) (reference : Reference) (bytes : Bytes) :
    ((store.set reference bytes).objects.map (·.1)).Nodup := by
  unfold set
  split
  · exact once
  · rename_i free
    have new : reference ∉ store.objects.map (·.1) := by
      intro taken
      obtain ⟨entry, member, same⟩ := List.mem_map.mp taken
      exact free (List.lookup_isSome_iff.mpr ⟨entry, member, beq_iff_eq.mpr same.symm⟩)
    rw [List.map_append, List.map_singleton, ← List.concat_eq_append]
    exact once.concat new

theorem once_after (once : (store.objects.map (·.1)).Nodup) (request : Request) :
    ((store.after request).objects.map (·.1)).Nodup := by
  cases request with
  | set reference bytes => exact once_set once reference bytes
  | add bytes => exact once_set once (referenceOf bytes) bytes
  | _ => exact once

theorem flags_after
    {bits : UInt8} (known : store.flags = .ofBits bits.toNat) (request : Request) :
    (store.after request).flags = .ofBits (History.mask bits request).toNat := by
  cases request with
  | set reference bytes => exact (store.flags_set reference bytes).trans known
  | add bytes => exact (store.flags_set (referenceOf bytes) bytes).trans known
  | setFlags more =>
      rw [History.mask, Flags.ofBits_or, ← known]
      rfl
  | unsetFlags fewer =>
      rw [History.mask, Flags.ofBits_and_not, ← known]
      rfl
  | _ => exact known

/-- What is read once is read ever after. -/
theorem get_afterAll
    {reference : Reference} {bytes : Bytes} (read : store.get reference = .ok bytes)
    (later : List Request) : (store.afterAll later).get reference = .ok bytes := by
  have get_eq_ok_iff : ∀ store : Store,
      store.get reference = .ok bytes ↔ store.get? reference = some bytes := by
    intro store
    unfold get
    cases store.get? reference <;> simp
  induction later generalizing store with
  | nil => exact read
  | cons request later induction =>
      apply induction
      rw [get_eq_ok_iff] at read ⊢
      rw [get?_after, read, Option.some_or]

/-- The store is what requests have made of it: it holds the first writes, each once,
and the flags among the bits. -/
structure Represents (store : Store) (history : History) : Prop where
  held : ∀ reference, store.get? reference = history.written.lookup reference
  once : (store.objects.map (·.1)).Nodup
  flags : store.flags = .ofBits history.bits.toNat

namespace Represents

variable {history : History}

theorem empty (initial : UInt8) :
    Represents (.empty (.ofBits initial.toNat)) ⟨initial, []⟩ :=
  ⟨fun _ => rfl, List.nodup_nil, rfl⟩

theorem references (represents : Represents store history) :
    history.references = (store.objects.map (·.1)).toFinset := by
  ext reference
  have isSome : (store.objects.lookup reference).isSome =
      (history.written.lookup reference).isSome := by
    rw [← represents.held reference, get?]
  have mem_iff : ∀ pairs : List (Reference × Bytes),
      reference ∈ (pairs.map (·.1)).toFinset ↔ (pairs.lookup reference).isSome = true := by
    intro pairs
    rw [List.mem_toFinset, List.mem_map, List.lookup_isSome_iff]
    simp only [beq_iff_eq]
    exact exists_congr fun _ => and_congr_right fun _ => eq_comm
  rw [History.references, mem_iff, mem_iff, isSome]

theorem size (represents : Represents store history) :
    store.size = history.references.card := by
  rw [represents.references, List.toFinset_card_of_nodup represents.once, List.length_map]
  rfl

theorem totalBytes (represents : Represents store history) :
    store.totalBytes = ∑ reference ∈ history.references, history.firstLength reference := by
  have lengths : ∀ entry ∈ store.objects, history.firstLength entry.1 = entry.2.length := by
    intro entry member
    have found : store.get? entry.1 = some entry.2 :=
      (Lookup.lookup_eq_some_iff represents.once).mpr member
    rw [History.firstLength, ← represents.held, found]
    rfl
  calc
    store.totalBytes = (store.objects.map fun entry => entry.2.length).sum := by
      rw [Store.totalBytes, List.sum, List.foldr_map]
    _ = (store.objects.map fun entry => history.firstLength entry.1).sum := by
      rw [List.map_congr_left lengths]
    _ = ((store.objects.map (·.1)).map history.firstLength).sum := by
      rw [List.map_map]
      rfl
    _ = ∑ reference ∈ history.references, history.firstLength reference := by
      rw [represents.references, List.sum_toFinset _ represents.once]

theorem answer (represents : Represents store history) (request : Request) :
    store.answer request = history.answer request := by
  cases request with
  | set reference bytes => rfl
  | add bytes => rfl
  | setFlags bits => rfl
  | unsetFlags bits => rfl
  | get reference =>
      have held := represents.held reference
      rw [Store.answer, History.answer, Store.get, History.firstWrite]
      cases found : history.written.lookup reference with
      | none => rw [held.trans found]
      | some bytes => rw [held.trans found]
  | contains reference =>
      rw [Store.answer, History.answer, Store.contains, History.firstWrite, represents.held]
      cases history.written.lookup reference <;> rfl
  | size => rw [Store.answer, History.answer, represents.size]
  | isEmpty =>
      rw [Store.answer, History.answer, ← represents.size, Store.size, Store.isEmpty]
      cases store.objects <;> rfl
  | totalBytes => rw [Store.answer, History.answer, represents.totalBytes]
  | flags => rw [Store.answer, History.answer, represents.flags, Flags.bits_ofBits]

theorem after (represents : Represents store history) (request : Request) :
    Represents (store.after request) (history.after request) := by
  refine ⟨?_, once_after represents.once request, ?_⟩
  · intro reference
    rw [get?_after, represents.held, History.written_after, List.lookup_append]
  · rw [History.bits_after]
    exact flags_after represents.flags request

theorem afterAll (represents : Represents store history) (requests : List Request) :
    Represents (store.afterAll requests) ⟨history.initial, history.past ++ requests⟩ := by
  induction requests generalizing store history with
  | nil =>
      rw [List.append_nil]
      exact represents
  | cons request requests induction =>
      have others := induction (represents.after request)
      rw [History.after, List.append_assoc] at others
      exact others

theorem answers (represents : Represents store history) (requests : List Request) :
    store.answers requests = history.answers requests := by
  induction requests generalizing store history with
  | nil => rfl
  | cons request requests induction =>
      rw [Store.answers, History.answers, represents.answer, induction (represents.after request)]

end Represents

/-- A store that was made with some bits answers requests as their history does: a read
gives the first write, sizes count every reference once, and the flags are those among
the bits.  What was read once is read ever after, and requests on objects and on flags
leave the others alone. -/
theorem answers_eq_history (initial : UInt8) (requests : List Request) :
    let made := empty (.ofBits initial.toNat)
    made.answers requests = History.answers ⟨initial, []⟩ requests ∧
    (∀ request, (made.afterAll requests).answer request =
      History.answer ⟨initial, requests⟩ request) ∧
    (∀ reference bytes, (made.afterAll requests).get reference = .ok bytes →
      ∀ later, ((made.afterAll requests).afterAll later).get reference = .ok bytes) ∧
    (∀ reference bytes,
      ((made.afterAll requests).after (.set reference bytes)).flags =
        (made.afterAll requests).flags ∧
      ((made.afterAll requests).after (.add bytes)).flags = (made.afterAll requests).flags) ∧
    ∀ bits,
      ((made.afterAll requests).after (.setFlags bits)).objects =
        (made.afterAll requests).objects ∧
      ((made.afterAll requests).after (.unsetFlags bits)).objects =
        (made.afterAll requests).objects := by
  intro made
  have start := Represents.empty initial
  refine ⟨start.answers requests, (start.afterAll requests).answer, ?_, ?_, ?_⟩
  · intro reference bytes read later
    exact get_afterAll read later
  · intro reference bytes
    exact ⟨flags_set _ reference bytes, flags_set _ (referenceOf bytes) bytes⟩
  · intro bits
    exact ⟨rfl, rfl⟩

/-- Requests with a reference that is written under twice and a bit that is no flag. -/
def repeatedRequests : List Request :=
  [.set .blank [1], .set .blank [9, 9], .setFlags 10, .unsetFlags 1, .get .blank, .size,
    .totalBytes, .flags]

theorem answers_repeatedRequests :
    (empty (.ofBits 9)).answers repeatedRequests =
      [.done, .done, .done, .done, .bytes (.ok [1]), .number 1, .number 1, .number 2] ∧
    (((empty (.ofBits 9)).afterAll repeatedRequests).afterAll [.add [2], .set .blank []]).get
      .blank = .ok [1] := by
  obtain ⟨same, _, kept, _⟩ := answers_eq_history 9 repeatedRequests
  exact ⟨same.trans rfl, kept .blank [1] rfl _⟩

end Store

end TypedObject
