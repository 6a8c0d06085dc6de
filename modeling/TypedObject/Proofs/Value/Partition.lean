import TypedObject.Proofs.Value.Visits

/-!
# The parts make up the value

A value is measured as a whole over all levels but one for its parts, and with the
shortcut for elements of a fixed size.  A traversal measures every part anew over all
levels.  More levels change no size that is found, so the traversal visits all parts, and
their bytes, one after the other, are the bytes of the value.
-/

namespace TypedObject.Value

open View

variable {ι ε : Type} {registry : Registry}

theorem sizeOfParts_mono
    {measure measure' : View → Bytes → Except SchemaError Nat} {parts : List View}
    (each : ∀ part ∈ parts, ∀ bytes size, measure part bytes = .ok size →
      measure' part bytes = .ok size) {bytes : Bytes} {size : Nat}
    (measured : sizeOfParts measure parts bytes = .ok size) :
    sizeOfParts measure' parts bytes = .ok size := by
  induction parts generalizing bytes size with
  | nil => exact measured
  | cons part parts induction =>
      obtain ⟨eachFirst, eachLater⟩ := List.forall_mem_cons.mp each
      obtain ⟨first, measuredFirst, continued⟩ := Outcome.bind_eq_ok_iff.mp measured
      obtain ⟨others, measuredOthers, total⟩ := Outcome.bind_eq_ok_iff.mp continued
      refine Outcome.bind_eq_ok_iff.mpr ⟨first, eachFirst _ _ measuredFirst, ?_⟩
      exact Outcome.bind_eq_ok_iff.mpr ⟨others, induction eachLater measuredOthers, total⟩

theorem sizeOfParts_of_sizeWithin
    (registered : registry.entries.Registered) {parts : List View}
    (reachable : ∀ part ∈ parts, Reachable registry part) {bytes : Bytes} {size : Nat}
    (measured : sizeOfParts (sizeWithin depthLimit) parts bytes = .ok size) :
    sizeOfParts View.size parts bytes = .ok size := by
  apply sizeOfParts_mono _ measured
  intro part member bytes size measuredPart
  exact sizeWithin_mono registered (Nat.le_succ _) (Nat.le_succ _) (reachable part member)
    measuredPart

/-- The elements of a sequence that was measured as a whole can be measured one by one. -/
theorem sizeOfParts_of_sizeOfSequence
    (registered : registry.entries.Registered) {elem : View} (reachable : Reachable registry elem)
    {count start size : Nat} {bytes : Bytes}
    (measured : sizeOfSequence elem (sizeWithin depthLimit elem) count start bytes = .ok size)
    (fits : size ≤ bytes.length) :
    ∃ items, sizeOfParts View.size (List.replicate count elem) (bytes.drop start) = .ok items ∧
      size = start + items := by
  rcases sizeOfSequence_eq_ok_iff.mp measured with ⟨width, fixed, total, _⟩ | ⟨_, _, run⟩
  · refine ⟨count * width, ?_, ?_⟩
    · rw [sizeOfParts_replicate_eq_fitting (reachable.linked registered) fixed]
      apply fitting_of_le
      rw [List.length_drop]
      omega
    · omega
  · obtain ⟨items, walked, total⟩ := run
    refine ⟨items, ?_, total⟩
    apply sizeOfParts_of_sizeWithin registered _ walked
    intro part member
    rw [List.eq_of_mem_replicate member]
    exact reachable

/-- All places were visited without an error, and the bytes of the parts one after the
other are the content. -/
structure Traversal.Covers (visits : Traversal ι ε) (places : List ι) (content : Bytes) :
    Prop where
  complete : visits.ending = .ok (.ok ())
  places : visits.calls.map Prod.fst = places
  content : (visits.calls.map Prod.snd).flatMap Value.bytes = content

theorem covers_elements
    {value : Value} {elem : View} {length start items : Nat}
    (sequence : value.sequence = .ok (elem, length, start))
    (measured : sizeOfParts View.size (List.replicate length elem) (value.bytes.drop start) =
      .ok items) :
    (value.rangeElements (.accept : Callback Nat ε)).Covers (List.range length)
      ((value.bytes.drop start).take items) := by
  have elements : value.elements =
      cutParts (List.replicate length elem) (value.bytes.drop start) := by
    rw [Value.elements, sequence]
  obtain ⟨complete, number, content⟩ := cutParts_of_sizeOfParts measured
  rw [List.length_replicate] at number
  rw [rangeElements_eq_announce, announce_accept, elements]
  refine ⟨congrArg Except.ok complete, ?_, ?_⟩
  · change (_ ++ List.map Prod.swap _).map Prod.fst = _
    rw [List.nil_append, List.map_map, List.range_eq_range']
    exact (List.zipIdx_map_snd _ _).trans (congrArg (List.range' 0) number)
  · rw [List.nil_append, List.map_map, ← content]
    exact congrArg (List.flatMap Value.bytes) (List.zipIdx_map_fst _ _)

theorem covers_fields
    {value : Value} (isStruct : value.kind = .struct) {parts : List View}
    (follow : value.view.fields.mapM value.view.ofField = .ok parts) {size : Nat}
    (measured : sizeOfParts View.size parts value.bytes = .ok size) :
    (value.rangeFields (.accept : Callback String ε)).Covers (value.view.fields.map Field.name)
      (value.bytes.take size) := by
  obtain ⟨complete, number, content⟩ := cutParts_of_sizeOfParts measured
  rw [Outcome.length_of_mapM follow, ← List.length_map Field.name] at number
  rw [rangeFields_eq_announce isStruct follow, announce_accept, List.nil_append]
  refine ⟨congrArg Except.ok complete, ?_, ?_⟩
  · exact List.map_fst_zip number.ge
  · rw [List.map_snd_zip number.le, content]

variable {registry' : Registry} {name : Option String} {bytes : Bytes} {size : Nat}

theorem covers_of_struct
    (registered : registry.entries.Registered) {fields : List Field}
    (reachable : Reachable registry ⟨registry', .struct name fields⟩)
    (measured : View.size ⟨registry', .struct name fields⟩ bytes = .ok size) :
    ((Value.mk ⟨registry', .struct name fields⟩ bytes).rangeFields
      (.accept : Callback String ε)).Covers (fields.map Field.name) (bytes.take size) := by
  obtain ⟨parts, follow, _⟩ := (reachable.linked registered).fields
  obtain ⟨found, _⟩ := (sizeWithin_struct_eq_ok_iff follow).mp measured
  exact covers_fields rfl follow
    (sizeOfParts_of_sizeWithin registered (reachable.parts follow) found)

theorem covers_of_array
    (registered : registry.entries.Registered) {length : Nat} {inner : Schema}
    (reachable : Reachable registry ⟨registry', .array name length inner⟩)
    (measured : View.size ⟨registry', .array name length inner⟩ bytes = .ok size) :
    ((Value.mk ⟨registry', .array name length inner⟩ bytes).rangeElements
      (.accept : Callback Nat ε)).Covers (List.range length) (bytes.take size) := by
  obtain ⟨elem, follows, _⟩ := (reachable.linked registered).follow List.mem_cons_self
  obtain ⟨sized, fits⟩ := (sizeWithin_array_eq_ok_iff follows).mp measured
  obtain ⟨items, walked, total⟩ :=
    sizeOfParts_of_sizeOfSequence registered (reachable.elem follows) sized fits
  rw [Nat.zero_add] at total
  subst total
  have sequence : (Value.mk ⟨registry', .array name length inner⟩ bytes).sequence =
      .ok (elem, length, 0) := Outcome.bind_eq_ok_iff.mpr ⟨elem, follows, rfl⟩
  exact covers_elements sequence walked

theorem covers_of_slice
    (registered : registry.entries.Registered) {inner : Schema}
    (reachable : Reachable registry ⟨registry', .slice name inner⟩)
    (measured : View.size ⟨registry', .slice name inner⟩ bytes = .ok size) :
    ∃ length items, (Value.mk ⟨registry', .slice name inner⟩ bytes).length = .ok length ∧
      bytes.take size = Wire.count length ++ items ∧
      ((Value.mk ⟨registry', .slice name inner⟩ bytes).rangeElements
        (.accept : Callback Nat ε)).Covers (List.range length) items := by
  obtain ⟨elem, follows, _⟩ := (reachable.linked registered).follow List.mem_cons_self
  obtain ⟨length, counted, sized, fits⟩ := (sizeWithin_slice_eq_ok_iff follows).mp measured
  obtain ⟨items, walked, total⟩ :=
    sizeOfParts_of_sizeOfSequence registered (reachable.elem follows) sized fits
  have read : (Value.mk ⟨registry', .slice name inner⟩ bytes).read Reader.count = .ok length := by
    rw [read_count]
    exact counted
  have sequence : (Value.mk ⟨registry', .slice name inner⟩ bytes).sequence =
      .ok (elem, length, Wire.countSize) := by
    refine Outcome.bind_eq_ok_iff.mpr ⟨elem, follows, ?_⟩
    exact Outcome.bind_eq_ok_iff.mpr ⟨length, read, rfl⟩
  refine ⟨length, (bytes.drop Wire.countSize).take items, read, ?_, covers_elements sequence walked⟩
  obtain ⟨_, rest, rfl⟩ := countAt_eq_ok_iff.mp counted
  have front : (Wire.count length ++ rest).take Wire.countSize = Wire.count length :=
    List.take_left' (Wire.length_count length)
  rw [total, List.take_add, front]

/-- A traversal of a value that can be measured visits all its parts, and their bytes are
the bytes of the value, after the count if it is a slice. -/
theorem parts_partition
    (returned : registry.Returned) {value : Value} (reachable : Reachable registry value.view)
    {content : Bytes} (measured : value.data = .ok content) :
    (value.kind = .struct → ∃ names, value.fieldNames = .ok names ∧
      value.fieldCount = .ok names.length ∧
      (value.rangeFields (.accept : Callback String ε)).Covers names content) ∧
    (value.kind = .array → ∃ length, value.length = .ok length ∧
      (value.rangeElements (.accept : Callback Nat ε)).Covers (List.range length) content) ∧
    (value.kind = .slice → ∃ length items, value.length = .ok length ∧
      content = Wire.count length ++ items ∧
      (value.rangeElements (.accept : Callback Nat ε)).Covers (List.range length) items) := by
  have registered := returned.registered
  obtain ⟨size, sized, taken⟩ := Outcome.bind_eq_ok_iff.mp measured
  obtain rfl := Except.ok.inj taken
  obtain ⟨⟨registry', schema⟩, bytes⟩ := value
  cases schema with
  | struct name fields =>
      refine ⟨?_, nofun, nofun⟩
      intro _
      have length : (fields.map Field.name).length = fields.length := List.length_map _
      exact ⟨fields.map Field.name, rfl, congrArg Except.ok length.symm,
        covers_of_struct registered reachable sized⟩
  | array name length inner =>
      exact ⟨nofun, fun _ => ⟨length, rfl, covers_of_array registered reachable sized⟩, nofun⟩
  | slice name inner =>
      exact ⟨nofun, nofun, fun _ => covers_of_slice registered reachable sized⟩
  | scalar kind name =>
      change sizeWithin (depthLimit + 1) _ bytes = _ at sized
      rw [sizeWithin_scalar] at sized
      refine ⟨?_, ?_, ?_⟩ <;>
        rintro rfl <;> cases sized
  | placeholder kind name => cases sized
  | _ => exact ⟨nofun, nofun, nofun⟩

/-- Two nodes, the second with one child, and a byte that does not belong to them. -/
def twoChildren : Value :=
  ⟨childrenView, Wire.count 2 ++ (nodeBytes 8 [] ++ nodeBytes 7 [nodeBytes 9 []]) ++ [9]⟩

theorem covers_twoChildren :
    (twoChildren.rangeElements (.accept : Callback Nat Unit)).Covers [0, 1]
      (nodeBytes 8 [] ++ nodeBytes 7 [nodeBytes 9 []]) := by
  have measured : twoChildren.data =
      .ok (Wire.count 2 ++ (nodeBytes 8 [] ++ nodeBytes 7 [nodeBytes 9 []])) := rfl
  obtain ⟨length, items, counted, split, covers⟩ :=
    (parts_partition Registry.returned_nodeRegistry reachable_childrenView measured).2.2 rfl
  cases counted
  rw [List.append_cancel_left split]
  exact covers

end TypedObject.Value
