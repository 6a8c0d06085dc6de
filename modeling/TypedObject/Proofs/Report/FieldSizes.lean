import TypedObject.Proofs.Value.Trimming
import TypedObject.Report.Size

/-!
# The sizes of a report add up

A report measures a value once as a whole, and every field once more after it was cut
out.  What is measured twice has one size, whether or not bytes follow it, so the fields
of a report are all fields in order, and their sizes add up to the size of the whole.
-/

namespace TypedObject

open View

variable {registry : Registry}

namespace Value

/-- A value that was cut out has no other size when it is measured again. -/
theorem data_eq_bytes_of_cut
    {view : View} (linked : view.Linked) {rest : Bytes} {part : Value}
    (cutOut : cut view rest = .ok part) {content : Bytes} (again : part.data = .ok content) :
    content = part.bytes := by
  obtain ⟨size, measured, same⟩ := Outcome.bind_eq_ok_iff.mp cutOut
  cases same
  obtain ⟨size', measured', same'⟩ := Outcome.bind_eq_ok_iff.mp again
  cases same'
  obtain ⟨whole, behind, rfl, rfl, within⟩ := sound_sizeWithin linked _ _ measured
  dsimp only at measured' ⊢
  rw [List.take_left] at measured' ⊢
  obtain ⟨front, left, rfl, rfl, within'⟩ := sound_sizeWithin linked _ _ measured'
  rw [List.take_left]
  apply Encodes.prefixFree view front (front ++ left) left [] ⟨_, within'⟩ ⟨_, within⟩
  rw [List.append_nil]

end Value

/-- What is noted of a field. -/
def FieldSize.ofPart (call : String × Value) : FieldSize :=
  ⟨call.1, call.2.kind, call.2.bytes.length⟩

namespace SizeReport

open Value

theorem run_settle_ok
    {α : Type} (found : α) (next : α → Measuring Unit) (noted : List FieldSize) :
    (settle (.ok found) >>= next).run.run noted = (next found).run.run noted := rfl

theorem run_note
    (name : String) (part : Value) (next : Unit → Measuring Unit) (noted : List FieldSize) :
    (note name part >>= next).run.run noted =
      match part.data with
      | .ok content => (next ()).run.run (⟨name, part.kind, content.length⟩ :: noted)
      | .error error => (.error error, noted) := by
  unfold note
  cases part.data <;> rfl

/-- Every field was cut out and noted with the size that it was cut to. -/
theorem eq_reverse_of_visitFields
    {view : View} {fields : List Field} {parts : List View}
    (follow : fields.mapM view.ofField = .ok parts) (linked : ∀ part ∈ parts, part.Linked)
    {bytes : Bytes} {noted noted' : List FieldSize}
    (run : (visitFields view note fields bytes : Measuring Unit).run.run noted =
      (.ok (), noted')) :
    noted' = (((fields.map Field.name).zip (cutParts parts bytes).values).map
      FieldSize.ofPart).reverse ++ noted := by
  induction fields generalizing parts bytes noted with
  | nil =>
      cases follow
      cases run
      rfl
  | cons field fields induction =>
      obtain ⟨part, others, followed, followOthers, rfl⟩ :=
        Outcome.mapM_cons_eq_ok_iff.mp follow
      obtain ⟨linkedPart, linkedOthers⟩ := List.forall_mem_cons.mp linked
      rw [visitFields, followed, run_settle_ok] at run
      rw [cutParts]
      cases cutOut : cut part bytes with
      | error error =>
          rw [cutOut] at run
          cases run
      | ok value =>
          rw [cutOut, run_settle_ok, run_note] at run
          cases again : value.data with
          | error error =>
              rw [again] at run
              cases run
          | ok content =>
              rw [again] at run
              obtain rfl := data_eq_bytes_of_cut linkedPart cutOut again
              rw [induction followOthers linkedOthers run]
              simp [FieldSize.ofPart]

/-- Fields that can be cut out and measured again are all noted. -/
theorem run_visitFields_of_data
    {view : View} {fields : List Field} {parts : List View}
    (follow : fields.mapM view.ofField = .ok parts) {bytes : Bytes}
    (complete : (cutParts parts bytes).ending = .ok ())
    (again : ∀ value ∈ (cutParts parts bytes).values, value.data = .ok value.bytes)
    (noted : List FieldSize) :
    ((visitFields view note fields bytes : Measuring Unit).run.run noted).1 = .ok () := by
  induction fields generalizing parts bytes noted with
  | nil => rfl
  | cons field fields induction =>
      obtain ⟨part, others, followed, followOthers, rfl⟩ :=
        Outcome.mapM_cons_eq_ok_iff.mp follow
      rw [visitFields, followed, run_settle_ok]
      rw [cutParts] at complete again
      cases cutOut : cut part bytes with
      | error error =>
          rw [cutOut] at complete
          cases complete
      | ok value =>
          rw [cutOut] at complete again
          obtain ⟨first, later⟩ := List.forall_mem_cons.mp again
          rw [run_settle_ok, run_note, first]
          exact induction followOthers complete later _

theorem fieldSizes_of_no_fields {value : Value} (none : value.view.fields = []) :
    fieldSizes value = .ok [] := by
  rw [fieldSizes, none]
  rfl

theorem fieldSizes_of_fields
    {value : Value} (isStruct : value.kind = .struct) (nonempty : value.view.fields ≠ []) :
    fieldSizes value =
      match (visitFields value.view note value.view.fields value.bytes : Measuring Unit).run.run
        [] with
      | (.ok (), fields) => .ok fields.reverse
      | (.error error, _) => .error error := by
  have expected : value.expectStruct = .ok () := if_pos isStruct
  rw [fieldSizes, if_neg (mt List.isEmpty_iff.mp nonempty), forFields, expected]
  rfl

/-- The sizes of the fields, in terms of the parts that are cut out. -/
theorem eq_map_of_fieldSizes
    {value : Value} (isStruct : value.kind = .struct) (nonempty : value.view.fields ≠ [])
    {parts : List View} (follow : value.view.fields.mapM value.view.ofField = .ok parts)
    (linked : ∀ part ∈ parts, part.Linked) {sizes : List FieldSize}
    (found : fieldSizes value = .ok sizes) :
    sizes = ((value.view.fields.map Field.name).zip (cutParts parts value.bytes).values).map
      FieldSize.ofPart := by
  rw [fieldSizes_of_fields isStruct nonempty] at found
  split at found
  · rename_i noted run
    cases found
    rw [eq_reverse_of_visitFields follow linked run, List.append_nil, List.reverse_reverse]
  · cases found

/-- A report of the value of a view at the front of the data: the fields of a struct are
listed in order with the kinds of their schemas, and their sizes add up. -/
structure AddsUp (report : SizeReport) (view : View) (data : Bytes) : Prop where
  measured : view.size data = .ok report.size
  available : report.available = data.length
  fits : report.size ≤ report.available
  exact_iff : report.isExact = true ↔ report.size = report.available
  fields : view.kind = .struct → view.fields ≠ [] → ∃ parts,
    view.fields.mapM view.ofField = .ok parts ∧
      report.fields.map FieldSize.name = view.fields.map Field.name ∧
      report.fields.map FieldSize.kind = parts.map View.kind ∧
      (report.fields.map FieldSize.size).sum = report.size
  access : ∀ index field, report.fields[index]? = some field → ∃ part,
    (Value.mk view data).fieldByIndex index = .ok part ∧ field.size = part.bytes.length
  no_fields : ¬(view.kind = .struct ∧ view.fields ≠ []) → report.fields = []

end SizeReport

namespace Value

theorem map_view_cutParts
    {parts : List View} {bytes : Bytes} (complete : (cutParts parts bytes).ending = .ok ()) :
    (cutParts parts bytes).values.map Value.view = parts := by
  induction parts generalizing bytes with
  | nil => rfl
  | cons part parts induction =>
      cases measured : part.size bytes with
      | error error =>
          rw [cutParts_cons_of_size_error measured] at complete
          cases complete
      | ok size =>
          rw [cutParts_cons_of_size measured] at complete ⊢
          exact congrArg (part :: ·) (induction complete)

/-- The fields of a struct that is measured can be measured one after the other. -/
theorem sizeOfParts_of_fields
    (registered : registry.entries.Registered) {view : View} (reachable : Reachable registry view)
    (nonempty : view.fields ≠ []) {parts : List View}
    (follow : view.fields.mapM view.ofField = .ok parts) {bytes : Bytes} {size : Nat}
    (measured : view.size bytes = .ok size) : sizeOfParts View.size parts bytes = .ok size := by
  obtain ⟨registry', schema⟩ := view
  cases schema with
  | struct name fields =>
      obtain ⟨found, _⟩ := (sizeWithin_struct_eq_ok_iff follow).mp measured
      exact sizeOfParts_of_sizeWithin registered (reachable.parts follow) found
  | _ => exact absurd rfl nonempty

end Value

namespace SizeReport

open Value

theorem isStruct_of_fields {view : View} (nonempty : view.fields ≠ []) : view.kind = .struct := by
  obtain ⟨registry, schema⟩ := view
  cases schema with
  | struct name fields => rfl
  | _ => exact absurd rfl nonempty

theorem addsUp_of_fields
    (registered : registry.entries.Registered) {view : View} (reachable : Reachable registry view)
    (nonempty : view.fields ≠ []) {data : Bytes} {size : Nat}
    (measured : view.size data = .ok size) {sizes : List FieldSize}
    (found : fieldSizes ⟨view, data⟩ = .ok sizes) :
    AddsUp ⟨view.text, size, data.length, sizes⟩ view data := by
  have isStruct : (Value.mk view data).kind = .struct := isStruct_of_fields nonempty
  obtain ⟨parts, follow, linked⟩ := (reachable.linked registered).fields
  have fits := le_of_sizeWithin measured
  have walked := sizeOfParts_of_fields registered reachable nonempty follow measured
  obtain ⟨complete, number, content⟩ := cutParts_of_sizeOfParts walked
  rw [Outcome.length_of_mapM follow, ← List.length_map Field.name] at number
  have listed := eq_map_of_fieldSizes isStruct nonempty follow linked found
  refine ⟨measured, rfl, fits, decide_eq_true_iff, fun _ _ => ⟨parts, follow, ?_, ?_, ?_⟩, ?_,
    fun noFields => absurd ⟨isStruct, nonempty⟩ noFields⟩
  · rw [listed, List.map_map]
    exact List.map_fst_zip number.ge
  · rw [listed, List.map_map]
    change (List.zip _ _).map ((View.kind ∘ Value.view) ∘ Prod.snd) = _
    rw [← List.map_map, List.map_snd_zip number.le, ← List.map_map, map_view_cutParts complete]
  · rw [listed, List.map_map]
    change ((List.zip _ _).map ((fun value : Value => value.bytes.length) ∘ Prod.snd)).sum = _
    rw [← List.map_map, List.map_snd_zip number.le, ← List.length_flatMap, content]
    exact List.length_take_of_le fits
  · intro index field atIndex
    dsimp only at atIndex
    rw [listed, List.getElem?_map, Option.map_eq_some_iff] at atIndex
    obtain ⟨call, atIndex, rfl⟩ := atIndex
    obtain ⟨named, valued⟩ := List.getElem?_zip_eq_some.mp atIndex
    rw [List.getElem?_map, Option.map_eq_some_iff] at named
    obtain ⟨declared, atIndex, _⟩ := named
    obtain ⟨within, _⟩ := List.getElem?_eq_some_iff.mp atIndex
    exact ⟨call.2, (shows_fieldByIndex isStruct follow within).eq_ok_iff.mpr valued, rfl⟩

theorem addsUp_of_no_fields
    {view : View} (none : view.fields = []) {data : Bytes} {size : Nat}
    (measured : view.size data = .ok size) {sizes : List FieldSize}
    (found : fieldSizes ⟨view, data⟩ = .ok sizes) :
    AddsUp ⟨view.text, size, data.length, sizes⟩ view data := by
  rw [fieldSizes_of_no_fields none] at found
  cases found
  exact ⟨measured, rfl, le_of_sizeWithin measured, decide_eq_true_iff,
    fun _ nonempty => absurd none nonempty, nofun, fun _ => rfl⟩

/-- Every report adds up. -/
theorem ofBytes_addsUp
    {encoded data : Bytes} {name : String} {report : SizeReport}
    (made : ofBytes encoded name data = .ok report) :
    ∃ registry view, Registry.decode encoded = .ok registry ∧
      registry.viewByName name = .ok view ∧ report.AddsUp view data := by
  unfold ofBytes at made
  split at made
  · cases made
  · rename_i registry decoded
    split at made
    · cases made
    · rename_i view known
      split at made
      · cases made
      · rename_i size measured
        split at made
        · cases made
        · rename_i sizes found
          cases made
          refine ⟨registry, view, decoded, known, ?_⟩
          have returned : registry.Returned := .inr ⟨encoded, decoded⟩
          by_cases none : view.fields = []
          · exact addsUp_of_no_fields none measured found
          · exact addsUp_of_fields returned.registered (.byName known) none measured found

/-- A report of a node with one child; the byte after it does not belong to the value. -/
theorem report_nodeBytes :
    ∃ report, ofBytes Registry.nodeRegistry.encode "Node" (nodeBytes 7 [nodeBytes 8 []] ++ [9]) =
        .ok report ∧ report.isExact = false ∧ report.fields.map FieldSize.size = [1, 32, 41] ∧
      (report.fields.map FieldSize.size).sum = report.size := by
  have canonical : Registry.nodeRegistry.entries.Canonical := by decide +kernel
  have decoded : Registry.decode Registry.nodeRegistry.encode =
      .ok ⟨Registry.nodeRegistry.entries, none⟩ :=
    Registry.decode_eq_ok_iff.mpr ⟨rfl, canonical, rfl⟩
  have made : ofBytes Registry.nodeRegistry.encode "Node" (nodeBytes 7 [nodeBytes 8 []] ++ [9]) =
      .ok ⟨nodeView.text, 74, 75,
        [⟨"item", .uint8, 1⟩, ⟨"origin", .reference, 32⟩, ⟨"children", .slice, 41⟩]⟩ := by
    unfold ofBytes
    rw [decoded]
    rfl
  obtain ⟨registry, view, decoded', known, addsUp⟩ := ofBytes_addsUp made
  rw [decoded] at decoded'
  cases decoded'
  cases known
  obtain ⟨parts, _, _, _, sum⟩ := addsUp.fields rfl nofun
  exact ⟨_, made, rfl, rfl, sum.symm⟩

/-- Where elements take bytes, there is a report of every value that can be measured. -/
theorem exists_ofBytes_eq_ok
    {encoded data : Bytes} {name : String} {registry : Registry} {view : View} {size : Nat}
    (decoded : Registry.decode encoded = .ok registry)
    (takeBytes : registry.ElementsTakeBytes) (known : registry.viewByName name = .ok view)
    (measured : view.size data = .ok size) : ∃ report, ofBytes encoded name data = .ok report := by
  have returned : registry.Returned := .inr ⟨encoded, decoded⟩
  have reachable : Reachable registry view := .byName known
  suffices noted : ∃ sizes, fieldSizes ⟨view, data⟩ = .ok sizes by
    obtain ⟨sizes, found⟩ := noted
    refine ⟨⟨view.text, size, data.length, sizes⟩, ?_⟩
    unfold ofBytes
    simp only [decoded, known, measured, found]
  by_cases none : view.fields = []
  · exact ⟨[], fieldSizes_of_no_fields none⟩
  · have isStruct : (Value.mk view data).kind = .struct := isStruct_of_fields none
    obtain ⟨parts, follow, _⟩ := (reachable.linked returned.registered).fields
    have walked := sizeOfParts_of_fields returned.registered reachable none follow measured
    have again : ∀ value ∈ (cutParts parts data).values, value.data = .ok value.bytes := by
      intro value member
      obtain ⟨part, among, rest, cutOut⟩ := exists_cut_of_mem_cutParts member
      exact data_of_cut (survivesTrimming_of_elementsTakeBytes returned.registered takeBytes
        (reachable.parts follow part among)) cutOut
    have noted := run_visitFields_of_data follow (cutParts_of_sizeOfParts walked).1 again []
    rw [fieldSizes_of_fields isStruct none]
    generalize (visitFields view note view.fields data : Measuring Unit).run.run [] = run at noted ⊢
    obtain ⟨outcome, fields⟩ := run
    cases noted
    exact ⟨_, rfl⟩

end SizeReport

end TypedObject
