import TypedObject.Proofs.Value.Parts
import TypedObject.Value.Traversal

/-!
# Access and traversal

A traversal passes the parts of a value to a callback, one after the other.  A callback
that never fails sees all parts up to the first that cannot be cut out, and what it sees
is what access to single parts finds: the same parts, or the same error.  Any other
callback sees the same calls up to the first that it refuses.
-/

namespace TypedObject.Value

open View

variable {ι ε : Type}

/-- What a callback answers.  The list is all calls so far, the one to be answered last. -/
abbrev Callback (ι ε : Type) := List (ι × Value) → Except ε Unit

/-- The calls that were made, and the end: an error of the callback, or else an error in the
value, if there was one. -/
structure Traversal (ι ε : Type) where
  calls : List (ι × Value)
  ending : Except ε (Except SchemaError Unit)

/-- Steps that may call back. -/
abbrev Calling (ι ε : Type) := ExceptT SchemaError (ExceptT ε (StateM (List (ι × Value))))

namespace Callback

def call (callback : Callback ι ε) (place : ι) (part : Value) : Calling ι ε Unit := do
  modify (· ++ [(place, part)])
  match callback (← get) with
  | .ok () => pure ()
  | .error error => throwThe ε error

/-- Never fails. -/
def accept : Callback ι ε := fun _ => .ok ()

end Callback

/-- What the steps do after the calls that were made before. -/
def Calling.traversal (steps : Calling ι ε Unit) (made : List (ι × Value)) : Traversal ι ε :=
  let (ending, calls) := steps.run.run.run made
  ⟨calls, ending⟩

/-- Visits the elements of an array or slice with their numbers. -/
def rangeElements (value : Value) (callback : Callback Nat ε) : Traversal Nat ε :=
  Calling.traversal (value.forElements callback.call) []

/-- Visits the fields of a struct with their names. -/
def rangeFields (value : Value) (callback : Callback String ε) : Traversal String ε :=
  Calling.traversal (value.forFields callback.call) []

/-- Makes the calls in order, up to the first that is refused. -/
def announce (callback : Callback ι ε) (ending : Except SchemaError Unit) :
    (made calls : List (ι × Value)) → Traversal ι ε
  | made, [] => ⟨made, .ok ending⟩
  | made, call :: calls =>
    match callback (made ++ [call]) with
    | .ok () => announce callback ending (made ++ [call]) calls
    | .error error => ⟨made ++ [call], .error error⟩

theorem traversal_settle_ok
    {α : Type} (found : α) (next : α → Calling ι ε Unit) (made : List (ι × Value)) :
    Calling.traversal (settle (.ok found) >>= next) made =
      Calling.traversal (next found) made := rfl

theorem traversal_call
    (callback : Callback ι ε) (place : ι) (part : Value) (next : Unit → Calling ι ε Unit)
    (made : List (ι × Value)) :
    Calling.traversal (callback.call place part >>= next) made =
      match callback (made ++ [(place, part)]) with
      | .ok () => Calling.traversal (next ()) (made ++ [(place, part)])
      | .error error => ⟨made ++ [(place, part)], .error error⟩ := by
  have answered : Calling.traversal (callback.call place part >>= next) made =
      Calling.traversal ((match callback (made ++ [(place, part)]) with
        | .ok () => pure ()
        | .error error => throwThe ε error) >>= next) (made ++ [(place, part)]) := rfl
  rw [answered]
  cases callback (made ++ [(place, part)]) <;> rfl

theorem traversal_visitRun
    (callback : Callback Nat ε) (elem : View) (count index : Nat) (bytes : Bytes)
    (made : List (Nat × Value)) :
    Calling.traversal (visitRun elem callback.call count index bytes) made =
      announce callback (cutParts (List.replicate count elem) bytes).ending made
        (((cutParts (List.replicate count elem) bytes).values.zipIdx index).map Prod.swap) := by
  induction count generalizing index bytes made with
  | zero => rfl
  | succ count induction =>
      rw [visitRun, List.replicate_succ, cutParts]
      cases cut elem bytes with
      | error error => rfl
      | ok part =>
          rw [traversal_settle_ok, traversal_call, List.zipIdx_cons, List.map_cons]
          change _ = match callback (made ++ [(index, part)]) with
            | .ok () => _
            | .error error => _
          cases callback (made ++ [(index, part)]) with
          | error error => rfl
          | ok _ => exact induction (index + 1) _ _

theorem traversal_visitFields
    (callback : Callback String ε) {view : View} {fields : List Field} {parts : List View}
    (follow : fields.mapM view.ofField = .ok parts) (bytes : Bytes)
    (made : List (String × Value)) :
    Calling.traversal (visitFields view callback.call fields bytes) made =
      announce callback (cutParts parts bytes).ending made
        ((fields.map Field.name).zip (cutParts parts bytes).values) := by
  induction fields generalizing parts bytes made with
  | nil =>
      cases follow
      rfl
  | cons field fields induction =>
      obtain ⟨part, others, followed, followOthers, rfl⟩ :=
        Outcome.mapM_cons_eq_ok_iff.mp follow
      rw [visitFields, followed, traversal_settle_ok, cutParts]
      cases cut part bytes with
      | error error => rfl
      | ok value =>
          rw [traversal_settle_ok, traversal_call, List.map_cons, List.zip_cons_cons]
          change _ = match callback (made ++ [(field.name, value)]) with
            | .ok () => _
            | .error error => _
          cases callback (made ++ [(field.name, value)]) with
          | error error => rfl
          | ok _ => exact induction followOthers _ _

theorem announce_accept
    (ending : Except SchemaError Unit) (made calls : List (ι × Value)) :
    announce (Callback.accept : Callback ι ε) ending made calls = ⟨made ++ calls, .ok ending⟩ := by
  induction calls generalizing made with
  | nil => rw [announce, List.append_nil]
  | cons call calls induction =>
      change announce _ ending (made ++ [call]) calls = _
      rw [induction, List.append_assoc, List.singleton_append]

/-- The traversal makes all calls that the callback accepts, or stops after the first that
it refuses, with its error. -/
inductive CutAtFirstError (callback : Callback ι ε) (whole : Traversal ι ε) :
    Traversal ι ε → Prop where
  | never
      (accepted : ∀ earlier call, earlier ++ [call] <+: whole.calls →
        callback (earlier ++ [call]) = .ok ()) :
      CutAtFirstError callback whole whole
  | first {made : List (ι × Value)} {call : ι × Value} {error : ε}
      (reached : made ++ [call] <+: whole.calls)
      (accepted : ∀ earlier call, earlier ++ [call] <+: made →
        callback (earlier ++ [call]) = .ok ())
      (refused : callback (made ++ [call]) = .error error) :
      CutAtFirstError callback whole ⟨made ++ [call], .error error⟩

/-- The calls made before were all accepted. -/
theorem cutAtFirstError_announce
    {callback : Callback ι ε} (ending : Except SchemaError Unit) {made : List (ι × Value)}
    (accepted : ∀ earlier call, earlier ++ [call] <+: made →
      callback (earlier ++ [call]) = .ok ()) (calls : List (ι × Value)) :
    CutAtFirstError callback ⟨made ++ calls, .ok ending⟩ (announce callback ending made calls) := by
  induction calls generalizing made with
  | nil =>
      rw [List.append_nil]
      exact .never accepted
  | cons call calls induction =>
      rw [announce]
      cases answer : callback (made ++ [call]) with
      | error error =>
          have reached : made ++ [call] <+: made ++ call :: calls :=
            ⟨calls, List.append_assoc made [call] calls⟩
          exact .first reached accepted answer
      | ok _ =>
          rw [List.append_cons]
          apply induction
          intro earlier last before
          rcases List.prefix_concat_iff.mp before with whole | inside
          · rw [whole, answer]
          · exact accepted earlier last inside

theorem cutAtFirstError_of_announced
    {steps : Callback ι ε → Traversal ι ε} {ending : Except SchemaError Unit}
    {calls : List (ι × Value)}
    (announced : ∀ callback, steps callback = announce callback ending [] calls)
    (callback : Callback ι ε) :
    CutAtFirstError callback (steps .accept) (steps callback) := by
  have accepted : ∀ earlier call, earlier ++ [call] <+: ([] : List (ι × Value)) →
      callback (earlier ++ [call]) = .ok () := by
    intro earlier call before
    have impossible := List.prefix_nil.mp before
    simp at impossible
  rw [announced .accept, announced callback, announce_accept]
  exact cutAtFirstError_announce ending accepted calls

/-- The elements up to the first that cannot be cut out. -/
def elements (value : Value) : Parts :=
  match value.sequence with
  | .error error => ⟨[], .error error⟩
  | .ok (elem, count, start) => cutParts (List.replicate count elem) (value.bytes.drop start)

theorem rangeElements_eq_announce (value : Value) (callback : Callback Nat ε) :
    value.rangeElements callback =
      announce callback value.elements.ending [] (value.elements.values.zipIdx.map Prod.swap) := by
  unfold rangeElements forElements elements
  cases value.sequence with
  | error error => rfl
  | ok found => exact traversal_visitRun callback _ _ _ _ _

theorem rangeFields_eq_announce
    {value : Value} (isStruct : value.kind = .struct) {parts : List View}
    (follow : value.view.fields.mapM value.view.ofField = .ok parts)
    (callback : Callback String ε) :
    value.rangeFields callback = announce callback (cutParts parts value.bytes).ending []
      ((value.view.fields.map Field.name).zip (cutParts parts value.bytes).values) := by
  have expected : value.expectStruct = .ok () := if_pos isStruct
  unfold rangeFields forFields
  rw [expected]
  exact traversal_visitFields callback follow _ _

theorem shows_index
    {value : Value} (linked : value.view.Linked) (addressable : value.bytes.length < Offset.bound)
    (repeats : value.kind = .array ∨ value.kind = .slice) {length : Nat}
    (counted : value.length = .ok length) {index : Nat} (within : index < length) :
    value.elements.Shows index (value.index index) := by
  obtain ⟨elem, start, sequence, follows, inside⟩ := exists_sequence linked repeats counted
  have atIndex : (List.replicate length elem)[index]? = some elem := by
    rw [List.getElem?_replicate, if_pos within]
  have elements : value.elements =
      cutParts (List.replicate length elem) (value.bytes.drop start) := by
    rw [Value.elements, sequence]
  have places := places_of_addressable addressable elem index start
  rw [elements, index_eq_partAt (linked.of_elem follows) sequence inside places within]
  exact shows_partAt atIndex _

theorem shows_fieldByIndex
    {value : Value} (isStruct : value.kind = .struct) {parts : List View}
    (follow : value.view.fields.mapM value.view.ofField = .ok parts) {index : Nat}
    (within : index < value.view.fields.length) :
    (cutParts parts value.bytes).Shows index (value.fieldByIndex index) := by
  rw [← Outcome.length_of_mapM follow] at within
  have atIndex : parts[index]? = some parts[index] := List.getElem?_eq_getElem within
  rw [fieldByIndex_eq_partAt isStruct follow atIndex]
  exact shows_partAt atIndex _

theorem find?_zip_eq_some_iff
    {fields : List Field} {values : List Value} {name : String} {part : Value} :
    ((fields.map Field.name).zip values).find? (fun call => call.1 = name) = some (name, part) ↔
      ∃ index, fields.findIdx? (fun field => field.name = name) = some index ∧
        values[index]? = some part := by
  induction fields generalizing values with
  | nil => simp
  | cons field fields induction =>
      cases values with
      | nil => simp
      | cons value values =>
          rw [List.map_cons, List.zip_cons_cons, List.find?_cons, List.findIdx?_cons]
          by_cases named : field.name = name
          · simp [named]
          · simp [named, induction]

/-- Going straight to an element finds what the traversal visits under its number. -/
structure ElementAccess (value : Value) (visits : Traversal Nat ε) : Prop where
  index_eq_ok_iff : ∀ length, value.length = .ok length → ∀ index < length, ∀ part,
    value.index index = .ok part ↔ (index, part) ∈ visits.calls
  index_eq_error : ∀ length, value.length = .ok length → ∀ index < length, ∀ error,
    value.index index = .error error → visits.ending = .ok (.error error)

/-- Going straight to a field finds what the traversal visits in its place.  Fields may
share a name, and then the name leads to the first of them. -/
structure FieldAccess (value : Value) (visits : Traversal String ε) : Prop where
  fieldByIndex_eq_ok_iff : ∀ index field, value.view.fields[index]? = some field → ∀ part,
    value.fieldByIndex index = .ok part ↔ visits.calls[index]? = some (field.name, part)
  fieldByIndex_eq_error : ∀ index < value.view.fields.length, ∀ error,
    value.fieldByIndex index = .error error → visits.ending = .ok (.error error)
  fieldByName_eq_ok_iff : ∀ name part,
    value.fieldByName name = .ok part ↔
      visits.calls.find? (fun call => call.1 = name) = some (name, part)

theorem elementAccess_of_linked
    {value : Value} (linked : value.view.Linked) (addressable : value.bytes.length < Offset.bound)
    (repeats : value.kind = .array ∨ value.kind = .slice) :
    value.ElementAccess (value.rangeElements (.accept : Callback Nat ε)) := by
  rw [rangeElements_eq_announce, announce_accept]
  refine ⟨?_, ?_⟩
  · intro length counted index within part
    rw [(shows_index linked addressable repeats counted within).eq_ok_iff]
    simp [List.mk_mem_zipIdx_iff_getElem?]
  · intro length counted index within error failed
    have shown := shows_index linked addressable repeats counted within
    rw [failed] at shown
    exact congrArg Except.ok shown.ending_eq

theorem fieldAccess_of_linked
    {value : Value} (linked : value.view.Linked) (isStruct : value.kind = .struct) :
    value.FieldAccess (value.rangeFields (.accept : Callback String ε)) := by
  obtain ⟨parts, follow, _⟩ := linked.fields
  rw [rangeFields_eq_announce isStruct follow, announce_accept, List.nil_append]
  refine ⟨?_, ?_, ?_⟩
  · intro index field atIndex part
    obtain ⟨within, _⟩ := List.getElem?_eq_some_iff.mp atIndex
    rw [(shows_fieldByIndex isStruct follow within).eq_ok_iff]
    simp [List.getElem?_zip_eq_some, atIndex]
  · intro index within error failed
    have shown := shows_fieldByIndex isStruct follow within
    rw [failed] at shown
    exact congrArg Except.ok shown.ending_eq
  · intro name part
    have expected : value.expectStruct = .ok () := if_pos isStruct
    have place : value.view.fields.findIdx? (fun field => field.name = name) =
        value.view.fieldIndex? name := rfl
    rw [find?_zip_eq_some_iff, place, fieldByName]
    simp only [expected, bind, Except.bind]
    cases known : value.view.fieldIndex? name with
    | none => simp
    | some index =>
        obtain ⟨within, _⟩ := List.findIdx?_eq_some_iff_getElem.mp known
        simp [(shows_fieldByIndex isStruct follow within).eq_ok_iff]

/-- Access to single parts finds what a traversal passes to a callback that never fails:
the same part, or the error that ends the traversal.  Any other callback sees the same
calls up to the first that it refuses. -/
theorem access_eq_traversal
    {registry : Registry} (returned : registry.Returned) {value : Value}
    (reachable : Reachable registry value.view)
    (addressable : value.bytes.length < Offset.bound) :
    (value.kind = .array ∨ value.kind = .slice →
      value.ElementAccess (value.rangeElements (.accept : Callback Nat ε))) ∧
    (value.kind = .struct →
      value.FieldAccess (value.rangeFields (.accept : Callback String ε))) ∧
    (∀ callback : Callback Nat ε,
      CutAtFirstError callback (value.rangeElements .accept) (value.rangeElements callback)) ∧
    ∀ callback : Callback String ε,
      CutAtFirstError callback (value.rangeFields .accept) (value.rangeFields callback) := by
  have linked := reachable.linked returned.registered
  refine ⟨elementAccess_of_linked linked addressable, fieldAccess_of_linked linked, ?_, ?_⟩
  · exact cutAtFirstError_of_announced (rangeElements_eq_announce value)
  · by_cases isStruct : value.kind = .struct
    · obtain ⟨parts, follow, _⟩ := linked.fields
      exact cutAtFirstError_of_announced (rangeFields_eq_announce isStruct follow)
    · have announced : ∀ callback : Callback String ε, value.rangeFields callback =
          announce callback (value.mismatch .struct) [] [] := by
        intro callback
        unfold rangeFields forFields expectStruct
        rw [if_neg isStruct]
        rfl
      exact cutAtFirstError_of_announced announced

/-- The view of a list of nodes. -/
def childrenView : View := ⟨Registry.nodeRegistry, .slice none (.placeholder .struct "Node")⟩

theorem reachable_childrenView : Reachable Registry.nodeRegistry childrenView := by
  have reachable : Reachable Registry.nodeRegistry nodeView :=
    .byName (rfl : Registry.nodeRegistry.viewByName "Node" = .ok nodeView)
  have taken : nodeView.step (.field 2) = .ok (some childrenView) := rfl
  exact .step reachable taken

/-- Two nodes are counted, and the second breaks off. -/
def brokenChildren : Value := ⟨childrenView, Wire.count 2 ++ nodeBytes 8 [] ++ [9]⟩

theorem traversal_brokenChildren :
    (0, ⟨nodeView, nodeBytes 8 []⟩) ∈
        (brokenChildren.rangeElements (.accept : Callback Nat Unit)).calls ∧
      (brokenChildren.rangeElements (.accept : Callback Nat Unit)).ending =
        .ok (.error .invalidSchemaOrData) := by
  have addressable : brokenChildren.bytes.length < Offset.bound := by decide
  have access : brokenChildren.ElementAccess
      (brokenChildren.rangeElements (.accept : Callback Nat Unit)) :=
    (access_eq_traversal Registry.returned_nodeRegistry reachable_childrenView addressable).1 (.inr rfl)
  have first : brokenChildren.index 0 = .ok ⟨nodeView, nodeBytes 8 []⟩ := rfl
  have second : brokenChildren.index 1 = .error .invalidSchemaOrData := rfl
  exact ⟨(access.index_eq_ok_iff 2 rfl 0 (by decide) _).mp first,
    access.index_eq_error 2 rfl 1 (by decide) _ second⟩

end TypedObject.Value
