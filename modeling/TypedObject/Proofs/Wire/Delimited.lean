import TypedObject.Proofs.Wire.Reading

/-!
# Readers that notice where their input ends

A reader takes certain bytes from the front and looks at nothing behind them.  When some
of these bytes are missing, the reads before the missing ones go as they did, and the
first read that reaches for one of them fails for the end of the data; no check comes in
between.  Sequencing and repetition keep this, whatever is made of the bytes.
-/

namespace TypedObject

namespace Reader

variable {α β : Type}

/-- The reader takes exactly the given bytes: what follows them is left as it is, and a
part of them ends too early. -/
structure Takes (reader : Reader α) (taken : Bytes) (value : α) : Prop where
  followed : ∀ more, reader (taken ++ more) = (.ok value, more)
  cut : ∀ size < taken.length, ∃ need available left, available < need ∧
    reader (taken.take size) = (.error (.unexpectedEnd need available), left)

/-- Wherever the reader succeeds, it takes bytes from the front. -/
def Delimited (reader : Reader α) : Prop :=
  ∀ bytes value rest, reader bytes = (.ok value, rest) →
    ∃ taken, bytes = taken ++ rest ∧ reader.Takes taken value

theorem Takes.bind
    {reader : Reader α} {next : α → Reader β} {first second : Bytes} {value : α} {result : β}
    (takes : reader.Takes first value) (takesNext : (next value).Takes second result) :
    (reader >>= next).Takes (first ++ second) result := by
  constructor
  case followed =>
    intro more
    rw [bind_apply, List.append_assoc, takes.followed]
    exact takesNext.followed more
  case cut =>
    intro size less
    rw [List.length_append] at less
    by_cases inFirst : size < first.length
    · obtain ⟨need, available, left, short, failed⟩ := takes.cut size inFirst
      refine ⟨need, available, left, short, ?_⟩
      rw [bind_apply, List.take_append_of_le_length (Nat.le_of_lt inFirst), failed]
    · have inSecond : size - first.length < second.length := by omega
      obtain ⟨need, available, left, short, failed⟩ := takesNext.cut _ inSecond
      refine ⟨need, available, left, short, ?_⟩
      rw [bind_apply, List.take_append, List.take_of_length_le (Nat.le_of_not_lt inFirst),
        takes.followed]
      exact failed

theorem delimited_pure (value : α) : Delimited (pure value : Reader α) := by
  intro bytes result rest read
  obtain ⟨same, rfl⟩ := Prod.mk.inj read
  cases same
  exact ⟨[], rfl, fun _ => rfl, fun _ less => absurd less (Nat.not_lt_zero _)⟩

theorem delimited_fail (error : SchemaError) : Delimited (fail error : Reader α) := by
  intro bytes value rest read
  cases read

theorem delimited_lift (result : Except SchemaError α) : Delimited (lift result) := by
  cases result with
  | ok value => exact delimited_pure value
  | error error => exact delimited_fail error

theorem Delimited.bind
    {reader : Reader α} {next : α → Reader β} (first : reader.Delimited)
    (later : ∀ value, (next value).Delimited) : (reader >>= next).Delimited := by
  intro bytes result rest read
  rw [bind_apply] at read
  rcases outcome : reader bytes with ⟨_ | value, middle⟩
  · rw [outcome] at read
    cases read
  · rw [outcome] at read
    obtain ⟨taken, rfl, takes⟩ := first _ _ _ outcome
    obtain ⟨takenNext, rfl, takesNext⟩ := later value _ _ _ read
    exact ⟨taken ++ takenNext, (List.append_assoc _ _ _).symm, takes.bind takesNext⟩

theorem delimited_take (size : Nat) : Delimited (take size) := by
  intro bytes taken rest read
  unfold take at read
  split at read
  · cases read
  · rename_i enough
    rw [Bytes.isShorter_iff, Nat.not_lt] at enough
    cases read
    have length : (bytes.take size).length = size := List.length_take_of_le enough
    refine ⟨_, (List.take_append_drop size bytes).symm, ?_, ?_⟩
    · intro more
      have read := take_append (bytes.take size) more
      rw [length] at read
      exact read
    · intro fewer less
      have short : ((bytes.take size).take fewer).length < size := by
        rw [length] at less
        rw [List.length_take]
        omega
      exact ⟨size, _, (bytes.take size).take fewer, short, take_of_short short⟩

theorem delimited_word : Delimited word :=
  (delimited_take 4).bind fun _ => delimited_pure _

theorem delimited_count : Delimited count := delimited_word

theorem delimited_counted : Delimited counted := delimited_count.bind delimited_take

theorem delimited_text : Delimited text := by
  apply delimited_counted.bind
  intro bytes
  cases Bytes.toText? bytes with
  | some text => exact delimited_pure text
  | none => exact delimited_fail _

theorem delimited_times {item : Reader α} (each : item.Delimited) (size : Nat) :
    (times item size).Delimited := by
  induction size with
  | zero => exact delimited_pure []
  | succ size induction =>
      apply each.bind
      intro first
      apply induction.bind
      intro others
      exact delimited_pure _

end Reader

namespace Wire

variable {α : Type}

/-- The bytes show where they end: a decoder that meets the end of the data within them
says so, and one that finds anything behind them refuses the whole. -/
structure SelfDelimiting (decode : Bytes → Except SchemaError α) (bytes : Bytes) : Prop where
  cut : ∀ size < bytes.length, ∃ need available, available < need ∧
    decode (bytes.take size) = .error (.unexpectedEnd need available)
  extended : ∀ more, more ≠ [] → decode (bytes ++ more) = .error .invalidEncodedSchema

/-- What a reader reads as a whole delimits itself, and so it does for a decoder that
begins with the reader. -/
theorem selfDelimiting_of_whole
    {β : Type} {reader : Reader α} (delimited : reader.Delimited)
    {decode : Bytes → Except SchemaError β}
    (begins : ∀ bytes error, Reader.whole reader bytes = .error error →
      decode bytes = .error error)
    {bytes : Bytes} {value : α} (accepted : Reader.whole reader bytes = .ok value) :
    SelfDelimiting decode bytes := by
  obtain ⟨taken, same, takes⟩ := delimited _ _ _ (Reader.whole_eq_ok_iff.mp accepted)
  rw [List.append_nil] at same
  subst same
  constructor
  case cut =>
    intro size less
    obtain ⟨need, available, left, short, failed⟩ := takes.cut size less
    refine ⟨need, available, short, begins _ _ ?_⟩
    rw [Reader.whole, failed]
  case extended =>
    intro more nonempty
    apply begins
    rw [Reader.whole, takes.followed]
    cases more with
    | nil => exact absurd rfl nonempty
    | cons byte more => rfl

end Wire

end TypedObject
