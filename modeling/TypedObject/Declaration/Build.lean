import TypedObject.Declaration.Registrar
import TypedObject.Schema.Basic

/-!
# The schema of a declared type

Members that are registered become placeholders, and all other members are expanded in place.
The path of types that are being expanded is kept, since a type without a name that contains
itself has no finite schema.  Every expansion either goes on to a smaller type expression or adds
a declared type to the path, so it ends.
-/

namespace TypedObject.Registrar

private theorem offPath_cons_le (declarations : Declarations) (path : List TypeExpr)
    (type : TypeExpr) :
    declarations.offPath (type :: path) ≤ declarations.offPath path := by
  unfold Declarations.offPath
  apply List.countP_mono_left
  intro declaration _
  simp only [List.mem_cons, not_or, decide_eq_true_eq]
  exact fun outside => outside.2

private theorem offPath_cons_lt {declarations : Declarations} {path : List TypeExpr}
    {name : String} {layout : Layout} (found : declarations.lookup name = some layout)
    (fresh : TypeExpr.declared name ∉ path) :
    declarations.offPath (.declared name :: path) < declarations.offPath path := by
  induction declarations with
  | nil => cases found
  | cons declaration declarations induction =>
      obtain ⟨key, value⟩ := declaration
      by_cases same : name = key
      · subst same
        have later := offPath_cons_le declarations path (.declared name)
        simp only [Declarations.offPath, List.countP_cons] at later ⊢
        simp only [fresh, List.mem_cons, true_or, not_true_eq_false, decide_false,
          not_false_eq_true, decide_true, if_true]
        simp only [List.mem_cons] at later
        simp only [Bool.false_eq_true, if_false]
        omega
      · have foundLater : declarations.lookup name = some layout := by
          have unequal : (name == key) = false := by simpa using same
          rw [List.lookup_cons, unequal] at found
          exact found
        have smaller := induction foundLater
        have different : TypeExpr.declared key ≠ TypeExpr.declared name := by
          intro equal
          cases equal
          exact same rfl
        simp only [Declarations.offPath, List.countP_cons] at smaller ⊢
        simp only [List.mem_cons, different, false_or] at smaller ⊢
        omega

/-- Where expanding a member of `type` leads: to fewer declarations off the path, or to a smaller
expression. -/
private theorem elem_decreases {declarations : Declarations} {path : List TypeExpr}
    {type elem : TypeExpr} (fresh : type ∉ path)
    (shape : declarations.layout type = .slice elem ∨
      ∃ length, declarations.layout type = .array length elem) :
    Prod.Lex (· < ·) (· < ·) (declarations.offPath (type :: path), sizeOf elem)
      (declarations.offPath path, sizeOf type) := by
  have fewer := offPath_cons_le declarations path type
  cases type with
  | scalar kind => simp [Declarations.layout] at shape
  | marker kind => simp [Declarations.layout] at shape
  | slice inner =>
      have same : inner = elem := by simpa [Declarations.layout] using shape
      subst same
      rcases Nat.lt_or_eq_of_le fewer with less | equal
      · exact Prod.Lex.left _ _ less
      · rw [equal]
        exact Prod.Lex.right _ (by rw [TypeExpr.slice.sizeOf_spec]; omega)
  | array length inner =>
      have same : inner = elem := by simpa [Declarations.layout] using shape
      subst same
      rcases Nat.lt_or_eq_of_le fewer with less | equal
      · exact Prod.Lex.left _ _ less
      · rw [equal]
        exact Prod.Lex.right _ (by rw [TypeExpr.array.sizeOf_spec]; omega)
  | declared name =>
      cases found : declarations.lookup name with
      | none => simp [Declarations.layout, found] at shape
      | some layout => exact Prod.Lex.left _ _ (offPath_cons_lt found fresh)

private theorem fields_decreases {declarations : Declarations} {path : List TypeExpr}
    {type : TypeExpr} {fields : List FieldDeclaration} (fresh : type ∉ path)
    (keep : FieldDeclaration → Bool) (shape : declarations.layout type = .struct fields) :
    Prod.Lex (· < ·) (· < ·)
      (declarations.offPath (type :: path), sizeOf (fields.filter keep))
      (declarations.offPath path, sizeOf type) := by
  cases type with
  | scalar kind => cases shape
  | marker kind => cases shape
  | slice inner => cases shape
  | array length inner => cases shape
  | declared name =>
      cases found : declarations.lookup name with
      | some layout => exact Prod.Lex.left _ _ (offPath_cons_lt found fresh)
      | none =>
          have noFields : fields = [] := by
            simpa [Declarations.layout, found, eq_comm] using shape
          subst noFields
          rcases Nat.lt_or_eq_of_le (offPath_cons_le declarations path (.declared name))
            with less | equal
          · exact Prod.Lex.left _ _ less
          · rw [equal]
            refine Prod.Lex.right _ ?_
            rw [List.filter_nil, List.nil.sizeOf_spec, TypeExpr.declared.sizeOf_spec]
            cases name
            simp only [String.ofByteArray.sizeOf_spec]
            omega

private theorem sizeOf_type_lt (field : FieldDeclaration) : sizeOf field.type < sizeOf field := by
  cases field with
  | mk name tag type isPrivate =>
      rw [FieldDeclaration.mk.sizeOf_spec]
      show sizeOf type < _
      omega

def placeholder? (registrar : Registrar) (type : TypeExpr) : Option Schema :=
  (registrar.name? type).map fun name => .placeholder (registrar.layout type).kind name

/-- The schema of a field that needs no expansion of the field's type: a reference, or the
placeholder of a registered type. -/
def directSchema? (registrar : Registrar) (field : FieldDeclaration) :
    Option (Except SchemaError Schema) :=
  match registrar.layout field.type with
  | .marker .dynamic => some (.ok (.openReference .dynamic))
  | .marker kind =>
    match Tag.schemaName field.tag with
    | .ok target => some (.ok (.referenceTo kind target))
    | .error reason => some (.error (.missingReferenceTag field.name reason))
  | _ => (registrar.placeholder? field.type).map .ok

mutual

/-- The schema of a type in full, below the types on the path. -/
def build (registrar : Registrar) (type : TypeExpr) (path : List TypeExpr) :
    Except SchemaError Schema :=
  if _fresh : type ∈ path then .error (.recursiveType type)
  else
    match _shape : registrar.declarations.layout type with
    | .scalar kind => .ok (.scalar kind (registrar.name? type))
    | .slice elem => do
      let elemSchema ← (match registrar.placeholder? elem with
        | some placeholder => .ok placeholder
        | none => registrar.build elem (type :: path))
      return .slice (registrar.name? type) elemSchema
    | .array length elem => do
      let elemSchema ← (match registrar.placeholder? elem with
        | some placeholder => .ok placeholder
        | none => registrar.build elem (type :: path))
      return .array (registrar.name? type) length elemSchema
    | .struct fields => do
      let included := fields.filter fun field => !field.isExcluded
      let fieldSchemas ← registrar.buildFields included (type :: path)
      return .struct (registrar.name? type) fieldSchemas
    | .marker _ => .error (.nestedReference type)
  termination_by (registrar.declarations.offPath path, sizeOf type)
  decreasing_by
    · exact elem_decreases _fresh (.inl _shape)
    · exact elem_decreases _fresh (.inr ⟨length, _shape⟩)
    · exact fields_decreases _fresh _ _shape

def buildFields (registrar : Registrar) (fields : List FieldDeclaration)
    (path : List TypeExpr) : Except SchemaError (List Field) :=
  match fields with
  | [] => .ok []
  | field :: rest => do
    let schema ← (match registrar.directSchema? field with
      | some result => result
      | none => registrar.build field.type path)
    let others ← registrar.buildFields rest path
    return ⟨field.name, field.tag, schema⟩ :: others
  termination_by (registrar.declarations.offPath path, sizeOf fields)
  decreasing_by
    · have smaller := sizeOf_type_lt field
      exact Prod.Lex.right _ (by rw [List.cons.sizeOf_spec]; omega)
    · exact Prod.Lex.right _ (by rw [List.cons.sizeOf_spec]; omega)

end

def schemaOf (registrar : Registrar) (type : TypeExpr) : Except SchemaError Schema :=
  registrar.build type []

end TypedObject.Registrar
