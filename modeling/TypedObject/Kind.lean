/-!
# Kinds

A schema has one of sixteen kinds, and a reference schema in addition one of three reference
kinds.  Both are written on the wire as small codes; code zero is no kind, and as a reference
kind it says that the schema is not a reference.
-/

namespace TypedObject

inductive Kind where
  | bool | int8 | uint8 | int16 | uint16 | int32 | uint32 | int64 | uint64
  | float32 | float64 | string | slice | array | struct | reference
  deriving DecidableEq, Repr

namespace Kind

def all : List Kind :=
  [bool, int8, uint8, int16, uint16, int32, uint32, int64, uint64, float32, float64, string,
    slice, array, struct, reference]

/-- The number that stands for the kind on the wire. -/
def code : Kind → Nat
  | bool => 1
  | int8 => 2
  | uint8 => 3
  | int16 => 4
  | uint16 => 5
  | int32 => 6
  | uint32 => 7
  | int64 => 8
  | uint64 => 9
  | float32 => 10
  | float64 => 11
  | string => 12
  | slice => 13
  | array => 14
  | struct => 15
  | reference => 16

def ofCode? : Nat → Option Kind
  | 1 => some bool
  | 2 => some int8
  | 3 => some uint8
  | 4 => some int16
  | 5 => some uint16
  | 6 => some int32
  | 7 => some uint32
  | 8 => some int64
  | 9 => some uint64
  | 10 => some float32
  | 11 => some float64
  | 12 => some string
  | 13 => some slice
  | 14 => some array
  | 15 => some struct
  | 16 => some reference
  | _ => none

def name : Kind → String
  | bool => "bool"
  | int8 => "int8"
  | uint8 => "uint8"
  | int16 => "int16"
  | uint16 => "uint16"
  | int32 => "int32"
  | uint32 => "uint32"
  | int64 => "int64"
  | uint64 => "uint64"
  | float32 => "float32"
  | float64 => "float64"
  | string => "string"
  | slice => "slice"
  | array => "array"
  | struct => "struct"
  | reference => "reference"

def ofName? (name : String) : Option Kind :=
  all.find? (fun kind => kind.name = name)

def title (kind : Kind) : String :=
  kind.name.capitalize

/-- Encoded width of the kinds whose values all have the same width. -/
def fixedSize? : Kind → Option Nat
  | bool | int8 | uint8 => some 1
  | int16 | uint16 => some 2
  | int32 | uint32 | float32 => some 4
  | int64 | uint64 | float64 => some 8
  | string | slice | array | struct | reference => none

/-- Kinds of values without parts: those of fixed width, and strings. -/
def isScalar (kind : Kind) : Bool :=
  kind.fixedSize?.isSome || kind = string

@[simp] theorem ofCode?_code (kind : Kind) : ofCode? kind.code = some kind := by
  cases kind <;> rfl

theorem code_of_ofCode? {number : Nat} {kind : Kind} (found : ofCode? number = some kind) :
    kind.code = number := by
  unfold ofCode? at found
  split at found <;> cases found <;> rfl

theorem code_lt (kind : Kind) : kind.code < 4294967296 := by
  cases kind <;> decide

end Kind

inductive ReferenceKind where
  | single
  | slice
  /-- One object that travels with the identifier of its schema. -/
  | dynamic
  deriving DecidableEq, Repr

namespace ReferenceKind

def code : ReferenceKind → Nat
  | single => 1
  | slice => 2
  | dynamic => 3

/-- What a reference code says about a schema. -/
inductive Reading where
  | notReference
  | known (kind : ReferenceKind)
  | unknown
  deriving DecidableEq, Repr

def ofCode : Nat → Reading
  | 0 => .notReference
  | 1 => .known single
  | 2 => .known slice
  | 3 => .known dynamic
  | _ => .unknown

def name : ReferenceKind → String
  | single => "single"
  | slice => "slice"
  | dynamic => "dynamic"

def ofName? (name : String) : Option ReferenceKind :=
  [single, slice, dynamic].find? (fun kind => kind.name = name)

def title (kind : ReferenceKind) : String :=
  kind.name.capitalize

@[simp] theorem ofCode_code (kind : ReferenceKind) : ofCode kind.code = .known kind := by
  cases kind <;> rfl

theorem code_of_ofCode {number : Nat} {kind : ReferenceKind}
    (found : ofCode number = .known kind) : kind.code = number := by
  unfold ofCode at found
  split at found <;> cases found <;> rfl

end ReferenceKind

end TypedObject
