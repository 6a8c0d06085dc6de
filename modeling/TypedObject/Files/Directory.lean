import TypedObject.Files.Access

/-!
# Directories as values

A directory with all files and directories in it.  Paths are relative to it and do not lead out
of it.  A path is walked step by step, and every step starts from a directory.  The length of a
path and of a name in it are limited.
-/

namespace TypedObject

/-- The names on the way from the directory to a file or to a directory in it. -/
abbrev Location := List String

structure Directory where
  files : List (Location × Bytes)
  directories : List Location

namespace Directory

def empty : Directory := ⟨[], []⟩

def isDirectory (directory : Directory) (location : Location) : Bool :=
  location = [] || directory.directories.contains location

def isFile (directory : Directory) (location : Location) : Bool :=
  (directory.files.lookup location).isSome

def split : List Char → List (List Char)
  | [] => [[]]
  | character :: rest =>
    if character = '/' then [] :: split rest
    else
      match split rest with
      | [] => [[character]]
      | part :: parts => (character :: part) :: parts

def maximumPath : Nat := 4095

def maximumName : Nat := 255

/-- The steps of a path, if it is relative and not too long. -/
def steps? (path : String) : Option (List String) :=
  if maximumPath < path.utf8ByteSize then none
  else
    match (split path.toList).map String.ofList with
    | "" :: _ => none
    | steps => some steps

def isStill (name : String) : Bool := name = "" || name = "."

/-- One step from a location, which leads to where there may be nothing yet. -/
def step? (directory : Directory) (location : Location) (name : String) : Option Location :=
  if !directory.isDirectory location then none
  else if isStill name then some location
  else if name = ".." then if location = [] then none else some location.dropLast
  else if maximumName < name.utf8ByteSize then none
  else some (location ++ [name])

def locate? (directory : Directory) (path : String) : Option Location := do
  (← steps? path).foldlM directory.step? []

def read? (directory : Directory) (path : String) : Option Bytes := do
  directory.files.lookup (← directory.locate? path)

def write? (directory : Directory) (path : String) (content : Bytes) : Option Directory := do
  let location ← directory.locate? path
  guard !(directory.isDirectory location)
  let others := directory.files.filter fun file => file.1 ≠ location
  return { directory with files := others ++ [(location, content)] }

/-- Adds a directory at a location, if nothing else is there. -/
def add? (directory : Directory) (location : Location) : Option Directory :=
  if directory.isDirectory location then some directory
  else if directory.isFile location then none
  else some { directory with directories := directory.directories ++ [location] }

def makeAlong? (directory : Directory) (location : Location) : List String → Option Directory
  | [] => some directory
  | name :: names => do
    let location ← directory.step? location name
    let directory ← directory.add? location
    directory.makeAlong? location names

def around (steps : List String) : List String := (steps.reverse.dropWhile isStill).tail.reverse

/-- Makes a directory.  A path that ends with a point names no directory to make, so what stands
before the point has to be there as soon as the directory around it is. -/
def makeDirectory? (directory : Directory) (path : String) : Option Directory := do
  let steps ← steps? path
  if (steps.filter (· ≠ "")).getLast? = some "." then
    let directory ← directory.makeAlong? [] (around steps)
    guard ((steps.foldlM directory.step? []).any directory.isDirectory)
    return directory
  directory.makeAlong? [] steps

def place? (directory : Directory) (path : String) (content : Bytes) : Option Directory := do
  let directory ← directory.makeAlong? [] (← steps? path).dropLast
  directory.write? path content

def ofFiles? (files : List (String × Bytes)) : Option Directory :=
  files.foldlM (fun directory file => directory.place? file.1 file.2) empty

def pathOf (location : Location) : String := String.intercalate "/" location

def filesBeside (directory other : Directory) : List (String × Bytes) :=
  (directory.files.filter fun file => !other.isFile file.1).map fun file =>
    (pathOf file.1, file.2)

def attempt (change : Directory → Option Directory) : StateM Directory Bool := fun directory =>
  match change directory with
  | some changed => (true, changed)
  | none => (false, directory)

def access : FileAccess (StateM Directory) where
  read? path := fun directory => (directory.read? path, directory)
  makeDirectory path := attempt fun directory => directory.makeDirectory? path
  write path content := attempt fun directory => directory.write? path content

end Directory

end TypedObject
