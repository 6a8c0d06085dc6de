import TypedObject.Bytes

/-!
# Access to files

What a program needs of the files around it.  Whatever runs the program supplies it, be it a disk
or a directory that is a value.
-/

namespace TypedObject

structure FileAccess (m : Type → Type) where
  read? : (path : String) → m (Option Bytes)
  /-- Makes a directory with all directories on the way, and says whether it is there. -/
  makeDirectory : (path : String) → m Bool
  write : (path : String) → Bytes → m Bool

namespace FileAccess

def join (directory name : String) : String :=
  if directory.toList.getLast? = some '/' then directory ++ name else directory ++ "/" ++ name

end FileAccess

end TypedObject
