/-!
# Columns

Texts that stand below each other in a column are filled up to its width.
-/

namespace TypedObject.Text

/-- A text filled up with blanks to a number of characters. -/
def padded (width : Nat) (text : String) : String :=
  text ++ String.ofList (List.replicate (width - text.length) ' ')

def width (texts : List String) : Nat := texts.foldl (fun most text => max most text.length) 0

end TypedObject.Text
