import TypedObject.Toml.Value

/-!
# Building tables

Entries are added along a path of keys, and tables that are missing on the way are made.  Nothing
is defined twice.
-/

namespace TypedObject.Toml

def put (key : String) (value : Value) : Entries → Entries
  | [] => [(key, value)]
  | (other, old) :: rest =>
    if other = key then (key, value) :: rest else (other, old) :: put key value rest

/-- Adds a value under a dotted key.  The key leads through tables that have no header of their
own, and the value goes into a table that dotted keys made. -/
def addDotted (value : Value) : (path : List String) → Entries → Option Entries
  | [], _ => none
  | [key], entries =>
    match entries.lookup key with
    | none => some (put key value entries)
    | some _ => none
  | key :: path, entries =>
    match entries.lookup key with
    | none => (addDotted value path []).map fun inner => put key (.table .dotted inner) entries
    | some (.table .dotted old) =>
      (addDotted value path old).map fun inner => put key (.table .dotted inner) entries
    | some (.table .implied old) =>
      if path.length = 1 then none
      else (addDotted value path old).map fun inner => put key (.table .implied inner) entries
    | some (.tables items) =>
      match items.getLast? with
      | some last =>
        if path.length = 1 then none
        else (addDotted value path last).map fun inner =>
          put key (.tables (items.dropLast ++ [inner])) entries
      | none => none
    | some _ => none

/-- Changes what stands under the path of a header.  The path leads through tables that are not
written between braces, and through the last of several tables. -/
def alter (change : Option Value → Option Value) :
    (path : List String) → Entries → Option Entries
  | [], _ => none
  | [key], entries => (change (entries.lookup key)).map fun value => put key value entries
  | key :: path, entries =>
    match entries.lookup key with
    | none => (alter change path []).map fun inner => put key (.table .implied inner) entries
    | some (.table .inline _) => none
    | some (.table origin old) =>
      (alter change path old).map fun inner => put key (.table origin inner) entries
    | some (.tables items) =>
      match items.getLast? with
      | some last => (alter change path last).map fun inner =>
          put key (.tables (items.dropLast ++ [inner])) entries
      | none => none
    | some _ => none

def addAll (pairs : List (List String × Value)) (entries : Entries) : Option Entries :=
  pairs.foldlM (fun entries pair => addDotted pair.2 pair.1 entries) entries

/-- The table under a header, which may be open from headers of tables inside it. -/
def section? (pairs : List (List String × Value)) : Option Value → Option Value
  | none => (addAll pairs []).map (.table .header)
  | some (.table .implied old) => (addAll pairs old).map (.table .header)
  | some _ => none

def sections? (pairs : List (List String × Value)) : Option Value → Option Value
  | none => (addAll pairs []).map fun entries => .tables [entries]
  | some (.tables items) => (addAll pairs []).map fun entries => .tables (items ++ [entries])
  | some _ => none

end TypedObject.Toml
