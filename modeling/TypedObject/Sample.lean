import TypedObject.Registry.Link
import TypedObject.Value.Datum

/-!
# A sample

A small vocabulary of users and groups: a group refers to its members, to its leader, and to
something of any registered type.
-/

namespace TypedObject.Sample

def userName : String := "cxo.User"

def groupName : String := "cxo.Group"

def declarations : Declarations := [
  ("User", .struct [
    .plain "Name" (.scalar .string),
    .plain "Age" (.scalar .uint32),
    .plain "Tags" (.slice (.scalar .string))]),
  ("Group", .struct [
    .plain "Name" (.scalar .string),
    .references "Members" userName,
    .reference "Leader" userName,
    .dynamic "Meta"])]

def registry : Except SchemaError Registry :=
  Registry.declare declarations [(.declared "User", userName), (.declared "Group", groupName)]

def user (name : String) (age : Nat) (tags : List String) : Datum :=
  .struct [.string name, .unsigned 4 age, .slice (tags.map .string)]

end TypedObject.Sample
