import TypedObject.Json
import TypedObject.Registry.Decode
import TypedObject.Report.Error
import TypedObject.Store.Basic

/-!
# What a message says

The type and size of a message, and what it carries.  Objects are shown by their reference, and
registries by their identifier and names.
-/

namespace TypedObject

structure MessageReport where
  type : MessageType
  size : Nat
  /-- What the message carries, by name and in the order of the names. -/
  details : List (String × Json)

namespace MessageReport

/-- What a message carries.  A registry is read, and so it may be refused. -/
def detailsOf : Message → Except ReportError (List (String × Json))
  | .ping | .pong => .ok []
  | .joinFeed feed | .leaveFeed feed => .ok [("feed", .string feed.toHex)]
  | .root feed root =>
    .ok [
      ("feed", .string feed.toHex),
      ("hash", .string root.hash.toHex),
      ("prev", .string root.prev.toHex),
      ("root_len", .number root.root.length),
      ("seq", .number root.seq.toNat),
      ("sig_len", .number root.sig.length)]
  | .requestData reference => .ok [("reference", .string reference.toHex)]
  | .data bytes =>
    .ok [("len", .number bytes.length), ("reference", .string (Store.referenceOf bytes).toHex)]
  | .requestRegistry reference => .ok [("reference", .string reference.toHex)]
  | .registry bytes =>
    match Registry.decode bytes with
    | .error cause => .error (.carriedRegistry cause)
    | .ok registry =>
      .ok [
        ("reference", .string registry.reference.toHex),
        ("schemas", .array (registry.names.map .string))]

def ofBytes (maximum : Nat) (bytes : Bytes) : Except ReportError MessageReport :=
  match Message.decode maximum bytes with
  | .error cause => .error (.message (Message.peekType bytes).toOption cause)
  | .ok message => do
    let details ← detailsOf message
    return ⟨message.type, bytes.length, details⟩

def json (report : MessageReport) : Json :=
  .object [
    ("code", .number report.type.code.toNat),
    ("details", .object report.details),
    ("size", .number report.size),
    ("type", .string report.type.text)]

def lines (report : MessageReport) : List String :=
  (report.type.text ++ " (" ++ toString report.size ++ " bytes)") ::
    report.details.map fun detail => "  " ++ detail.1 ++ ": " ++ detail.2.compact

end MessageReport

end TypedObject
