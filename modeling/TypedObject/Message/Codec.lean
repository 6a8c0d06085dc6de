import TypedObject.Message.Basic

/-!
# Framing messages

A message is its type followed by its payload.  In a payload, digests stand as they are, numbers
take eight bytes, and byte strings follow their length.  A maximal size binds whole messages in
both directions; when a payload is read, the maximum is in addition an allowance from which every
read is paid before it is made, so that a length of a hostile sender cannot ask for more.
-/

namespace TypedObject

inductive PayloadError where
  /-- A read needs more than is left of the allowance. -/
  | limitReached
  /-- A read needs more than is left of the input. -/
  | inputEnded
  deriving DecidableEq, Repr

def PayloadError.message : PayloadError → String
  | .limitReached => "the size limit has been reached"
  | .inputEnded => "io error: failed to fill whole buffer"

inductive MessageError where
  | empty
  | unknownType (type : MessageType)
  | incomplete (consumed total : Nat)
  | tooLarge (size maximum : Nat)
  | payload (error : PayloadError)
  deriving DecidableEq, Repr

def MessageError.message : MessageError → String
  | .empty => "empty message"
  | .unknownType type => "invalid message type: " ++ toString type.code.toNat
  | .incomplete consumed total =>
    "incomplete decoding: consumed " ++ toString consumed ++ " of " ++ toString total ++ " bytes"
  | .tooLarge size maximum =>
    "message too large: " ++ toString size ++ " bytes (max " ++ toString maximum ++ ")"
  | .payload error => "deserialization error: " ++ error.message

namespace Payload

/-- The input that is left, and what may still be read of it. -/
structure Supply where
  rest : Bytes
  allowance : Nat

abbrev Step := StateT Supply (Except PayloadError)

def number : Step Nat := fun supply =>
  if supply.allowance < 8 then .error .limitReached
  else if supply.rest.length < 8 then .error .inputEnded
  else .ok (Bytes.toNat (supply.rest.take 8), ⟨supply.rest.drop 8, supply.allowance - 8⟩)

/-- So many bytes, read one by one: whichever of allowance and input ends first is the error. -/
def bytes (size : Nat) : Step Bytes := fun supply =>
  if size ≤ supply.allowance ∧ size ≤ supply.rest.length then
    .ok (supply.rest.take size, ⟨supply.rest.drop size, supply.allowance - size⟩)
  else if supply.allowance ≤ supply.rest.length then .error .limitReached
  else .error .inputEnded

def sized : Step Bytes := do
  let size ← number
  bytes size

def digest : Step Digest := do
  let content ← bytes 32
  match Digest.ofBytes content with
  | .ok digest => return digest
  | .error _ => throw .inputEnded

def root : Step Root := do
  let root ← sized
  let hash ← digest
  let sig ← sized
  let seq ← number
  let prev ← digest
  return ⟨root, ⟨hash⟩, sig, UInt64.ofNat seq, ⟨prev⟩⟩

def body? (type : MessageType) : Option (Step Message) :=
  match type.code.toNat with
  | 1 => some (pure .ping)
  | 2 => some (pure .pong)
  | 3 => some do return .joinFeed ⟨← digest⟩
  | 4 => some do return .leaveFeed ⟨← digest⟩
  | 5 => some do
    let feed ← digest
    let signed ← root
    return .root ⟨feed⟩ signed
  | 6 => some do return .requestData ⟨← digest⟩
  | 7 => some do return .data (← sized)
  | 8 => some do return .requestRegistry ⟨← digest⟩
  | 9 => some do return .registry (← sized)
  | _ => none

def encodeSized (content : Bytes) : Bytes := Bytes.ofNat 8 content.length ++ content

end Payload

namespace Message

/-- The largest message that is accepted when nothing else is said: 64 MiB. -/
def defaultMaximum : Nat := 64 * 1024 * 1024

def payload : Message → Bytes
  | ping | pong => []
  | joinFeed feed | leaveFeed feed => feed.key.bytes
  | root feed signed =>
    feed.key.bytes ++ Payload.encodeSized signed.root ++ signed.hash.bytes
      ++ Payload.encodeSized signed.sig ++ Bytes.ofNat 8 signed.seq.toNat ++ signed.prev.bytes
  | requestData reference => reference.bytes
  | data content => Payload.encodeSized content
  | requestRegistry reference => reference.bytes
  | registry content => Payload.encodeSized content

def encode (maximum : Nat) (message : Message) : Except MessageError Bytes :=
  let size := message.payload.length + 1
  if maximum < size then .error (.tooLarge size maximum)
  else .ok (message.code :: message.payload)

/-- Reads a message that is not larger than the maximum and fills its input. -/
def decode (maximum : Nat) (input : Bytes) : Except MessageError Message :=
  match input with
  | [] => .error .empty
  | code :: payload =>
    if maximum < input.length then .error (.tooLarge input.length maximum)
    else
      match Payload.body? ⟨code⟩ with
      | none => .error (.unknownType ⟨code⟩)
      | some body =>
        match body.run ⟨payload, maximum⟩ with
        | .error error => .error (.payload error)
        | .ok (message, supply) =>
          if supply.rest.isEmpty then .ok message
          else .error (.incomplete (input.length - supply.rest.length) input.length)

/-- The type of an encoded message, without reading its payload. -/
def peekType (input : Bytes) : Except MessageError MessageType :=
  match input with
  | [] => .error .empty
  | code :: _ =>
    if MessageType.isKnown ⟨code⟩ then .ok ⟨code⟩ else .error (.unknownType ⟨code⟩)

end Message

end TypedObject
