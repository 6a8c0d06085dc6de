import TypedObject.Identifier

/-!
# Messages between nodes

Nodes exchange nine kinds of message.  Each has a type, one byte that begins its encoding; any
byte can be held as a type, and those from one to nine are known.
-/

namespace TypedObject

/-- A byte that says what message follows. -/
structure MessageType where
  code : UInt8
  deriving DecidableEq, Repr

namespace MessageType

def name? (type : MessageType) : Option String :=
  match type.code.toNat with
  | 1 => some "PING"
  | 2 => some "PONG"
  | 3 => some "ADD"
  | 4 => some "DEL"
  | 5 => some "ROOT"
  | 6 => some "RQDT"
  | 7 => some "DATA"
  | 8 => some "RQREG"
  | 9 => some "REG"
  | _ => none

def isKnown (type : MessageType) : Bool := type.name?.isSome

def text (type : MessageType) : String :=
  type.name?.getD ("MsgType<" ++ toString type.code.toNat ++ ">")

def summary (type : MessageType) : String := "MsgType(" ++ toString type.code.toNat ++ ")"

end MessageType

/-- A signed root of a feed.  Its parts are carried and not interpreted. -/
structure Root where
  root : Bytes
  hash : Reference
  sig : Bytes
  seq : UInt64
  /-- The hash of the root before it; blank for the first. -/
  prev : Reference
  deriving DecidableEq

/-- What nodes say to each other. -/
inductive Message where
  | ping
  | pong
  | joinFeed (feed : FeedId)
  | leaveFeed (feed : FeedId)
  | root (feed : FeedId) (root : Root)
  | requestData (reference : Reference)
  | data (bytes : Bytes)
  | requestRegistry (reference : RegistryRef)
  | registry (bytes : Bytes)
  deriving DecidableEq

namespace Message

def code : Message → UInt8
  | ping => 1
  | pong => 2
  | joinFeed _ => 3
  | leaveFeed _ => 4
  | root _ _ => 5
  | requestData _ => 6
  | data _ => 7
  | requestRegistry _ => 8
  | registry _ => 9

def type (message : Message) : MessageType := ⟨message.code⟩

def name : Message → String
  | ping => "Ping"
  | pong => "Pong"
  | joinFeed _ => "JoinFeed"
  | leaveFeed _ => "LeaveFeed"
  | root _ _ => "Root"
  | requestData _ => "RequestData"
  | data _ => "Data"
  | requestRegistry _ => "RequestRegistry"
  | registry _ => "Registry"

end Message

end TypedObject
