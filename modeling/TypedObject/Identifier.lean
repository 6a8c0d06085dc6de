import TypedObject.Blake3.Tree
import TypedObject.Digest
import TypedObject.Json
import TypedObject.Text.Blank

/-!
# Content identifiers and feeds

Schemas, registries and objects are each named by the digest of their encoding.  The three
families are separate types, and their digests are taken over separate domains, so that no
identifier of one family can stand for content of another.  A feed is named by a public key,
which is not the digest of anything.
-/

namespace TypedObject

def Digest.json (digest : Digest) : Json :=
  .array (digest.bytes.map fun byte => .number byte.toNat)

inductive Family where
  | schema | registry | object
  deriving DecidableEq, Repr

namespace Family

/-- The text that precedes content of the family when its digest is taken. -/
def domain : Family → String
  | schema => "cxo-schema-v1"
  | registry => "cxo-registry-v1"
  | object => "cxo-object-v1"

def label : Family → String
  | schema => "SchemaRef"
  | registry => "RegistryRef"
  | object => "Reference"

end Family

/-- The digest of some content of a family. -/
structure Identifier (family : Family) where
  digest : Digest
  deriving DecidableEq

abbrev SchemaRef := Identifier .schema

abbrev RegistryRef := Identifier .registry

abbrev Reference := Identifier .object

namespace Identifier

variable {family : Family}

instance : Inhabited (Identifier family) := ⟨⟨.blank⟩⟩

/-- The identifier of content: the digest of domain, colon and content. -/
def ofContent (family : Family) (content : Bytes) : Identifier family where
  digest := ⟨Blake3.hash (Bytes.ofText (family.domain ++ ":") ++ content), by simp⟩

def blank : Identifier family := ⟨.blank⟩

def isBlank (identifier : Identifier family) : Bool := identifier.digest.isBlank

def bytes (identifier : Identifier family) : Bytes := identifier.digest.bytes

def ofHex (text : String) : Except Digest.Error (Identifier family) :=
  (Digest.ofHex text).map Identifier.mk

def ofStart (bytes : Bytes) : Except Digest.Error (Identifier family) :=
  (Digest.ofStart bytes).map Identifier.mk

def toHex (identifier : Identifier family) : String := identifier.digest.toHex

def short (identifier : Identifier family) : String := identifier.digest.short

def summary (identifier : Identifier family) : String :=
  family.label ++ "(" ++ identifier.short ++ ")"

def sort (identifiers : List (Identifier family)) : List (Identifier family) :=
  identifiers.mergeSort fun left right => left.digest.le right.digest

@[simp] theorem length_bytes (identifier : Identifier family) : identifier.bytes.length = 32 :=
  identifier.digest.length_eq

end Identifier

/-- A feed, named by the public key of its owner. -/
structure FeedId where
  key : Digest
  deriving DecidableEq

namespace FeedId

def scheme : String := "feed:"

/-- Reads the digits of the key, after at most one `feed:`. -/
def ofHex (text : String) : Except Digest.Error FeedId :=
  let digits := (Text.dropStart? scheme.toList text.toList).getD text.toList
  (Digest.ofHex (String.ofList digits)).map FeedId.mk

def toHex (feed : FeedId) : String := feed.key.toHex

def short (feed : FeedId) : String := scheme ++ feed.key.short

def summary (feed : FeedId) : String := "FeedId(" ++ feed.short ++ ")"

def json (feed : FeedId) : Json := .object [("key", feed.key.json)]

end FeedId

end TypedObject
