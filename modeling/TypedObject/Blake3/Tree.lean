import TypedObject.Blake3.Compression

/-!
# The BLAKE3 digest

The input is cut into chunks of 1024 bytes, which are the leaves of a binary tree.  Of more than
one chunk, the left subtree takes the largest power of two of them that leaves something for the
right.  Each subtree ends in one compression that is still to be made: with the root flag it
yields the digest, without it the chaining value that the parent joins.
-/

namespace TypedObject.Blake3

/-- The last compression of a subtree, before it is known whether the subtree is the whole. -/
structure Node where
  chaining : ChainingValue
  block : Block
  counter : UInt64
  blockLength : UInt32
  flags : UInt32

def Node.chainingValue (node : Node) : ChainingValue :=
  (compress node.chaining node.block node.counter node.blockLength node.flags).take 8

def Node.digest (node : Node) : Bytes :=
  let words := compress node.chaining node.block 0 node.blockLength (node.flags ||| root)
  (words.toList.take 8).flatMap fun word => Bytes.ofNat 4 word.toNat

def Node.join (left right : Node) : Node where
  chaining := initialValue
  block := left.chainingValue ++ right.chainingValue
  counter := 0
  blockLength := 64
  flags := parent

/-- The blocks of a chunk from a given chaining value on.  The last block, which may be the only
one and may be empty, is left to be compressed. -/
def chunkFrom (counter : UInt64) (start : UInt32) (chaining : ChainingValue) (bytes : Bytes) :
    Node :=
  if _long : 64 < bytes.length then
    let words := compress chaining (Block.ofBytes (bytes.take 64)) counter 64 start
    chunkFrom counter 0 (words.take 8) (bytes.drop 64)
  else
    { chaining
      block := Block.ofBytes bytes
      counter
      blockLength := UInt32.ofNat bytes.length
      flags := start ||| chunkEnd }
  termination_by bytes.length
  decreasing_by simp only [List.length_drop]; omega

def chunk (counter : UInt64) (bytes : Bytes) : Node :=
  chunkFrom counter chunkStart initialValue bytes

/-- Bytes of the left subtree, of more than one chunk: the largest power of two of chunks that is
smaller than the whole. -/
def leftLength (length : Nat) : Nat :=
  1024 <<< ((length - 1) / 1024).log2

theorem leftLength_lt {length : Nat} (long : 1024 < length) : leftLength length < length := by
  have chunks : (length - 1) / 1024 ≠ 0 := by omega
  have power := Nat.log2_self_le chunks
  unfold leftLength
  rw [Nat.shiftLeft_eq]
  omega

theorem leftLength_pos (length : Nat) : 0 < leftLength length := by
  have power := Nat.two_pow_pos ((length - 1) / 1024).log2
  unfold leftLength
  rw [Nat.shiftLeft_eq]
  omega

def subtree (counter : Nat) (bytes : Bytes) : Node :=
  if long : 1024 < bytes.length then
    let left := leftLength bytes.length
    Node.join (subtree counter (bytes.take left))
      (subtree (counter + left / 1024) (bytes.drop left))
  else chunk (UInt64.ofNat counter) bytes
  termination_by bytes.length
  decreasing_by
    · have shorter := leftLength_lt long
      simp only [List.length_take]
      omega
    · have positive := leftLength_pos bytes.length
      simp only [List.length_drop]
      omega

def hash (bytes : Bytes) : Bytes :=
  (subtree 0 bytes).digest

@[simp] theorem length_hash (bytes : Bytes) : (hash bytes).length = 32 := by
  simp [hash, Node.digest, List.length_flatMap, List.map_const']

end TypedObject.Blake3
