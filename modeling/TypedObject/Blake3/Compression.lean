import TypedObject.Bytes

/-!
# The BLAKE3 compression function

A compression takes a chaining value of eight words, a block of sixteen words, a counter, the
block's length in bytes and a set of flags, and yields sixteen words.  Its first eight words are
the next chaining value.
-/

namespace TypedObject.Blake3

/-- Eight words carried from one compression to the next. -/
abbrev ChainingValue := Vector UInt32 8

abbrev Block := Vector UInt32 16

/-- The words that start every chain and fill the second half of the state. -/
def initialValue : ChainingValue :=
  #v[0x6A09E667, 0xBB67AE85, 0x3C6EF372, 0xA54FF53A,
    0x510E527F, 0x9B05688C, 0x1F83D9AB, 0x5BE0CD19]

/-- Where each word of the next round's message comes from. -/
def schedule : Vector (Fin 16) 16 :=
  #v[2, 6, 3, 10, 7, 0, 4, 13, 1, 11, 12, 5, 9, 14, 15, 8]

def chunkStart : UInt32 := 1
def chunkEnd : UInt32 := 2
def parent : UInt32 := 4
def root : UInt32 := 8

def rotateRight (word amount : UInt32) : UInt32 :=
  (word >>> amount) ||| (word <<< (32 - amount))

def mix (state : Block) (a b c d : Fin 16) (first second : UInt32) : Block :=
  let wordA := state[a] + state[b] + first
  let wordD := rotateRight (state[d] ^^^ wordA) 16
  let wordC := state[c] + wordD
  let wordB := rotateRight (state[b] ^^^ wordC) 12
  let wordA := wordA + wordB + second
  let wordD := rotateRight (wordD ^^^ wordA) 8
  let wordC := wordC + wordD
  let wordB := rotateRight (wordB ^^^ wordC) 7
  (((state.set a wordA).set b wordB).set c wordC).set d wordD

/-- One round mixes the columns of the state, then its diagonals. -/
def round (state message : Block) : Block :=
  let state := mix state 0 4 8 12 message[0] message[1]
  let state := mix state 1 5 9 13 message[2] message[3]
  let state := mix state 2 6 10 14 message[4] message[5]
  let state := mix state 3 7 11 15 message[6] message[7]
  let state := mix state 0 5 10 15 message[8] message[9]
  let state := mix state 1 6 11 12 message[10] message[11]
  let state := mix state 2 7 8 13 message[12] message[13]
  mix state 3 4 9 14 message[14] message[15]

def permute (message : Block) : Block :=
  schedule.map fun source => message[source]

/-- Runs a number of rounds, permuting the message between them. -/
def rounds : (count : Nat) → (state message : Block) → Block
  | 0, state, _ => state
  | count + 1, state, message => rounds count (round state message) (permute message)

def compress (chaining : ChainingValue) (block : Block) (counter : UInt64)
    (blockLength flags : UInt32) : Block :=
  let state : Block := chaining ++
    #v[initialValue[0], initialValue[1], initialValue[2], initialValue[3],
      counter.toUInt32, (counter >>> 32).toUInt32, blockLength, flags]
  let mixed := rounds 7 state block
  Vector.ofFn fun position : Fin 16 =>
    if low : position.val < 8 then mixed[position.val] ^^^ mixed[position.val + 8]
    else mixed[position.val] ^^^ chaining[position.val - 8]

/-- The words of at most 64 bytes, with zero bytes after the end. -/
def Block.ofBytes (bytes : Bytes) : Block :=
  let padded := bytes.toArray
  Vector.ofFn fun position : Fin 16 =>
    UInt32.ofNat (Bytes.toNat
      ((List.range 4).map fun offset => padded.getD (4 * position.val + offset) 0))

end TypedObject.Blake3
