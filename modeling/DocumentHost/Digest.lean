/-!
# Digests

The digest of a byte sequence by BLAKE3.  The input is cut into chunks of 1024
bytes and these into blocks of 64 bytes.  The chunks are the leaves of a binary
tree whose left subtrees are complete, and every block and every inner node
goes through one compression function.
-/

namespace DocumentHost.Digest

/-- The initial chaining value. -/
def initialWords : List UInt32 :=
  [0x6A09E667, 0xBB67AE85, 0x3C6EF372, 0xA54FF53A, 0x510E527F, 0x9B05688C, 0x1F83D9AB,
    0x5BE0CD19]

/-- The order in which the message words of a round are taken in the next one. -/
def wordOrder : List Nat :=
  [2, 6, 3, 10, 7, 0, 4, 13, 1, 11, 12, 5, 9, 14, 15, 8]

/-- The first block of a chunk. -/
def chunkStart : UInt32 := 1

/-- The last block of a chunk. -/
def chunkEnd : UInt32 := 2

/-- An inner node of the tree. -/
def innerNode : UInt32 := 4

/-- The root of the tree. -/
def rootNode : UInt32 := 8

/-- Rotate to the right. -/
def rotate (word : UInt32) (count : UInt32) : UInt32 :=
  (word >>> count) ||| (word <<< (32 - count))

/-- Mix two message words into four words of the state. -/
def mix (state : Array UInt32) (a b c d : Nat) (first second : UInt32) : Array UInt32 :=
  let va := state.getD a 0 + state.getD b 0 + first
  let vd := rotate (state.getD d 0 ^^^ va) 16
  let vc := state.getD c 0 + vd
  let vb := rotate (state.getD b 0 ^^^ vc) 12
  let va := va + vb + second
  let vd := rotate (vd ^^^ va) 8
  let vc := vc + vd
  let vb := rotate (vb ^^^ vc) 7
  (((state.setIfInBounds a va).setIfInBounds b vb).setIfInBounds c vc).setIfInBounds d vd

/-- One round: first the columns of the state, then its diagonals. -/
def round (state message : Array UInt32) : Array UInt32 :=
  let word (index : Nat) := message.getD index 0
  let state := mix state 0 4 8 12 (word 0) (word 1)
  let state := mix state 1 5 9 13 (word 2) (word 3)
  let state := mix state 2 6 10 14 (word 4) (word 5)
  let state := mix state 3 7 11 15 (word 6) (word 7)
  let state := mix state 0 5 10 15 (word 8) (word 9)
  let state := mix state 1 6 11 12 (word 10) (word 11)
  let state := mix state 2 7 8 13 (word 12) (word 13)
  mix state 3 4 9 14 (word 14) (word 15)

/-- Several rounds, the message words reordered between them. -/
def rounds : Nat → Array UInt32 → Array UInt32 → Array UInt32
  | 0, state, _ => state
  | count + 1, state, message =>
      rounds count (round state message)
        ((wordOrder.map fun index => message.getD index 0).toArray)

/-- The chaining value that a block leads to. -/
def compress (chaining : List UInt32) (message : List UInt32) (counter : Nat)
    (size : Nat) (flags : UInt32) : List UInt32 :=
  let start := chaining ++ initialWords.take 4 ++
    [counter.toUInt32, (counter >>> 32).toUInt32, size.toUInt32, flags]
  let state := rounds 7 start.toArray message.toArray
  (List.range 8).map fun index => state.getD index 0 ^^^ state.getD (index + 8) 0

/-- The words of a byte sequence, low byte first, with zeros behind its end. -/
def wordsOf : Nat → List UInt8 → List UInt32
  | 0, _ => []
  | count + 1, bytes =>
      let byte (index : Nat) : UInt32 := (bytes.getD index 0).toUInt32
      (byte 0 ||| (byte 1 <<< 8) ||| (byte 2 <<< 16) ||| (byte 3 <<< 24)) ::
        wordsOf count (bytes.drop 4)

/-- Pieces of a fixed size; the last one may be shorter.  There is always one. -/
def pieces (size : Nat) : Nat → List UInt8 → List (List UInt8)
  | 0, bytes => [bytes]
  | fuel + 1, bytes =>
      if bytes.length ≤ size then [bytes]
      else bytes.take size :: pieces size fuel (bytes.drop size)

/-- The chaining value behind the blocks of a chunk. -/
def chainBlocks (counter : Nat) (last : UInt32) (chaining : List UInt32) (flags : UInt32) :
    List (List UInt8) → List UInt32
  | [] => chaining
  | [block] =>
      compress chaining (wordsOf 16 block) counter block.length (flags ||| chunkEnd ||| last)
  | block :: next :: rest =>
      chainBlocks counter last (compress chaining (wordsOf 16 block) counter 64 flags) 0
        (next :: rest)

/-- The chaining value of a chunk; `last` is the root mark if it is the only one. -/
def chunkValue (counter : Nat) (last : UInt32) (chunk : List UInt8) : List UInt32 :=
  chainBlocks counter last initialWords chunkStart (pieces 64 16 chunk)

/-- The greatest power of two below a number that exceeds one. -/
def leftSize (count : Nat) : Nat :=
  1 <<< Nat.log2 (count - 1)

/-- The chaining value of a subtree over some chunks. -/
def treeValue : Nat → Nat → UInt32 → List (List UInt8) → List UInt32
  | 0, _, _, _ => initialWords
  | fuel + 1, counter, last, chunks =>
      match chunks with
      | [] => initialWords
      | [chunk] => chunkValue counter last chunk
      | _ =>
          let size := leftSize chunks.length
          let left := treeValue fuel counter 0 (chunks.take size)
          let right := treeValue fuel (counter + size) 0 (chunks.drop size)
          compress initialWords (left ++ right) 0 64 (innerNode ||| last)

/-- The bytes of a word, low byte first. -/
def bytesOfWord (word : UInt32) : List UInt8 :=
  [word.toUInt8, (word >>> 8).toUInt8, (word >>> 16).toUInt8, (word >>> 24).toUInt8]

/-- The digest of a byte sequence: 32 bytes. -/
def ofBytes (bytes : List UInt8) : List UInt8 :=
  let chunks := pieces 1024 bytes.length bytes
  (treeValue (chunks.length + 1) 0 rootNode chunks).flatMap bytesOfWord

end DocumentHost.Digest
