/-!
# The BLAKE3 output stream

BLAKE3 hashes a text in chunks of 1024 bytes, joins the chunks pairwise into a
tree and reads any number of output bytes from the root. `blake3Stream` gives
every byte of this output by its position.
-/

namespace SchemaCompiler
namespace Hash

/-- Initial chaining value. -/
def initialWords : List UInt32 :=
  [0x6A09E667, 0xBB67AE85, 0x3C6EF372, 0xA54FF53A, 0x510E527F, 0x9B05688C, 0x1F83D9AB, 0x5BE0CD19]

/-- Order in which a round hands the message words to the next one. -/
def messageOrder : List Nat := [2, 6, 3, 10, 7, 0, 4, 13, 1, 11, 12, 5, 9, 14, 15, 8]

/-- Marks the first block of a chunk. -/
def chunkStart : UInt32 := 1

/-- Marks the last block of a chunk. -/
def chunkEnd : UInt32 := 2

/-- Marks a node that joins two subtrees. -/
def parentNode : UInt32 := 4

/-- Marks the root of the tree. -/
def rootNode : UInt32 := 8

/-- The word turned right by `count` bits. -/
def rotateRight (word count : UInt32) : UInt32 :=
  (word >>> count) ||| (word <<< (32 - count))

/-- Mixes two message words into four words of the state. -/
def mix
    (state : Array UInt32)
    (a b c d : Nat)
    (first second : UInt32) : Array UInt32 :=
  let read (state : Array UInt32) (index : Nat) : UInt32 := state.getD index 0
  let state := state.setIfInBounds a (read state a + read state b + first)
  let state := state.setIfInBounds d (rotateRight (read state d ^^^ read state a) 16)
  let state := state.setIfInBounds c (read state c + read state d)
  let state := state.setIfInBounds b (rotateRight (read state b ^^^ read state c) 12)
  let state := state.setIfInBounds a (read state a + read state b + second)
  let state := state.setIfInBounds d (rotateRight (read state d ^^^ read state a) 8)
  let state := state.setIfInBounds c (read state c + read state d)
  state.setIfInBounds b (rotateRight (read state b ^^^ read state c) 7)

/-- One round: the columns and then the diagonals of the state. -/
def mixRound (state message : Array UInt32) : Array UInt32 :=
  let word (index : Nat) : UInt32 := message.getD index 0
  let state := mix state 0 4 8 12 (word 0) (word 1)
  let state := mix state 1 5 9 13 (word 2) (word 3)
  let state := mix state 2 6 10 14 (word 4) (word 5)
  let state := mix state 3 7 11 15 (word 6) (word 7)
  let state := mix state 0 5 10 15 (word 8) (word 9)
  let state := mix state 1 6 11 12 (word 10) (word 11)
  let state := mix state 2 7 8 13 (word 12) (word 13)
  mix state 3 4 9 14 (word 14) (word 15)

/-- Rounds that remain, each on the message in its next order. -/
def mixRounds : Nat → Array UInt32 → Array UInt32 → Array UInt32
  | 0, state, _ => state
  | remaining + 1, state, message =>
      let reordered := (messageOrder.map fun index => message.getD index 0).toArray
      mixRounds remaining (mixRound state message) reordered

/-- Everything that a compression depends on, kept back until it is known
whether the node is the root. -/
structure BlockNode where
  chaining : List UInt32
  message : List UInt32
  counter : UInt64
  byteCount : UInt32
  flags : UInt32
deriving Repr, DecidableEq, Inhabited

namespace BlockNode

/-- The sixteen words of the compressed node. -/
def compress (node : BlockNode) : List UInt32 :=
  let start : List UInt32 :=
    node.chaining ++ initialWords.take 4 ++
      [node.counter.toUInt32, (node.counter >>> 32).toUInt32, node.byteCount, node.flags]
  let state := (mixRounds 7 start.toArray node.message.toArray).toList
  let low := state.take 8
  let high := state.drop 8
  (low.zipWith (· ^^^ ·) high) ++ (high.zipWith (· ^^^ ·) node.chaining)

/-- Chaining value of the node. -/
def chain (node : BlockNode) : List UInt32 := node.compress.take 8

/-- The node that joins two subtrees. -/
def join (left right : BlockNode) : BlockNode where
  chaining := initialWords
  message := left.chain ++ right.chain
  counter := 0
  byteCount := 64
  flags := parentNode

/-- Joins neighbours; a node left over at the end moves up as it is. -/
def joinPairs : List BlockNode → List BlockNode
  | left :: right :: rest => join left right :: joinPairs rest
  | other => other

/-- The root of the tree over a level of nodes, which needs at most `height`
further levels. -/
def root : Nat → List BlockNode → BlockNode
  | height + 1, left :: right :: rest => root height (joinPairs (left :: right :: rest))
  | _, node :: _ => node
  | _, [] => default

/-- Word `index` of the root's output. -/
def outputWord (node : BlockNode) (index : Nat) : UInt32 :=
  let block := { node with
    counter := UInt64.ofNat (index / 16)
    flags := node.flags ||| rootNode }
  block.compress.getD (index % 16) 0

end BlockNode

/-- The list in pieces of `size` elements, the last one possibly shorter. -/
def pieces (size : Nat) (list : List α) : List (List α) :=
  (List.range ((list.length + size - 1) / size)).map fun index =>
    (list.drop (index * size)).take size

/-- The word of four bytes, the lowest first. -/
def littleEndian (bytes : List UInt8) : UInt32 :=
  bytes.foldr (fun byte word => (word <<< 8) ||| byte.toUInt32) 0

/-- The sixteen message words of a block, filled up with zeros. -/
def messageWords (block : List UInt8) : List UInt32 :=
  (pieces 4 (block ++ List.replicate (64 - block.length) 0)).map littleEndian

/-- The last node of a chunk, after the blocks before it were chained. -/
def chunkNode (index : Nat) (chunk : List UInt8) : BlockNode :=
  let blocks := if chunk.isEmpty then [[]] else pieces 64 chunk
  let rec go (chaining : List UInt32) (start : UInt32) : List (List UInt8) → BlockNode
    | [] => default
    | block :: rest =>
        let node : BlockNode :=
          { chaining := chaining
            message := messageWords block
            counter := UInt64.ofNat index
            byteCount := UInt32.ofNat block.length
            flags := if rest.isEmpty then start ||| chunkEnd else start }
        if rest.isEmpty then node else go node.chain 0 rest
  go initialWords chunkStart blocks

/-- The root node of the tree over a text. -/
def blake3Root (input : List UInt8) : BlockNode :=
  let chunks := if input.isEmpty then [[]] else pieces 1024 input
  let nodes := chunks.zipIdx.map fun (chunk, index) => chunkNode index chunk
  BlockNode.root nodes.length nodes

/-- Byte `position` of the output for a text. -/
def blake3Stream (input : List UInt8) : Nat → UInt8 :=
  let node := blake3Root input
  fun position => (node.outputWord (position / 4) >>> UInt32.ofNat (8 * (position % 4))).toUInt8

end Hash
end SchemaCompiler
