import Quorum.Bytes

/-! The BLAKE3 digest. A message is cut into chunks of 1024 bytes, the leaves of a tree whose
left subtrees are full; the root's last compression gives the digest.
-/

namespace Quorum.Digest.Blake3

/-- Four words of the compression's square, worked on side by side. -/
structure Row where
  a : UInt32
  b : UInt32
  c : UInt32
  d : UInt32

namespace Row

def zip (combine : UInt32 → UInt32 → UInt32) (left right : Row) : Row :=
  ⟨combine left.a right.a, combine left.b right.b, combine left.c right.c, combine left.d right.d⟩

instance : Add Row := ⟨zip (· + ·)⟩

instance : XorOp Row := ⟨zip (· ^^^ ·)⟩

def rotateRight (row : Row) (amount : UInt32) : Row :=
  let rotate (word : UInt32) := word >>> amount ||| word <<< (32 - amount)
  ⟨rotate row.a, rotate row.b, rotate row.c, rotate row.d⟩

/-- Moves each word one place to the left. -/
def turn (row : Row) : Row :=
  ⟨row.b, row.c, row.d, row.a⟩

def toList (row : Row) : List UInt32 :=
  [row.a, row.b, row.c, row.d]

/-- Four words from `start` on, at the given distances. -/
def pick (words : Array UInt32) (first second third fourth : Nat) : Row :=
  ⟨words.getD first 0, words.getD second 0, words.getD third 0, words.getD fourth 0⟩

end Row

structure Square where
  top : Row
  upper : Row
  lower : Row
  bottom : Row

namespace Square

/-- Mixes two message words into each column. -/
def mix (square : Square) (first second : Row) : Square :=
  let top := square.top + square.upper + first
  let bottom := (square.bottom ^^^ top).rotateRight 16
  let lower := square.lower + bottom
  let upper := (square.upper ^^^ lower).rotateRight 12
  let top := top + upper + second
  let bottom := (bottom ^^^ top).rotateRight 8
  let lower := lower + bottom
  let upper := (upper ^^^ lower).rotateRight 7
  ⟨top, upper, lower, bottom⟩

/-- Brings the diagonals into the columns. -/
def slant (square : Square) : Square :=
  ⟨square.top, square.upper.turn, square.lower.turn.turn, square.bottom.turn.turn.turn⟩

/-- Brings the diagonals back. -/
def straighten (square : Square) : Square :=
  ⟨square.top, square.upper.turn.turn.turn, square.lower.turn.turn, square.bottom.turn⟩

/-- One round: the columns take the first eight message words, the diagonals the others. -/
def round (square : Square) (message : Array UInt32) : Square :=
  let columns := square.mix (.pick message 0 2 4 6) (.pick message 1 3 5 7)
  (columns.slant.mix (.pick message 8 10 12 14) (.pick message 9 11 13 15)).straighten

end Square

/-- The order in which the next round takes the message words. -/
def permutation : List Nat :=
  [2, 6, 3, 10, 7, 0, 4, 13, 1, 11, 12, 5, 9, 14, 15, 8]

def permute (message : Array UInt32) : Array UInt32 :=
  (permutation.map (message.getD · 0)).toArray

def rounds : Nat → Square → Array UInt32 → Square
  | 0, square, _ => square
  | count + 1, square, message => rounds count (square.round message) (permute message)

/-- The value that one compression passes to the next. -/
structure Chaining where
  first : Row
  second : Row

def initial : Chaining :=
  ⟨⟨0x6a09e667, 0xbb67ae85, 0x3c6ef372, 0xa54ff53a⟩,
    ⟨0x510e527f, 0x9b05688c, 0x1f83d9ab, 0x5be0cd19⟩⟩

/-- A compression that has still to be told whether it is the root's. -/
structure Node where
  chaining : Chaining
  message : Array UInt32
  counter : UInt64
  length : UInt32
  flags : UInt32

def chunkStart : UInt32 := 1

def chunkEnd : UInt32 := 2

def parentFlag : UInt32 := 4

def rootFlag : UInt32 := 8

def Node.compress (node : Node) (flags : UInt32) : Chaining :=
  let square : Square :=
    ⟨node.chaining.first, node.chaining.second, initial.first,
      ⟨node.counter.toUInt32, (node.counter >>> 32).toUInt32, node.length, node.flags ||| flags⟩⟩
  let mixed := rounds 7 square node.message
  ⟨mixed.top ^^^ mixed.lower, mixed.upper ^^^ mixed.bottom⟩

/-- The next `count` words of a block, zero beyond its end. -/
def words : Nat → Bytes → List UInt32
  | 0, _ => []
  | count + 1, bytes =>
      UInt32.ofNat (Bytes.ofLittleEndian (bytes.take 4)) :: words count (bytes.drop 4)

/-- The last compression of a chunk, after those of its full blocks. -/
def chunk (counter : UInt64) (chaining : Chaining) (flags : UInt32) (bytes : Bytes) : Node :=
  let block := bytes.take 64
  let node : Node :=
    { chaining, message := (words 16 block).toArray, counter,
      length := UInt32.ofNat block.length, flags }
  if bytes.length ≤ 64 then
    { node with flags := flags ||| chunkEnd }
  else
    chunk counter (node.compress 0) 0 (bytes.drop 64)
  termination_by bytes.length
  decreasing_by simp only [List.length_drop]; omega

/-- A leaf of the tree. -/
def leaf (counter : UInt64) (bytes : Bytes) : Node :=
  chunk counter initial chunkStart (bytes.take 1024)

/-- The leaves of bytes that follow other chunks, of which there are `counter`. -/
def laterLeaves (counter : UInt64) : Bytes → List Node
  | [] => []
  | byte :: rest => leaf counter (byte :: rest) :: laterLeaves (counter + 1) (rest.drop 1023)
  termination_by bytes => bytes.length
  decreasing_by simp only [List.length_drop, List.length_cons]; omega

/-- The node over two subtrees. -/
def parent (left right : Node) : Node :=
  let leftValue := left.compress 0
  let rightValue := right.compress 0
  { chaining := initial
    message := (leftValue.first.toList ++ leftValue.second.toList
      ++ rightValue.first.toList ++ rightValue.second.toList).toArray
    counter := 0
    length := 64
    flags := parentFlag }

/-- One level up; an odd node at the end goes up as it is. -/
def pairUp : List Node → List Node
  | left :: right :: rest => parent left right :: pairUp rest
  | rest => rest

theorem length_pairUp_le (nodes : List Node) : (pairUp nodes).length ≤ nodes.length := by
  fun_induction pairUp nodes with
  | case1 left right rest ih => simp; omega
  | case2 => simp

/-- The root over the given first node and those to its right. -/
def root (first : Node) : List Node → Node
  | [] => first
  | second :: rest => root (parent first second) (pairUp rest)
  termination_by nodes => nodes.length
  decreasing_by
    have := length_pairUp_le rest
    simp
    omega

/-- The empty message has one leaf too. -/
def hash (message : Bytes) : Bytes :=
  let tree := root (leaf 0 message) (laterLeaves 1 (message.drop 1024))
  let value := tree.compress rootFlag
  (value.first.toList ++ value.second.toList).flatMap fun word =>
    Bytes.littleEndian 4 word.toNat

end Quorum.Digest.Blake3
