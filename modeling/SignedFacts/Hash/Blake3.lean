import SignedFacts.Octets.Endian
import SignedFacts.Octets.Hex

/-!
# BLAKE3

The hash function behind every content address.  Input is cut into chunks of
1024 octets and these into blocks of 64.  A chunk compresses its blocks one
after the other into a chaining value of eight words.  The chaining values of
the chunks are the leaves of a binary tree whose left parts are full, so
pairing neighbours level by level, with an odd last one moving up as it is,
builds it.  The topmost compression carries the root flag, and its first 32
octets are the hash.
-/

namespace SignedFacts.Blake3

open SignedFacts.Octets

/-! ## Words in rows -/

/-- Four words that are worked on side by side. -/
structure Row where
  /-- The first word. -/
  w₀ : UInt32
  /-- The second word. -/
  w₁ : UInt32
  /-- The third word. -/
  w₂ : UInt32
  /-- The fourth word. -/
  w₃ : UInt32

namespace Row

/-- Applies a function to the words of two rows at the same places. -/
def zip (f : UInt32 → UInt32 → UInt32) (x y : Row) : Row :=
  ⟨f x.w₀ y.w₀, f x.w₁ y.w₁, f x.w₂ y.w₂, f x.w₃ y.w₃⟩

/-- The sum, word by word. -/
def add (x y : Row) : Row := zip (· + ·) x y

/-- Exclusive or followed by a rotation to the right by `count` bits. -/
def xorRotate (count : UInt32) (x y : Row) : Row :=
  zip (fun a b => let z := a ^^^ b; (z >>> count) ||| (z <<< (32 - count))) x y

/-- Moves every word one place to the left, the first to the end. -/
def turn (x : Row) : Row := ⟨x.w₁, x.w₂, x.w₃, x.w₀⟩

/-- The octets of a row, least octet of each word first. -/
def octets (x : Row) : List UInt8 :=
  [x.w₀, x.w₁, x.w₂, x.w₃].flatMap fun word => toLittleEndian 4 word.toNat

end Row

/-- A chaining value: eight words in two rows. -/
structure Chain where
  /-- The first four words. -/
  low : Row
  /-- The last four words. -/
  high : Row

/-- The words that every chunk begins with, and every inner node. -/
def start : Chain where
  low := ⟨0x6A09E667, 0xBB67AE85, 0x3C6EF372, 0xA54FF53A⟩
  high := ⟨0x510E527F, 0x9B05688C, 0x1F83D9AB, 0x5BE0CD19⟩

/-! ## Compression -/

/-- The sixteen words of a message block. -/
abbrev Block := Vector UInt32 16

/-- The block whose octets are given, filled up with zeros. -/
def Block.ofOctets (octets : List UInt8) : Block :=
  Vector.ofFn fun i => UInt32.ofNat (littleEndian ((octets.drop (4 * i.val)).take 4))

/-- The order in which a round takes the words of the round before. -/
def schedule : Vector (Fin 16) 16 := #v[2, 6, 3, 10, 7, 0, 4, 13, 1, 11, 12, 5, 9, 14, 15, 8]

/-- The block as the next round sees it. -/
def Block.next (block : Block) : Block := schedule.map fun i => block[i]

/-- The sixteen words under work, in four rows. -/
structure State where
  /-- The first row. -/
  a : Row
  /-- The second row. -/
  b : Row
  /-- The third row. -/
  c : Row
  /-- The fourth row. -/
  d : Row

/-- Mixes the four columns, each with one word of `x` and one of `y`. -/
def State.mix (x y : Row) (s : State) : State :=
  let a := (s.a.add s.b).add x
  let d := s.d.xorRotate 16 a
  let c := s.c.add d
  let b := s.b.xorRotate 12 c
  let a := (a.add b).add y
  let d := d.xorRotate 8 a
  let c := c.add d
  ⟨a, b.xorRotate 7 c, c, d⟩

/-- One round: the columns with the first half of the block, then the
diagonals with the second.  Turning the rows brings the diagonals into columns
and turning them on brings them back. -/
def State.round (m : Block) (s : State) : State :=
  let s := s.mix ⟨m[0], m[2], m[4], m[6]⟩ ⟨m[1], m[3], m[5], m[7]⟩
  let s : State := ⟨s.a, s.b.turn, s.c.turn.turn, s.d.turn.turn.turn⟩
  let s := s.mix ⟨m[8], m[10], m[12], m[14]⟩ ⟨m[9], m[11], m[13], m[15]⟩
  ⟨s.a, s.b.turn.turn.turn, s.c.turn.turn, s.d.turn⟩

/-- The number of rounds follows the block: each sees it in the order
`schedule` gives. -/
def State.rounds : Nat → Block → State → State
  | 0, _, s => s
  | count + 1, block, s => rounds count block.next (s.round block)

/-- One compression, not yet carried out: what it takes in, without the root
flag. -/
structure Node where
  /-- The chaining value so far. -/
  chain : Chain
  /-- The message block. -/
  block : Block
  /-- The number of the chunk, zero above the chunks. -/
  counter : Nat
  /-- The number of octets in the block. -/
  length : Nat
  /-- The flags. -/
  flags : UInt32

/-- The compression of a node with more flags: the first eight words of its
output. -/
def Node.compress (extra : UInt32) (node : Node) : Chain :=
  let begin : State :=
    { a := node.chain.low
      b := node.chain.high
      c := start.low
      d := ⟨UInt32.ofNat node.counter, UInt32.ofNat (node.counter / UInt32.size),
        UInt32.ofNat node.length, node.flags ||| extra⟩ }
  let final := begin.rounds 7 node.block
  ⟨final.a.zip (· ^^^ ·) final.c, final.b.zip (· ^^^ ·) final.d⟩

/-! ## Chunks and the tree above them -/

/-- The flag of the first block of a chunk. -/
def chunkStart : UInt32 := 1

/-- The flag of the last block of a chunk. -/
def chunkEnd : UInt32 := 2

/-- The flag of a node above the chunks. -/
def parent : UInt32 := 4

/-- The flag of the topmost node. -/
def root : UInt32 := 8

/-- Compresses blocks up to the last, whose node is handed back. -/
def chunkFrom (counter : Nat) (chain : Chain) (flags : UInt32) : List (List UInt8) → Node
  | [] => ⟨chain, Block.ofOctets [], counter, 0, flags ||| chunkEnd⟩
  | [last] => ⟨chain, Block.ofOctets last, counter, last.length, flags ||| chunkEnd⟩
  | block :: rest =>
      let node : Node := ⟨chain, Block.ofOctets block, counter, block.length, flags⟩
      chunkFrom counter (node.compress 0) 0 rest

/-- The last node of a chunk. -/
def chunk (octets : List UInt8) (counter : Nat) : Node :=
  chunkFrom counter start chunkStart (groups 64 octets)

/-- The node above two chaining values. -/
def join (left right : Chain) : Node :=
  ⟨start, Block.ofOctets (left.low.octets ++ left.high.octets ++ right.low.octets
    ++ right.high.octets), 0, 64, parent⟩

/-- One level of the tree: neighbours joined, an odd last one kept. -/
def level : List Chain → List Chain
  | left :: right :: rest => (join left right).compress 0 :: level rest
  | short => short

/-- Climbs at most `bound` levels and compresses the topmost node. -/
def top : (bound : Nat) → List Chain → Chain
  | _, [left, right] => (join left right).compress root
  | bound + 1, chains => top bound (level chains)
  | 0, _ => start

/-- The chaining value of the topmost node. -/
def rootChain (data : List UInt8) : Chain :=
  match (groups 1024 data).zipIdx with
  | [] => (chunk [] 0).compress root
  | [(only, _)] => (chunk only 0).compress root
  | chunks =>
      top chunks.length (chunks.map fun (octets, counter) => (chunk octets counter).compress 0)

/-- The octets of a chaining value. -/
def Chain.octets (chain : Chain) : List UInt8 := chain.low.octets ++ chain.high.octets

theorem Chain.length_octets (chain : Chain) : chain.octets.length = 32 := by
  simp [Chain.octets, Row.octets]

/-- The BLAKE3 hash of octets. -/
def hash (data : List UInt8) : Vector UInt8 32 :=
  ⟨(rootChain data).octets.toArray, by simp [Chain.length_octets]⟩

/-- A hash by its first sixteen digits. -/
def shown (octets : Vector UInt8 32) : String :=
  s!"Blake3({String.ofList ((Hex.digits octets.toList).take 16)})"

end SignedFacts.Blake3
