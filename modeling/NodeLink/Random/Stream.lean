import NodeLink.Geometry.Scalar

/-! # A stream of random numbers

A block function of sixteen words: four constants, a key of eight words, a counter of two and
two zeros go through twelve rounds of additions, exclusive ors and rotations and are added to
what they were.  A stream hands out the values of the blocks of a key, one after another, and is
itself a value: drawing from it gives a number and the stream after it. -/

namespace NodeLink.Random

/-! ### Blocks -/

/-- Eight words. -/
abbrev Key := Vector UInt32 8

/-- Sixteen words. -/
abbrev Words := Vector UInt32 16

/-- Rotates a word to the left. -/
def rotateLeft (word count : UInt32) : UInt32 :=
  (word <<< count) ||| (word >>> (32 - count))

/-- Mixes four words of a block. -/
def quarterRound (a b c d : Fin 16) (words : Words) : Words :=
  let words := words.set a (words[a] + words[b])
  let words := words.set d (rotateLeft (words[d] ^^^ words[a]) 16)
  let words := words.set c (words[c] + words[d])
  let words := words.set b (rotateLeft (words[b] ^^^ words[c]) 12)
  let words := words.set a (words[a] + words[b])
  let words := words.set d (rotateLeft (words[d] ^^^ words[a]) 8)
  let words := words.set c (words[c] + words[d])
  words.set b (rotateLeft (words[b] ^^^ words[c]) 7)

/-- Two rounds: one over the columns of a block, one over its diagonals. -/
def doubleRound (words : Words) : Words :=
  words
    |> quarterRound 0 4 8 12 |> quarterRound 1 5 9 13
    |> quarterRound 2 6 10 14 |> quarterRound 3 7 11 15
    |> quarterRound 0 5 10 15 |> quarterRound 1 6 11 12
    |> quarterRound 2 7 8 13 |> quarterRound 3 4 9 14

/-- A block before its rounds. -/
def startWords (key : Key) (counter : UInt64) : Words :=
  #v[0x61707865, 0x3320646e, 0x79622d32, 0x6b206574,
    key[0], key[1], key[2], key[3], key[4], key[5], key[6], key[7],
    counter.toUInt32, (counter >>> 32).toUInt32, 0, 0]

/-- The block of a key at a counter. -/
def block (key : Key) (counter : UInt64) : Words :=
  let start := startWords key counter
  Vector.zipWith (· + ·) (Nat.repeat doubleRound 6 start) start

/-- The block as eight values of sixty-four bits, low words first. -/
def blockValues (key : Key) (counter : UInt64) : Vector UInt64 8 :=
  let words := block key counter
  Vector.ofFn fun i : Fin 8 =>
    words[2 * i.val].toUInt64 ||| (words[2 * i.val + 1].toUInt64 <<< 32)

/-- One step of the generator that spreads a seed over a key. -/
def spreadStep (state : UInt64) : UInt64 :=
  state * 6364136223846793005 + 11634580027462260723

/-- The key word that a state of that generator yields. -/
def spreadWord (state : UInt64) : UInt32 :=
  let word := (((state >>> 18) ^^^ state) >>> 27).toUInt32
  let count := (state >>> 59).toUInt32
  (word >>> count) ||| (word <<< ((32 - count) % 32))

/-- The key of a seed. -/
def keyOfSeed (seed : UInt64) : Key :=
  Vector.ofFn fun i : Fin 8 => spreadWord (Nat.repeat spreadStep (i.val + 1) seed)

/-! ### Streams -/

/-- A stream of sixty-four-bit values: the key, the number of the next block, the current
block, and how many of its values are used. -/
structure Stream where
  key : Key
  counter : UInt64
  values : Vector UInt64 8
  used : Nat
  deriving Repr, DecidableEq

/-- The stream of a key. -/
def Stream.ofKey (key : Key) : Stream :=
  { key, counter := 1, values := blockValues key 0, used := 0 }

/-- The stream of a seed. -/
def Stream.ofSeed (seed : UInt64) : Stream := Stream.ofKey (keyOfSeed seed)

/-- The next value of a stream. -/
def Stream.next (stream : Stream) : UInt64 × Stream :=
  if h : stream.used < 8 then
    (stream.values[stream.used], { stream with used := stream.used + 1 })
  else
    let values := blockValues stream.key stream.counter
    (values[0], { stream with counter := stream.counter + 1, values, used := 1 })

/-- A number from zero on and below one, a multiple of `2 ^ -52`. -/
@[specialize] def Stream.unit {α : Type} [Scalar α] (stream : Stream) : α × Stream :=
  let (value, stream) := stream.next
  (Scalar.ratio (value >>> 12).toNat (Nat.pow 2 52), stream)

/-- The number of attempts after which a draw below a limit is given up.  A word with three leading
zeros is always accepted, and only one in `(8 / 7) ^ 1024` streams is without one for so long. -/
def maxAttempts : Nat := 1024

/-- Draws a number from `low` on until it is below `high`; rounding can put one draw at
`high` itself.  When all attempts fail the answer is `low`. -/
@[specialize] def Stream.drawBelow {α : Type} [Scalar α] (low high scale : α) :
    Nat → Stream → α × Stream
  | 0, stream => (low, stream)
  | attempts + 1, stream =>
    let (share, stream) := (stream.unit : α × Stream)
    let value := share * scale + low
    if Scalar.lt value high then (value, stream)
    else Stream.drawBelow low high scale attempts stream

/-- A number from `low` on and below `high`. -/
@[specialize] def Stream.between {α : Type} [Scalar α] (low high : α) (stream : Stream) :
    α × Stream :=
  stream.drawBelow low high (high - low) maxAttempts

end NodeLink.Random
