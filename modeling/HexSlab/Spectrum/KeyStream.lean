/-!
# A stream of pseudorandom words

The ChaCha stream with twelve rounds, keyed by a seed of 64 bits that is first
stretched to a key of 256 bits. The stream is a function of the seed, so start
vectors drawn from it are the same in every run. Words are drawn in pairs, the
low half first, and turned into reals between minus one and one.
-/

namespace HexSlab.KeyStream

/-- The words of a 32 bit block state. -/
abbrev Words := Vector UInt32 16

/-- Rotate a word to the left. -/
def rotateLeft (word amount : UInt32) : UInt32 :=
  (word <<< amount) ||| (word >>> (32 - amount))

/-- The quarter round on four words of the state. -/
def quarterRound (state : Words) (a b c d : Fin 16) : Words :=
  let a1 := state[a] + state[b]
  let d1 := rotateLeft (state[d] ^^^ a1) 16
  let c1 := state[c] + d1
  let b1 := rotateLeft (state[b] ^^^ c1) 12
  let a2 := a1 + b1
  let d2 := rotateLeft (d1 ^^^ a2) 8
  let c2 := c1 + d2
  let b2 := rotateLeft (b1 ^^^ c2) 7
  (((state.set a a2).set b b2).set c c2).set d d2

/-- One round down the columns and one along the diagonals. -/
def doubleRound (state : Words) : Words :=
  let columns :=
    quarterRound (quarterRound (quarterRound (quarterRound state 0 4 8 12) 1 5 9 13) 2 6 10 14)
      3 7 11 15
  quarterRound (quarterRound (quarterRound (quarterRound columns 0 5 10 15) 1 6 11 12) 2 7 8 13)
    3 4 9 14

/-- A number of double rounds. -/
def doubleRounds (state : Words) : Nat → Words
  | 0 => state
  | count + 1 => doubleRounds (doubleRound state) count

/-- The number of double rounds that the stream takes. -/
def roundPairs : Nat := 6

/-- The number of different words. -/
def wordCount : Nat := 0x100000000

/-- The state of a block before its rounds: the constants, the key, the block
counter of 64 bits, and zeros. -/
def initialState (key : Vector UInt32 8) (block : Nat) : Words :=
  #v[0x61707865, 0x3320646e, 0x79622d32, 0x6b206574,
    key[0], key[1], key[2], key[3], key[4], key[5], key[6], key[7],
    UInt32.ofNat block, UInt32.ofNat (block / wordCount), 0, 0]

/-- The words of a block of the stream. -/
def blockWords (key : Vector UInt32 8) (block : Nat) : List UInt32 :=
  let state := initialState key block
  ((doubleRounds state roundPairs).zipWith (· + ·) state).toList

/-- One step of the generator that stretches a seed. -/
def seedStep (seed : UInt64) : UInt64 :=
  seed * 6364136223846793005 + 11634580027462260723

/-- The word that a state of the seed generator gives: its high bits, rotated
by an amount taken from the highest. -/
def seedWord (seed : UInt64) : UInt32 :=
  let mixed := (((seed >>> 18) ^^^ seed) >>> 27).toUInt32
  let amount := (seed >>> 59).toUInt32
  (mixed >>> amount) ||| (mixed <<< ((32 - amount) % 32))

/-- The states of the seed generator after one, two, … steps. -/
def seedStates (seed : UInt64) : Nat → List UInt64
  | 0 => []
  | count + 1 => seedStep seed :: seedStates (seedStep seed) count

/-- The seed generator has one state for each step. -/
theorem length_seedStates (seed : UInt64) (count : Nat) :
    (seedStates seed count).length = count := by
  induction count generalizing seed with
  | zero => rfl
  | succ count ih => simp [seedStates, ih]

/-- The key that a seed is stretched to. -/
def keyOfSeed (seed : UInt64) : Vector UInt32 8 :=
  ⟨((seedStates seed 8).map seedWord).toArray, by simp [length_seedStates]⟩

/-- The first words of the stream, as many blocks as are asked for. -/
def words (seed : UInt64) (blocks : Nat) : List UInt32 :=
  let key := keyOfSeed seed
  (List.range blocks).flatMap (blockWords key)

/-- Words joined in pairs, the low half first. -/
def pairs : List UInt32 → List UInt64
  | low :: high :: rest => (low.toUInt64 ||| (high.toUInt64 <<< 32)) :: pairs rest
  | _ => []

/-- The real number between minus one and one that 64 bits stand for: their
high 52 bits are the places after the point of a number between one and two. -/
def symmetricReal (bits : UInt64) : Float :=
  let betweenOneAndTwo := Float.ofBits ((bits >>> 12) ||| ((1023 : UInt64) <<< 52))
  (betweenOneAndTwo - 1.0) * 2.0 + -1.0

/-- The first reals of the stream of a seed. -/
def reals (seed : UInt64) (count : Nat) : List Float :=
  ((pairs (words seed (count / 8 + 1))).take count).map symmetricReal

end HexSlab.KeyStream
