/-!
# The keystream of a seed

Random pitches come from the keystream of ChaCha with twelve rounds, under a key
that a generator of permuted congruences expands from the seed.
-/

namespace ProseScore.Keystream

abbrev Key :=
  Vector UInt32 8

abbrev Block :=
  Vector UInt32 16

/-- The bits of a word, turned to the left. -/
def rotateLeft (x n : UInt32) : UInt32 :=
  (x <<< n) ||| (x >>> (32 - n))

/-! ## Keys -/

def advance (s : UInt64) : UInt64 :=
  s * 6364136223846793005 + 11634580027462260723

def permute (s : UInt64) : UInt32 :=
  let turn : UInt32 := (s >>> 59).toUInt32
  rotateLeft (((s >>> 18) ^^^ s) >>> 27).toUInt32 (32 - turn)

def Key.ofSeed (seed : UInt64) : Key :=
  Vector.ofFn fun i => permute (Nat.repeat advance (i.val + 1) seed)

/-! ## Blocks -/

def quarterRound (x : Block) (a b c d : Fin 16) : Block :=
  let x := x.set a (x[a] + x[b])
  let x := x.set d (rotateLeft (x[d] ^^^ x[a]) 16)
  let x := x.set c (x[c] + x[d])
  let x := x.set b (rotateLeft (x[b] ^^^ x[c]) 12)
  let x := x.set a (x[a] + x[b])
  let x := x.set d (rotateLeft (x[d] ^^^ x[a]) 8)
  let x := x.set c (x[c] + x[d])
  x.set b (rotateLeft (x[b] ^^^ x[c]) 7)

example :
    let x := quarterRound
      #v[0x11111111, 0x01020304, 0x9b8d6f43, 0x01234567, 0, 0, 0, 0, 0, 0, 0, 0, 0, 0, 0, 0]
      0 1 2 3
    (x[0], x[1], x[2], x[3]) = (0xea2a92f4, 0xcb1cf8ce, 0x4581472e, 0x5881c4bb) := by
  decide +kernel

/-- A round on the columns and a round on the diagonals. -/
def doubleRound (x : Block) : Block :=
  let x := quarterRound x 0 4 8 12
  let x := quarterRound x 1 5 9 13
  let x := quarterRound x 2 6 10 14
  let x := quarterRound x 3 7 11 15
  let x := quarterRound x 0 5 10 15
  let x := quarterRound x 1 6 11 12
  let x := quarterRound x 2 7 8 13
  quarterRound x 3 4 9 14

/-- The input of a block: four constants, the key, the counter and no stream
number. -/
def input (key : Key) (counter : UInt64) : Block :=
  #v[0x61707865, 0x3320646e, 0x79622d32, 0x6b206574,
    key[0], key[1], key[2], key[3], key[4], key[5], key[6], key[7],
    counter.toUInt32, (counter >>> 32).toUInt32, 0, 0]

def block (key : Key) (counter : UInt64) : Block :=
  let x := input key counter
  x.zipWith (· + ·) (Nat.repeat doubleRound 6 x)

/-- The keystream as numbers of sixty-four bits, eight to a block, the low word
of each first. -/
def number (key : Key) (n : Nat) : Nat :=
  let x := block key (.ofNat (n / 8))
  x[2 * (n % 8)].toNat + Nat.pow 2 32 * x[2 * (n % 8) + 1].toNat

end ProseScore.Keystream
