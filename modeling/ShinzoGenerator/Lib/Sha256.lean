import Mathlib.Data.UInt

/-! The hash function SHA-256 on lists of bytes. -/

set_option autoImplicit false

namespace Sha256

/-- The eight working variables. -/
structure State where
  a : UInt32
  b : UInt32
  c : UInt32
  d : UInt32
  e : UInt32
  f : UInt32
  g : UInt32
  h : UInt32

def initial : State where
  a := 0x6a09e667
  b := 0xbb67ae85
  c := 0x3c6ef372
  d := 0xa54ff53a
  e := 0x510e527f
  f := 0x9b05688c
  g := 0x1f83d9ab
  h := 0x5be0cd19

def roundConstants : List UInt32 :=
  [0x428a2f98, 0x71374491, 0xb5c0fbcf, 0xe9b5dba5, 0x3956c25b, 0x59f111f1, 0x923f82a4, 0xab1c5ed5,
    0xd807aa98, 0x12835b01, 0x243185be, 0x550c7dc3, 0x72be5d74, 0x80deb1fe, 0x9bdc06a7, 0xc19bf174,
    0xe49b69c1, 0xefbe4786, 0x0fc19dc6, 0x240ca1cc, 0x2de92c6f, 0x4a7484aa, 0x5cb0a9dc, 0x76f988da,
    0x983e5152, 0xa831c66d, 0xb00327c8, 0xbf597fc7, 0xc6e00bf3, 0xd5a79147, 0x06ca6351, 0x14292967,
    0x27b70a85, 0x2e1b2138, 0x4d2c6dfc, 0x53380d13, 0x650a7354, 0x766a0abb, 0x81c2c92e, 0x92722c85,
    0xa2bfe8a1, 0xa81a664b, 0xc24b8b70, 0xc76c51a3, 0xd192e819, 0xd6990624, 0xf40e3585, 0x106aa070,
    0x19a4c116, 0x1e376c08, 0x2748774c, 0x34b0bcb5, 0x391c0cb3, 0x4ed8aa4a, 0x5b9cca4f, 0x682e6ff3,
    0x748f82ee, 0x78a5636f, 0x84c87814, 0x8cc70208, 0x90befffa, 0xa4506ceb, 0xbef9a3f7, 0xc67178f2]

def rotateRight (word count : UInt32) : UInt32 := (word >>> count) ||| (word <<< (32 - count))

def choose (x y z : UInt32) : UInt32 := (x &&& y) ^^^ (~~~x &&& z)

def majority (x y z : UInt32) : UInt32 := (x &&& y) ^^^ (x &&& z) ^^^ (y &&& z)

def upperSigma0 (x : UInt32) : UInt32 := rotateRight x 2 ^^^ rotateRight x 13 ^^^ rotateRight x 22

def upperSigma1 (x : UInt32) : UInt32 := rotateRight x 6 ^^^ rotateRight x 11 ^^^ rotateRight x 25

def lowerSigma0 (x : UInt32) : UInt32 := rotateRight x 7 ^^^ rotateRight x 18 ^^^ (x >>> 3)

def lowerSigma1 (x : UInt32) : UInt32 := rotateRight x 17 ^^^ rotateRight x 19 ^^^ (x >>> 10)

def State.round (state : State) (constant word : UInt32) : State :=
  let first := state.h + upperSigma1 state.e + choose state.e state.f state.g + constant + word
  let second := upperSigma0 state.a + majority state.a state.b state.c
  { a := first + second, b := state.a, c := state.b, d := state.c, e := state.d + first,
    f := state.e, g := state.f, h := state.g }

/-- The rounds of one block. The sixteen words in hand are the schedule's next ones, and
each round appends the word that follows them. -/
def rounds : List UInt32 → List UInt32 → State → State
  | [], _, state => state
  | constant :: constants, words, state =>
      let word := words.getD 0 0
      let next := lowerSigma1 (words.getD 14 0) + words.getD 9 0 + lowerSigma0 (words.getD 1 0) + word
      rounds constants (words.tail ++ [next]) (state.round constant word)

def State.add (left right : State) : State where
  a := left.a + right.a
  b := left.b + right.b
  c := left.c + right.c
  d := left.d + right.d
  e := left.e + right.e
  f := left.f + right.f
  g := left.g + right.g
  h := left.h + right.h

/-- Four bytes to a word, the highest first. -/
def words : List UInt8 → List UInt32
  | a :: b :: c :: d :: rest =>
      (a.toUInt32 <<< 24 ||| b.toUInt32 <<< 16 ||| c.toUInt32 <<< 8 ||| d.toUInt32) :: words rest
  | _ => []

def wordBytes (word : UInt32) : List UInt8 :=
  [(word >>> 24).toUInt8, (word >>> 16).toUInt8, (word >>> 8).toUInt8, word.toUInt8]

/-- Compresses the blocks of sixteen words one after the other. -/
def compress : Nat → List UInt32 → State → State
  | 0, _, state => state
  | blocks + 1, message, state =>
      compress blocks (message.drop 16) (state.add (rounds roundConstants (message.take 16) state))

/-- The message with a one bit, zeros, and its length in bits behind it. -/
def padded (data : List UInt8) : List UInt32 :=
  let bits := UInt64.ofNat (8 * data.length)
  words (data ++ 0x80 :: List.replicate ((119 - data.length % 64) % 64) 0) ++
    [(bits >>> 32).toUInt32, bits.toUInt32]

def State.bytes (state : State) : List UInt8 :=
  [state.a, state.b, state.c, state.d, state.e, state.f, state.g, state.h].flatMap wordBytes

def sum (data : List UInt8) : List UInt8 :=
  (compress ((padded data).length / 16) (padded data) initial).bytes

@[simp] theorem length_sum (data : List UInt8) : (sum data).length = 32 := rfl

/-- The published digest of the text `abc`. -/
example : sum [97, 98, 99] =
    [0xba, 0x78, 0x16, 0xbf, 0x8f, 0x01, 0xcf, 0xea, 0x41, 0x41, 0x40, 0xde, 0x5d, 0xae, 0x22, 0x23,
      0xb0, 0x03, 0x61, 0xa3, 0x96, 0x17, 0x7a, 0x9c, 0xb4, 0x10, 0xff, 0x61, 0xf2, 0x00, 0x15,
      0xad] := by
  decide +kernel

end Sha256
