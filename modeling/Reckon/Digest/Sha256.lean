set_option autoImplicit false

namespace Reckon.Digest

-- The first 32 bits of the fractional parts of the cube roots of the first 64 primes.
def roundConstants : List UInt32 :=
  [0x428a2f98, 0x71374491, 0xb5c0fbcf, 0xe9b5dba5, 0x3956c25b, 0x59f111f1, 0x923f82a4, 0xab1c5ed5,
  0xd807aa98, 0x12835b01, 0x243185be, 0x550c7dc3, 0x72be5d74, 0x80deb1fe, 0x9bdc06a7, 0xc19bf174,
  0xe49b69c1, 0xefbe4786, 0x0fc19dc6, 0x240ca1cc, 0x2de92c6f, 0x4a7484aa, 0x5cb0a9dc, 0x76f988da,
  0x983e5152, 0xa831c66d, 0xb00327c8, 0xbf597fc7, 0xc6e00bf3, 0xd5a79147, 0x06ca6351, 0x14292967,
  0x27b70a85, 0x2e1b2138, 0x4d2c6dfc, 0x53380d13, 0x650a7354, 0x766a0abb, 0x81c2c92e, 0x92722c85,
  0xa2bfe8a1, 0xa81a664b, 0xc24b8b70, 0xc76c51a3, 0xd192e819, 0xd6990624, 0xf40e3585, 0x106aa070,
  0x19a4c116, 0x1e376c08, 0x2748774c, 0x34b0bcb5, 0x391c0cb3, 0x4ed8aa4a, 0x5b9cca4f, 0x682e6ff3,
  0x748f82ee, 0x78a5636f, 0x84c87814, 0x8cc70208, 0x90befffa, 0xa4506ceb, 0xbef9a3f7, 0xc67178f2]

structure Words where
  a : UInt32
  b : UInt32
  c : UInt32
  d : UInt32
  e : UInt32
  f : UInt32
  g : UInt32
  h : UInt32
deriving DecidableEq, Repr

-- The first 32 bits of the fractional parts of the square roots of the first eight primes.
def initial : Words :=
  ⟨0x6a09e667, 0xbb67ae85, 0x3c6ef372, 0xa54ff53a, 0x510e527f, 0x9b05688c, 0x1f83d9ab, 0x5be0cd19⟩

def rotate (word amount : UInt32) : UInt32 := word >>> amount ||| word <<< (32 - amount)

-- The message in whole blocks: a one bit, zeros, and the length in bits as eight bytes.
def padded (message : List UInt8) : List UInt8 :=
  let fill := (119 - message.length % 64) % 64
  let bits := 8 * message.length
  let size := [56, 48, 40, 32, 24, 16, 8, 0].map fun shift => UInt8.ofNat (bits >>> shift)
  message ++ [0x80] ++ List.replicate fill 0 ++ size

def wordsOf : List UInt8 → List UInt32
  | a :: b :: c :: d :: rest =>
      (a.toUInt32 <<< 24 ||| b.toUInt32 <<< 16 ||| c.toUInt32 <<< 8 ||| d.toUInt32) :: wordsOf rest
  | _ => []

def nextWord (window : List UInt32) : UInt32 :=
  let early := window.getD 1 0
  let late := window.getD 14 0
  window.getD 0 0 + (rotate early 7 ^^^ rotate early 18 ^^^ early >>> 3) + window.getD 9 0
    + (rotate late 17 ^^^ rotate late 19 ^^^ late >>> 10)

def mix (state : Words) (word constant : UInt32) : Words :=
  let chosen := (state.e &&& state.f) ^^^ (~~~state.e &&& state.g)
  let major := (state.a &&& state.b) ^^^ (state.a &&& state.c) ^^^ (state.b &&& state.c)
  let first := state.h + (rotate state.e 6 ^^^ rotate state.e 11 ^^^ rotate state.e 25) + chosen
    + constant + word
  let second := (rotate state.a 2 ^^^ rotate state.a 13 ^^^ rotate state.a 22) + major
  ⟨first + second, state.a, state.b, state.c, state.d + first, state.e, state.f, state.g⟩

def rounds : List UInt32 → List UInt32 → Words → Words
  | [], _, state => state
  | constant :: constants, window, state =>
      rounds constants (window.drop 1 ++ [nextWord window]) (mix state (window.getD 0 0) constant)

def compress (state : Words) (block : List UInt32) : Words :=
  let last := rounds roundConstants block state
  ⟨state.a + last.a, state.b + last.b, state.c + last.c, state.d + last.d,
    state.e + last.e, state.f + last.f, state.g + last.g, state.h + last.h⟩

def blocksOf : List UInt32 → List (List UInt32)
  | [] => []
  | word :: rest => ((word :: rest).take 16) :: blocksOf (rest.drop 15)
termination_by words => words.length
decreasing_by
  rw [List.length_drop, List.length_cons]
  omega

def sha256 (message : List UInt8) : List UInt32 :=
  let last := (blocksOf (wordsOf (padded message))).foldl compress initial
  [last.a, last.b, last.c, last.d, last.e, last.f, last.g, last.h]

def hexChar (n : UInt32) : Char := Nat.digitChar (n &&& 15).toNat

def wordText (word : UInt32) : List Char :=
  ([28, 24, 20, 16, 12, 8, 4, 0] : List UInt32).map fun shift => hexChar (word >>> shift)

/-- The digest of a text in UTF-8, as 64 hexadecimal digits. -/
def sha256Text (text : String) : String :=
  String.ofList ((sha256 text.toUTF8.toList).flatMap wordText)

end Reckon.Digest
