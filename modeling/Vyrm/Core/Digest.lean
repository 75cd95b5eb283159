import Vyrm.Lib.Bytes

/-!
# SHA-256

`crates/vyrm-core/src/digest.rs`: the digest that names manifests, segments and
bundles. Words are natural numbers below `2 ^ 32`. The message schedule is kept
as the window of the sixteen words the next one is computed from.
-/

namespace Vyrm.Core
open Lib

/-- `K` (`digest.rs:10-19`). -/
def roundConstants : List Nat :=
  [0x428a2f98, 0x71374491, 0xb5c0fbcf, 0xe9b5dba5, 0x3956c25b, 0x59f111f1, 0x923f82a4, 0xab1c5ed5,
   0xd807aa98, 0x12835b01, 0x243185be, 0x550c7dc3, 0x72be5d74, 0x80deb1fe, 0x9bdc06a7, 0xc19bf174,
   0xe49b69c1, 0xefbe4786, 0x0fc19dc6, 0x240ca1cc, 0x2de92c6f, 0x4a7484aa, 0x5cb0a9dc, 0x76f988da,
   0x983e5152, 0xa831c66d, 0xb00327c8, 0xbf597fc7, 0xc6e00bf3, 0xd5a79147, 0x06ca6351, 0x14292967,
   0x27b70a85, 0x2e1b2138, 0x4d2c6dfc, 0x53380d13, 0x650a7354, 0x766a0abb, 0x81c2c92e, 0x92722c85,
   0xa2bfe8a1, 0xa81a664b, 0xc24b8b70, 0xc76c51a3, 0xd192e819, 0xd6990624, 0xf40e3585, 0x106aa070,
   0x19a4c116, 0x1e376c08, 0x2748774c, 0x34b0bcb5, 0x391c0cb3, 0x4ed8aa4a, 0x5b9cca4f, 0x682e6ff3,
   0x748f82ee, 0x78a5636f, 0x84c87814, 0x8cc70208, 0x90befffa, 0xa4506ceb, 0xbef9a3f7, 0xc67178f2]

/-- The eight words of the digest state. -/
structure DigestState where
  a : Nat
  b : Nat
  c : Nat
  d : Nat
  e : Nat
  f : Nat
  g : Nat
  h : Nat
  deriving DecidableEq, Repr

/-- `INITIAL` (`digest.rs:7-9`). -/
def DigestState.initial : DigestState :=
  ⟨0x6a09e667, 0xbb67ae85, 0x3c6ef372, 0xa54ff53a, 0x510e527f, 0x9b05688c, 0x1f83d9ab, 0x5be0cd19⟩

/-- `u32::wrapping_add`. -/
def wrappingAdd (x y : Nat) : Nat := (x + y) % 2 ^ 32

/-- `u32::rotate_right`. -/
def rotateRight (x n : Nat) : Nat := ((x >>> n) ||| (x <<< (32 - n))) % 2 ^ 32

/-- The word of the schedule that follows a window of sixteen (`digest.rs:115-126`). -/
def nextWord : List Nat → Nat
  | [w0, w1, _, _, _, _, _, _, _, w9, _, _, _, _, w14, _] =>
    let s0 := rotateRight w1 7 ^^^ rotateRight w1 18 ^^^ (w1 >>> 3)
    let s1 := rotateRight w14 17 ^^^ rotateRight w14 19 ^^^ (w14 >>> 10)
    wrappingAdd (wrappingAdd (wrappingAdd w0 s0) w9) s1
  | _ => 0

/-- One round (`digest.rs:129-148`). -/
def DigestState.round (state : DigestState) (k word : Nat) : DigestState :=
  let sum1 := rotateRight state.e 6 ^^^ rotateRight state.e 11 ^^^ rotateRight state.e 25
  let choose := (state.e &&& state.f) ^^^ ((state.e ^^^ 0xffffffff) &&& state.g)
  let t1 := wrappingAdd (wrappingAdd (wrappingAdd (wrappingAdd state.h sum1) choose) k) word
  let sum0 := rotateRight state.a 2 ^^^ rotateRight state.a 13 ^^^ rotateRight state.a 22
  let majority := (state.a &&& state.b) ^^^ (state.a &&& state.c) ^^^ (state.b &&& state.c)
  let t2 := wrappingAdd sum0 majority
  ⟨wrappingAdd t1 t2, state.a, state.b, state.c, wrappingAdd state.d t1, state.e, state.f, state.g⟩

/-- The rounds of `compress`, one for each constant. -/
def DigestState.rounds : List Nat → List Nat → DigestState → DigestState
  | [], _, state => state
  | k :: rest, window, state =>
    rounds rest (window.tail ++ [nextWord window]) (state.round k (window.headD 0))

/-- The big-endian words of a block. -/
def wordsOf : Nat → Bytes → List Nat
  | 0, _ => []
  | count + 1, block => ofBE (block.take 4) :: wordsOf count (block.drop 4)

/-- `compress` (`digest.rs:110-152`). -/
def DigestState.compress (state : DigestState) (block : Bytes) : DigestState :=
  let next := rounds roundConstants (wordsOf 16 block) state
  ⟨wrappingAdd state.a next.a, wrappingAdd state.b next.b, wrappingAdd state.c next.c,
   wrappingAdd state.d next.d, wrappingAdd state.e next.e, wrappingAdd state.f next.f,
   wrappingAdd state.g next.g, wrappingAdd state.h next.h⟩

/-- Compresses the first `count` blocks of a message. -/
def DigestState.absorb (state : DigestState) : Nat → Bytes → DigestState
  | 0, _ => state
  | count + 1, message => (state.compress (message.take 64)).absorb count (message.drop 64)

/-- What `finalize` appends to a message (`digest.rs:78-88`). -/
def padding (length : Nat) : Bytes :=
  0x80 :: (List.replicate ((119 - length % 64) % 64) 0 ++ toBE 8 (length * 8 % 2 ^ 64))

/-- The output of `finalize` (`digest.rs:91-96`). -/
def DigestState.output (state : DigestState) : Bytes :=
  toBE 4 state.a ++ toBE 4 state.b ++ toBE 4 state.c ++ toBE 4 state.d ++ toBE 4 state.e ++
    toBE 4 state.f ++ toBE 4 state.g ++ toBE 4 state.h

/-- `sha256` (`digest.rs:105-109`). -/
def sha256 (input : Bytes) : Bytes :=
  let message := input ++ padding input.length
  (DigestState.initial.absorb (message.length / 64) message).output

theorem length_sha256 (input : Bytes) : (sha256 input).length = 32 := by
  simp [sha256, DigestState.output]

/-- A lowercase hexadecimal digit. -/
def hexDigit (n : Nat) : Char := Char.ofNat (if n < 10 then 48 + n else 87 + n)

/-- `hex` (`digest.rs:158-165`). -/
def hex (digest : Bytes) : String :=
  String.ofList (digest.flatMap fun byte => [hexDigit (byte.toNat / 16), hexDigit (byte.toNat % 16)])

/-- `sha256_hex` (`digest.rs:154-156`). -/
def sha256Hex (input : Bytes) : String := hex (sha256 input)

end Vyrm.Core
