import CryptoRadar.Lib.JsonText

/-!
# SHA-256

The hash of `hashlib.sha256` on whole bytes. A word is a natural number below 2^32; sums are
taken modulo 2^32. The schedule is kept with its latest word first, so that the words sixteen,
fifteen, seven and two places back stand at fixed positions.

`hexdigest` is always 64 lower case hexadecimal digits (`hexdigest_hex`).
-/

set_option autoImplicit false

namespace Sha256

def modulus : ℕ := 2 ^ 32

def rotateRight (count word : ℕ) : ℕ := (word >>> count) ||| ((word <<< (32 - count)) % modulus)

/-- The fractional parts of the cube roots of the first 64 primes. -/
def constants : List ℕ :=
  [0x428a2f98, 0x71374491, 0xb5c0fbcf, 0xe9b5dba5, 0x3956c25b, 0x59f111f1, 0x923f82a4, 0xab1c5ed5,
    0xd807aa98, 0x12835b01, 0x243185be, 0x550c7dc3, 0x72be5d74, 0x80deb1fe, 0x9bdc06a7, 0xc19bf174,
    0xe49b69c1, 0xefbe4786, 0x0fc19dc6, 0x240ca1cc, 0x2de92c6f, 0x4a7484aa, 0x5cb0a9dc, 0x76f988da,
    0x983e5152, 0xa831c66d, 0xb00327c8, 0xbf597fc7, 0xc6e00bf3, 0xd5a79147, 0x06ca6351, 0x14292967,
    0x27b70a85, 0x2e1b2138, 0x4d2c6dfc, 0x53380d13, 0x650a7354, 0x766a0abb, 0x81c2c92e, 0x92722c85,
    0xa2bfe8a1, 0xa81a664b, 0xc24b8b70, 0xc76c51a3, 0xd192e819, 0xd6990624, 0xf40e3585, 0x106aa070,
    0x19a4c116, 0x1e376c08, 0x2748774c, 0x34b0bcb5, 0x391c0cb3, 0x4ed8aa4a, 0x5b9cca4f, 0x682e6ff3,
    0x748f82ee, 0x78a5636f, 0x84c87814, 0x8cc70208, 0x90befffa, 0xa4506ceb, 0xbef9a3f7, 0xc67178f2]

/-- The eight words a block changes. -/
structure State where
  a : ℕ
  b : ℕ
  c : ℕ
  d : ℕ
  e : ℕ
  f : ℕ
  g : ℕ
  h : ℕ
  deriving DecidableEq

/-- The fractional parts of the square roots of the first eight primes. -/
def initial : State where
  a := 0x6a09e667
  b := 0xbb67ae85
  c := 0x3c6ef372
  d := 0xa54ff53a
  e := 0x510e527f
  f := 0x9b05688c
  g := 0x1f83d9ab
  h := 0x5be0cd19

/-- The number in `count` bytes, the highest first. -/
def bigEndian (count number : ℕ) : Bytes :=
  (List.range count).reverse.map fun place => UInt8.ofNat (number >>> (8 * place))

/-- The message with a one bit, zeros up to eight bytes short of whole blocks, and its length. -/
def padded (data : Bytes) : Bytes :=
  data ++ 0x80 :: List.replicate ((119 - data.length % 64) % 64) 0 ++ bigEndian 8 (8 * data.length)

/-- Whole words of four bytes, the latest first. -/
def wordsOf : Bytes → List ℕ → List ℕ
  | first :: second :: third :: fourth :: rest, words =>
      wordsOf rest ((((first.toNat * 256 + second.toNat) * 256 + third.toNat) * 256 + fourth.toNat) ::
        words)
  | _, words => words

/-- The next word of the schedule. -/
def nextWord (words : List ℕ) : ℕ :=
  let far := words.getD 14 0
  let near := words.getD 1 0
  let small0 := rotateRight 7 far ^^^ rotateRight 18 far ^^^ (far >>> 3)
  let small1 := rotateRight 17 near ^^^ rotateRight 19 near ^^^ (near >>> 10)
  (words.getD 15 0 + small0 + words.getD 6 0 + small1) % modulus

/-- The schedule after `count` more words. -/
def schedule : ℕ → List ℕ → List ℕ
  | 0, words => words
  | count + 1, words => schedule count (nextWord words :: words)

/-- One round of the compression. -/
def round (state : State) (pair : ℕ × ℕ) : State :=
  let big1 := rotateRight 6 state.e ^^^ rotateRight 11 state.e ^^^ rotateRight 25 state.e
  let choice := (state.e &&& state.f) ^^^ ((modulus - 1 - state.e) &&& state.g)
  let first := state.h + big1 + choice + pair.1 + pair.2
  let big0 := rotateRight 2 state.a ^^^ rotateRight 13 state.a ^^^ rotateRight 22 state.a
  let majority := (state.a &&& state.b) ^^^ (state.a &&& state.c) ^^^ (state.b &&& state.c)
  ⟨(first + big0 + majority) % modulus, state.a, state.b, state.c, (state.d + first) % modulus,
    state.e, state.f, state.g⟩

/-- One block is compressed into the state. -/
def compress (state : State) (block : Bytes) : State :=
  let words := (schedule 48 (wordsOf block [])).reverse
  let last := (constants.zip words).foldl round state
  ⟨(state.a + last.a) % modulus, (state.b + last.b) % modulus, (state.c + last.c) % modulus,
    (state.d + last.d) % modulus, (state.e + last.e) % modulus, (state.f + last.f) % modulus,
    (state.g + last.g) % modulus, (state.h + last.h) % modulus⟩

/-- The blocks of 64 bytes, `count` of them. -/
def compressAll : ℕ → State → Bytes → State
  | 0, state, _ => state
  | count + 1, state, data => compressAll count (compress state (data.take 64)) (data.drop 64)

/-- The state after the padded data. -/
def digest (data : Bytes) : State :=
  compressAll ((padded data).length / 64) initial (padded data)

/-- Eight hexadecimal digits. -/
def hexWord (word : ℕ) : PyStr :=
  (List.range 8).reverse.map fun place => JsonText.hexDigit ((word >>> (4 * place)) % 16)

/-- `hashlib.sha256(data).hexdigest()`. -/
def hexdigest (data : Bytes) : PyStr :=
  let state := digest data
  [state.a, state.b, state.c, state.d, state.e, state.f, state.g, state.h].flatMap hexWord

theorem hexdigest_hex (data : Bytes) : (hexdigest data).length = 64 ∧
    ∀ code ∈ hexdigest data, (JsonText.hexValue? code).isSome = true := by
  have length : ∀ word, (hexWord word).length = 8 := by
    intro word
    simp [hexWord]
  have digits : ∀ digit < 16, (JsonText.hexValue? (JsonText.hexDigit digit)).isSome = true := by
    decide
  refine ⟨by simp [hexdigest, length], ?_⟩
  intro code member
  obtain ⟨word, _, inWord⟩ := List.mem_flatMap.mp member
  obtain ⟨place, _, rfl⟩ := List.mem_map.mp inWord
  exact digits _ (Nat.mod_lt _ (by decide))

/-- `hashlib.sha256(text.encode()).hexdigest()`. -/
def textDigest (text : String) : String :=
  String.ofList ((hexdigest text.toUTF8.data.toList).map Char.ofNat)

/-- The hash of the first three letters. -/
example : hexdigest [97, 98, 99] = textOf ["ba7816bf8f01cfea", "414140de5dae2223", "b00361a396177a9c", "b410ff61f20015ad"] := by
  decide +kernel

end Sha256
