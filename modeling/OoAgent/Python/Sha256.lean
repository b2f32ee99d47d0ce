import OoAgent.Python.Text

/-!
# SHA-256

The digest `hashlib.sha256` computes, on lists of bytes: pad to whole blocks of
sixty-four, expand each block to sixty-four words, and fold the compression
function over the blocks.

* `digest` — the thirty-two bytes, `hexdigest` their lower-case hexadecimal text.
* `length_hexdigest`, `lower_hexdigest` — every hex digest has sixty-four
  characters and is its own lower case.
-/

namespace Sha256

/-! ## The round functions -/

/-- Rotate right. -/
def rotr (n x : UInt32) : UInt32 := (x >>> n) ||| (x <<< (32 - n))

/-- `Ch`. -/
def ch (x y z : UInt32) : UInt32 := (x &&& y) ^^^ (~~~x &&& z)

/-- `Maj`. -/
def maj (x y z : UInt32) : UInt32 := (x &&& y) ^^^ (x &&& z) ^^^ (y &&& z)

/-- `Σ₀` and `Σ₁` of the rounds. -/
def bigSigma0 (x : UInt32) : UInt32 := rotr 2 x ^^^ rotr 13 x ^^^ rotr 22 x

@[inherit_doc bigSigma0]
def bigSigma1 (x : UInt32) : UInt32 := rotr 6 x ^^^ rotr 11 x ^^^ rotr 25 x

/-- `σ₀` and `σ₁` of the message schedule. -/
def smallSigma0 (x : UInt32) : UInt32 := rotr 7 x ^^^ rotr 18 x ^^^ (x >>> 3)

@[inherit_doc smallSigma0]
def smallSigma1 (x : UInt32) : UInt32 := rotr 17 x ^^^ rotr 19 x ^^^ (x >>> 10)

/-- The round constants: the fractional parts of the cube roots of the first primes. -/
def constants : List UInt32 :=
  [
    0x428a2f98, 0x71374491, 0xb5c0fbcf, 0xe9b5dba5, 0x3956c25b, 0x59f111f1,
    0x923f82a4, 0xab1c5ed5, 0xd807aa98, 0x12835b01, 0x243185be, 0x550c7dc3,
    0x72be5d74, 0x80deb1fe, 0x9bdc06a7, 0xc19bf174, 0xe49b69c1, 0xefbe4786,
    0x0fc19dc6, 0x240ca1cc, 0x2de92c6f, 0x4a7484aa, 0x5cb0a9dc, 0x76f988da,
    0x983e5152, 0xa831c66d, 0xb00327c8, 0xbf597fc7, 0xc6e00bf3, 0xd5a79147,
    0x06ca6351, 0x14292967, 0x27b70a85, 0x2e1b2138, 0x4d2c6dfc, 0x53380d13,
    0x650a7354, 0x766a0abb, 0x81c2c92e, 0x92722c85, 0xa2bfe8a1, 0xa81a664b,
    0xc24b8b70, 0xc76c51a3, 0xd192e819, 0xd6990624, 0xf40e3585, 0x106aa070,
    0x19a4c116, 0x1e376c08, 0x2748774c, 0x34b0bcb5, 0x391c0cb3, 0x4ed8aa4a,
    0x5b9cca4f, 0x682e6ff3, 0x748f82ee, 0x78a5636f, 0x84c87814, 0x8cc70208,
    0x90befffa, 0xa4506ceb, 0xbef9a3f7, 0xc67178f2]

/-- The eight working words. -/
structure Words where
  (a b c d e f g h : UInt32)

namespace Words

/-- The initial hash value: the fractional parts of the square roots of the first primes. -/
def initial : Words :=
  ⟨
    0x6a09e667, 0xbb67ae85, 0x3c6ef372, 0xa54ff53a, 0x510e527f, 0x9b05688c,
    0x1f83d9ab, 0x5be0cd19⟩

/-- Word-wise addition. -/
def add (x y : Words) : Words :=
  ⟨x.a + y.a, x.b + y.b, x.c + y.c, x.d + y.d, x.e + y.e, x.f + y.f, x.g + y.g, x.h + y.h⟩

/-- One round with a constant and a word of the schedule. -/
def round (s : Words) (k w : UInt32) : Words :=
  let t1 := s.h + bigSigma1 s.e + ch s.e s.f s.g + k + w
  let t2 := bigSigma0 s.a + maj s.a s.b s.c
  ⟨t1 + t2, s.a, s.b, s.c, s.d + t1, s.e, s.f, s.g⟩

/-- The words in order. -/
def toList (s : Words) : List UInt32 := [s.a, s.b, s.c, s.d, s.e, s.f, s.g, s.h]

end Words

/-! ## Messages -/

/-- The `n` bytes of a number, most significant first. -/
def bytesOf (n x : Nat) : List UInt8 :=
  (List.range n).reverse.map fun i => UInt8.ofNat (x / 256 ^ i)

/-- The message, a one bit, zeros up to eight bytes short of a whole block, and the
length in bits. -/
def pad (message : List UInt8) : List UInt8 :=
  message ++ 0x80 :: List.replicate ((119 - message.length % 64) % 64) 0 ++
    bytesOf 8 (8 * message.length)

/-- Big-endian words. -/
def wordsOf : List UInt8 → List UInt32
  | w :: x :: y :: z :: rest =>
    (w.toUInt32 <<< 24 ||| x.toUInt32 <<< 16 ||| y.toUInt32 <<< 8 ||| z.toUInt32) :: wordsOf rest
  | _ => []

/-- The blocks of sixty-four bytes. -/
def blocks (bytes : List UInt8) : List (List UInt8) :=
  (List.range (bytes.length / 64)).map fun i => (bytes.drop (64 * i)).take 64

/-- The message schedule, last word first: `n` more words, each from the ones two,
seven, fifteen and sixteen places before it. -/
def extend : Nat → List UInt32 → List UInt32
  | 0, ws => ws
  | n + 1, ws =>
    extend n ((smallSigma1 (ws.getD 1 0) + ws.getD 6 0 + smallSigma0 (ws.getD 14 0) +
      ws.getD 15 0) :: ws)

/-- The sixty-four words of a block. -/
def schedule (block : List UInt8) : List UInt32 := (extend 48 (wordsOf block).reverse).reverse

/-- The compression function. -/
def compress (s : Words) (block : List UInt8) : Words :=
  s.add ((constants.zip (schedule block)).foldl (fun t (k, w) => t.round k w) s)

/-! ## The digest -/

/-- The digest of a message. -/
def digest (message : List UInt8) : List UInt8 :=
  ((blocks (pad message)).foldl compress Words.initial).toList.flatMap
    fun w => bytesOf 4 w.toNat

/-- A byte as two hexadecimal digits. -/
def hexByte (b : UInt8) : List Char :=
  [Nat.digitChar (b.toNat / 16), Nat.digitChar (b.toNat % 16)]

/-- `hashlib.sha256(message).hexdigest()`. -/
def hexdigest (message : List UInt8) : String :=
  String.ofList ((digest message).flatMap hexByte)

theorem length_digest (message : List UInt8) : (digest message).length = 32 := by
  simp [digest, Words.toList, bytesOf]

/-- A hex digest has sixty-four characters. -/
theorem length_hexdigest (message : List UInt8) : (hexdigest message).length = 64 := by
  have hbyte : ∀ b ∈ digest message, (hexByte b).length = 2 := fun b _ => rfl
  rw [hexdigest, String.length_ofList, List.length_flatMap, List.map_congr_left hbyte,
    List.map_const', length_digest, List.sum_replicate]
  rfl

/-- A hexadecimal digit is its own lower case. -/
theorem toLower_digitChar {n : Nat} (h : n < 16) : (Nat.digitChar n).toLower = Nat.digitChar n := by
  interval_cases n <;> rfl

/-- A hex digest is its own lower case. -/
theorem lower_hexdigest (message : List UInt8) :
    PyText.lowerAscii (hexdigest message).toList = (hexdigest message).toList := by
  rw [hexdigest, String.toList_ofList, PyText.lowerAscii, List.map_flatMap]
  congr 1
  funext b
  have hb : b.toNat < 256 := b.toNat_lt
  simp only [hexByte, List.map_cons, List.map_nil]
  rw [toLower_digitChar (by omega), toLower_digitChar (by omega)]

end Sha256
