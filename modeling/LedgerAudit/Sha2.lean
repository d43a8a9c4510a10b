import LedgerAudit.Bytes

/-!
# The SHA-2 family

One compression function serves both word sizes: a `Variant` names the word size, the rotation
amounts and the round constants. Words are natural numbers below `2 ^ wordBits`.
-/

namespace LedgerAudit.Sha2

/-- Three amounts of one mixing function: two rotations, and a rotation or a shift. -/
structure Amounts where
  first : Nat
  second : Nat
  third : Nat

structure Variant where
  wordBits : Nat
  /-- Mixing of the working words `e` and `a`. -/
  upperE : Amounts
  upperA : Amounts
  /-- Mixing of the message schedule, whose third amount is a shift. -/
  lowerNear : Amounts
  lowerFar : Amounts
  roundConstants : List Nat

structure Words where
  a : Nat
  b : Nat
  c : Nat
  d : Nat
  e : Nat
  f : Nat
  g : Nat
  h : Nat

def Words.toList (w : Words) : List Nat := [w.a, w.b, w.c, w.d, w.e, w.f, w.g, w.h]

namespace Variant

variable (v : Variant)

def wordBytes : Nat := v.wordBits / 8

def blockBytes : Nat := 16 * v.wordBytes

def wrap (n : Nat) : Nat := n % 1 <<< v.wordBits

def rotate (x n : Nat) : Nat := v.wrap ((x >>> n) ||| (x <<< (v.wordBits - n)))

def rotations (r : Amounts) (x : Nat) : Nat :=
  v.rotate x r.first ^^^ v.rotate x r.second ^^^ v.rotate x r.third

def rotationsAndShift (r : Amounts) (x : Nat) : Nat :=
  v.rotate x r.first ^^^ v.rotate x r.second ^^^ (x >>> r.third)

def complement (x : Nat) : Nat := (1 <<< v.wordBits - 1) ^^^ x

/-- One round, with the round constant and the schedule word already added up. -/
def round (s : Words) (input : Nat) : Words :=
  let choice := (s.e &&& s.f) ^^^ (v.complement s.e &&& s.g)
  let majority := (s.a &&& s.b) ^^^ (s.a &&& s.c) ^^^ (s.b &&& s.c)
  let t₁ := s.h + v.rotations v.upperE s.e + choice + input
  let t₂ := v.rotations v.upperA s.a + majority
  { a := v.wrap (t₁ + t₂), b := s.a, c := s.b, d := s.c
    e := v.wrap (s.d + t₁), f := s.e, g := s.f, h := s.g }

def nextScheduled : List Nat → Nat
  | [w₀, w₁, _, _, _, _, _, _, _, w₉, _, _, _, _, w₁₄, _] =>
    v.wrap (v.rotationsAndShift v.lowerNear w₁₄ + w₉ + v.rotationsAndShift v.lowerFar w₁ + w₀)
  | _ => 0

/-- Runs the rounds over a sliding window of the message schedule. -/
def rounds : List Nat → List Nat → Words → Words
  | [], _, s => s
  | _ :: _, [], s => s
  | k :: ks, w :: ws, s =>
    rounds ks (ws ++ [v.nextScheduled (w :: ws)]) (v.round s (k + w))

/-- Cuts bytes into pieces of `size`; the last one may be shorter. -/
def pieces (size : Nat) (bytes : Bytes) : List Bytes :=
  go (bytes.length / size + 1) bytes
where
  go : Nat → Bytes → List Bytes
    | 0, _ => []
    | _, [] => []
    | fuel + 1, b :: bs => (b :: bs).take size :: go fuel ((b :: bs).drop size)

def compress (s : Words) (block : Bytes) : Words :=
  let window := (pieces v.wordBytes block).map Bytes.toNat
  let t := rounds v v.roundConstants window s
  { a := v.wrap (s.a + t.a), b := v.wrap (s.b + t.b)
    c := v.wrap (s.c + t.c), d := v.wrap (s.d + t.d)
    e := v.wrap (s.e + t.e), f := v.wrap (s.f + t.f)
    g := v.wrap (s.g + t.g), h := v.wrap (s.h + t.h) }

/-- A one bit, zeros up to a block boundary, and the bit length in two words. -/
def pad (message : Bytes) : Bytes :=
  let lengthBytes := 2 * v.wordBytes
  let used := (message.length + 1 + lengthBytes) % v.blockBytes
  message ++ 0x80 :: List.replicate ((v.blockBytes - used) % v.blockBytes) 0
    ++ Bytes.ofNat lengthBytes (8 * message.length)

def hash (initial : Words) (message : Bytes) : Words :=
  (pieces v.blockBytes (v.pad message)).foldl v.compress initial

def wordsToBytes (words : List Nat) : Bytes := words.flatMap (Bytes.ofNat v.wordBytes)

theorem length_wordsToBytes (words : List Nat) :
    (v.wordsToBytes words).length = words.length * v.wordBytes := by
  induction words with
  | nil => simp [wordsToBytes]
  | cons w ws ih =>
    simp only [wordsToBytes, List.flatMap_cons, List.length_append, Bytes.length_ofNat,
      List.length_cons] at ih ⊢
    rw [ih, Nat.add_mul, Nat.one_mul, Nat.add_comm]

end Variant

def words32 : Variant where
  wordBits := 32
  upperE := ⟨6, 11, 25⟩
  upperA := ⟨2, 13, 22⟩
  lowerNear := ⟨17, 19, 10⟩
  lowerFar := ⟨7, 18, 3⟩
  roundConstants := [
    0x428a2f98, 0x71374491, 0xb5c0fbcf, 0xe9b5dba5, 0x3956c25b, 0x59f111f1, 0x923f82a4, 0xab1c5ed5,
    0xd807aa98, 0x12835b01, 0x243185be, 0x550c7dc3, 0x72be5d74, 0x80deb1fe, 0x9bdc06a7, 0xc19bf174,
    0xe49b69c1, 0xefbe4786, 0x0fc19dc6, 0x240ca1cc, 0x2de92c6f, 0x4a7484aa, 0x5cb0a9dc, 0x76f988da,
    0x983e5152, 0xa831c66d, 0xb00327c8, 0xbf597fc7, 0xc6e00bf3, 0xd5a79147, 0x06ca6351, 0x14292967,
    0x27b70a85, 0x2e1b2138, 0x4d2c6dfc, 0x53380d13, 0x650a7354, 0x766a0abb, 0x81c2c92e, 0x92722c85,
    0xa2bfe8a1, 0xa81a664b, 0xc24b8b70, 0xc76c51a3, 0xd192e819, 0xd6990624, 0xf40e3585, 0x106aa070,
    0x19a4c116, 0x1e376c08, 0x2748774c, 0x34b0bcb5, 0x391c0cb3, 0x4ed8aa4a, 0x5b9cca4f, 0x682e6ff3,
    0x748f82ee, 0x78a5636f, 0x84c87814, 0x8cc70208, 0x90befffa, 0xa4506ceb, 0xbef9a3f7, 0xc67178f2]

def words64 : Variant where
  wordBits := 64
  upperE := ⟨14, 18, 41⟩
  upperA := ⟨28, 34, 39⟩
  lowerNear := ⟨19, 61, 6⟩
  lowerFar := ⟨1, 8, 7⟩
  roundConstants := [
    0x428a2f98d728ae22, 0x7137449123ef65cd, 0xb5c0fbcfec4d3b2f, 0xe9b5dba58189dbbc,
    0x3956c25bf348b538, 0x59f111f1b605d019, 0x923f82a4af194f9b, 0xab1c5ed5da6d8118,
    0xd807aa98a3030242, 0x12835b0145706fbe, 0x243185be4ee4b28c, 0x550c7dc3d5ffb4e2,
    0x72be5d74f27b896f, 0x80deb1fe3b1696b1, 0x9bdc06a725c71235, 0xc19bf174cf692694,
    0xe49b69c19ef14ad2, 0xefbe4786384f25e3, 0x0fc19dc68b8cd5b5, 0x240ca1cc77ac9c65,
    0x2de92c6f592b0275, 0x4a7484aa6ea6e483, 0x5cb0a9dcbd41fbd4, 0x76f988da831153b5,
    0x983e5152ee66dfab, 0xa831c66d2db43210, 0xb00327c898fb213f, 0xbf597fc7beef0ee4,
    0xc6e00bf33da88fc2, 0xd5a79147930aa725, 0x06ca6351e003826f, 0x142929670a0e6e70,
    0x27b70a8546d22ffc, 0x2e1b21385c26c926, 0x4d2c6dfc5ac42aed, 0x53380d139d95b3df,
    0x650a73548baf63de, 0x766a0abb3c77b2a8, 0x81c2c92e47edaee6, 0x92722c851482353b,
    0xa2bfe8a14cf10364, 0xa81a664bbc423001, 0xc24b8b70d0f89791, 0xc76c51a30654be30,
    0xd192e819d6ef5218, 0xd69906245565a910, 0xf40e35855771202a, 0x106aa07032bbd1b8,
    0x19a4c116b8d2d0c8, 0x1e376c085141ab53, 0x2748774cdf8eeb99, 0x34b0bcb5e19b48a8,
    0x391c0cb3c5c95a63, 0x4ed8aa4ae3418acb, 0x5b9cca4f7763e373, 0x682e6ff3d6b2b8a3,
    0x748f82ee5defb2fc, 0x78a5636f43172f60, 0x84c87814a1f0ab72, 0x8cc702081a6439ec,
    0x90befffa23631e28, 0xa4506cebde82bde9, 0xbef9a3f7b2c67915, 0xc67178f2e372532b,
    0xca273eceea26619c, 0xd186b8c721c0c207, 0xeada7dd6cde0eb1e, 0xf57d4f7fee6ed178,
    0x06f067aa72176fba, 0x0a637dc5a2c898a6, 0x113f9804bef90dae, 0x1b710b35131c471b,
    0x28db77f523047d84, 0x32caab7b40c72493, 0x3c9ebe0a15c9bebc, 0x431d67c49c100d4c,
    0x4cc5d4becb3e42b6, 0x597f299cfc657e2a, 0x5fcb6fab3ad6faec, 0x6c44198c4a475817]

def initial256 : Words :=
  ⟨0x6a09e667, 0xbb67ae85, 0x3c6ef372, 0xa54ff53a,
   0x510e527f, 0x9b05688c, 0x1f83d9ab, 0x5be0cd19⟩

def initial384 : Words :=
  ⟨0xcbbb9d5dc1059ed8, 0x629a292a367cd507, 0x9159015a3070dd17, 0x152fecd8f70e5939,
   0x67332667ffc00b31, 0x8eb44a8768581511, 0xdb0c2e0d64f98fa7, 0x47b5481dbefa4fa4⟩

def initial512 : Words :=
  ⟨0x6a09e667f3bcc908, 0xbb67ae8584caa73b, 0x3c6ef372fe94f82b, 0xa54ff53a5f1d36f1,
   0x510e527fade682d1, 0x9b05688c2b3e6c1f, 0x1f83d9abfb41bd6b, 0x5be0cd19137e2179⟩

def sha256 (message : Bytes) : Bytes :=
  words32.wordsToBytes (words32.hash initial256 message).toList

/-- The longer hash from another start, cut to 48 bytes. -/
def sha384 (message : Bytes) : Bytes :=
  (words64.wordsToBytes (words64.hash initial384 message).toList).take 48

def sha512 (message : Bytes) : Bytes :=
  words64.wordsToBytes (words64.hash initial512 message).toList

@[simp] theorem length_sha256 (message : Bytes) : (sha256 message).length = 32 := by
  simp [sha256, Variant.length_wordsToBytes, Words.toList, Variant.wordBytes, words32]

end LedgerAudit.Sha2
