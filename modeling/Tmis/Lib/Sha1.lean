import Mathlib.Algebra.Order.Ring.Nat
import Mathlib.Tactic.Common

/-!
# SHA-1 and its keyed hash

* `sha1` — the digest of a message;
* `hmacSha1` — the digest of a message under a key;
* `length_sha1`, `length_hmacSha1` — a digest has twenty bytes.
-/

namespace Tmis.Lib.Sha1

/-- The five words of the state. -/
structure State where
  a : UInt32
  b : UInt32
  c : UInt32
  d : UInt32
  e : UInt32

def initial : State := ⟨0x67452301, 0xEFCDAB89, 0x98BADCFE, 0x10325476, 0xC3D2E1F0⟩

def rotateLeft (x : UInt32) (n : UInt32) : UInt32 := (x <<< n) ||| (x >>> (32 - n))

/-- A number as bytes, the greatest first. -/
def bigEndian : ℕ → ℕ → List UInt8
  | 0, _ => []
  | width + 1, n => UInt8.ofNat (n / 256 ^ width % 256) :: bigEndian width n

/-- The number that bytes stand for, the greatest first. -/
def ofBytes (bytes : List UInt8) : ℕ := bytes.foldl (fun n byte => 256 * n + byte.toNat) 0

/-- The words of a block, each made of those before it; the last one first. -/
def schedule : ℕ → List UInt32 → List UInt32
  | 0, words => words
  | rounds + 1, words =>
      let word := words.getD 2 0 ^^^ words.getD 7 0 ^^^ words.getD 13 0 ^^^ words.getD 15 0
      schedule rounds (rotateLeft word 1 :: words)

/-- The function and the constant of a round. -/
def mix (t : ℕ) (s : State) : UInt32 × UInt32 :=
  if t < 20 then ((s.b &&& s.c) ||| (~~~ s.b &&& s.d), 0x5A827999)
  else if t < 40 then (s.b ^^^ s.c ^^^ s.d, 0x6ED9EBA1)
  else if t < 60 then ((s.b &&& s.c) ||| (s.b &&& s.d) ||| (s.c &&& s.d), 0x8F1BBCDC)
  else (s.b ^^^ s.c ^^^ s.d, 0xCA62C1D6)

def round (s : State) (word : UInt32 × ℕ) : State :=
  let (f, k) := mix word.2 s
  ⟨rotateLeft s.a 5 + f + s.e + k + word.1, s.a, rotateLeft s.b 30, s.c, s.d⟩

/-- The words of a block of sixty-four bytes. -/
def blockWords : ℕ → List UInt8 → List UInt32
  | 0, _ => []
  | count + 1, bytes => UInt32.ofNat (ofBytes (bytes.take 4)) :: blockWords count (bytes.drop 4)

def compress (s : State) (block : List UInt8) : State :=
  let words := (schedule 64 (blockWords 16 block).reverse).reverse
  let s' := words.zipIdx.foldl round s
  ⟨s.a + s'.a, s.b + s'.b, s.c + s'.c, s.d + s'.d, s.e + s'.e⟩

/-- The state after so many blocks. -/
def compressAll : ℕ → State → List UInt8 → State
  | 0, s, _ => s
  | blocks + 1, s, bytes => compressAll blocks (compress s (bytes.take 64)) (bytes.drop 64)

/-- A message filled up to whole blocks, its length in bits at the end. -/
def pad (message : List UInt8) : List UInt8 :=
  message ++ 0x80 :: List.replicate ((119 - message.length % 64) % 64) 0 ++ bigEndian 8 (8 * message.length)

def sha1 (message : List UInt8) : List UInt8 :=
  let padded := pad message
  let s := compressAll (padded.length / 64) initial padded
  [s.a, s.b, s.c, s.d, s.e].flatMap fun word => bigEndian 4 word.toNat

/-- `hmac.new(key, message, hashlib.sha1).digest()`. -/
def hmacSha1 (key message : List UInt8) : List UInt8 :=
  let key := if 64 < key.length then sha1 key else key
  let block := key ++ List.replicate (64 - key.length) 0
  sha1 (block.map (· ^^^ 0x5C) ++ sha1 (block.map (· ^^^ 0x36) ++ message))

lemma length_bigEndian (width n : ℕ) : (bigEndian width n).length = width := by
  induction width with
  | zero => rfl
  | succ width ih => rw [bigEndian, List.length_cons, ih]

lemma length_sha1 (message : List UInt8) : (sha1 message).length = 20 := by
  simp only [sha1, List.flatMap_cons, List.flatMap_nil, List.length_append, length_bigEndian, List.length_nil]

/-- A digest has twenty bytes. -/
lemma length_hmacSha1 (key message : List UInt8) : (hmacSha1 key message).length = 20 := length_sha1 _

end Tmis.Lib.Sha1
