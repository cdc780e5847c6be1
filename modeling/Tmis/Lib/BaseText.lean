import Mathlib.Data.Nat.Notation
import Mathlib.Tactic.Common
import Tmis.Lib.Python
import Tmis.Lib.Sha1

/-!
# Base64

The URL-safe alphabet: three bytes are written as four characters of six bits each, with `=` for what the
last three lack.  Decoding skips what is in no alphabet, and takes that of `+` and `/` too.

* `b64encode`, `b64decode` — bytes and characters; `urlsafeB64encode`, `urlsafeB64decode`, texts;
* `standardB64encode`, `standardB64decode` — bytes and texts, with `+` and `/` in the place of `-` and `_`;
* `b64decode_b64encode`, `standardB64decode_encode` — what is encoded is decoded;
* `mem_b64encode` — what an encoding is written with.
-/

namespace Tmis.Lib.Base64

/-- The character of six bits. -/
def char64 (n : ℕ) : Char :=
  if n < 26 then Char.ofNat (65 + n)
  else if n < 52 then Char.ofNat (71 + n)
  else if n < 62 then Char.ofNat (n - 4)
  else if n = 62 then '-' else '_'

/-- The six bits of a character, in either alphabet. -/
def sixBits (c : Char) : Option ℕ :=
  if 'A' ≤ c ∧ c ≤ 'Z' then some (c.toNat - 65)
  else if 'a' ≤ c ∧ c ≤ 'z' then some (c.toNat - 71)
  else if '0' ≤ c ∧ c ≤ '9' then some (c.toNat + 4)
  else if c = '-' ∨ c = '+' then some 62
  else if c = '_' ∨ c = '/' then some 63
  else none

def b64encode : List UInt8 → List Char
  | [] => []
  | [a] => [char64 (a.toNat / 4), char64 (a.toNat % 4 * 16), '=', '=']
  | [a, b] =>
      [char64 (a.toNat / 4), char64 (a.toNat % 4 * 16 + b.toNat / 16), char64 (b.toNat % 16 * 4), '=']
  | a :: b :: c :: bytes =>
      char64 (a.toNat / 4) :: char64 (a.toNat % 4 * 16 + b.toNat / 16) ::
        char64 (b.toNat % 16 * 4 + c.toNat / 64) :: char64 (c.toNat % 64) :: b64encode bytes

/-- The loop of `a2b_base64`: at which of four characters it stands, the bits left over of the last one, and
how many `=` there were since. -/
def decodeFrom (quadPos left pads : ℕ) : List Char → Option (List UInt8)
  | [] => if quadPos = 0 then some [] else none
  | c :: cs =>
      if c = '=' then
        if quadPos < 2 then decodeFrom quadPos left pads cs
        -- A complete quad ends the data.
        else if 4 ≤ quadPos + (pads + 1) then some []
        else decodeFrom quadPos left (pads + 1) cs
      else
        match sixBits c with
        | none => decodeFrom quadPos left pads cs
        | some n =>
            match quadPos with
            | 0 => decodeFrom 1 n 0 cs
            | 1 => (decodeFrom 2 (n % 16) 0 cs).map (UInt8.ofNat (left * 4 + n / 16) :: ·)
            | 2 => (decodeFrom 3 (n % 4) 0 cs).map (UInt8.ofNat (left * 16 + n / 4) :: ·)
            | _ => (decodeFrom 0 0 0 cs).map (UInt8.ofNat (left * 64 + n) :: ·)

def b64decode (cs : List Char) : Option (List UInt8) := decodeFrom 0 0 0 cs

/-- `base64.urlsafe_b64encode(text.encode()).decode()`. -/
def urlsafeB64encode (text : String) : String := String.ofList (b64encode text.toByteArray.data.toList)

/-- `base64.urlsafe_b64decode(text.encode()).decode()`, unless it raises. -/
def urlsafeB64decode (text : String) : Option String := do
  String.fromUTF8? ⟨(← b64decode text.toList).toArray⟩

/-- The character of the standard alphabet. -/
def standardChar (c : Char) : Char := if c = '-' then '+' else if c = '_' then '/' else c

/-- `base64.b64encode(bytes).decode()`. -/
def standardB64encode (bytes : List UInt8) : String := String.ofList ((b64encode bytes).map standardChar)

/-- `base64.b64decode(text)`, unless it raises: `-` and `_` are in no alphabet, and skipped. -/
def standardB64decode (text : String) : Option (List UInt8) :=
  if text.toList.any fun c => 128 ≤ c.toNat then none
  else b64decode (text.toList.filter fun c => c ≠ '-' ∧ c ≠ '_')

/-! ### What is encoded is decoded -/

lemma char64_spec : ∀ n < 64, sixBits (char64 n) = some n ∧ char64 n ≠ '=' ∧ char64 n ≠ '.' := by decide

lemma decodeFrom_char64 {n : ℕ} (hn : n < 64) (quadPos left pads : ℕ) (cs : List Char) :
    decodeFrom quadPos left pads (char64 n :: cs) =
      match quadPos with
      | 0 => decodeFrom 1 n 0 cs
      | 1 => (decodeFrom 2 (n % 16) 0 cs).map (UInt8.ofNat (left * 4 + n / 16) :: ·)
      | 2 => (decodeFrom 3 (n % 4) 0 cs).map (UInt8.ofNat (left * 16 + n / 4) :: ·)
      | _ => (decodeFrom 0 0 0 cs).map (UInt8.ofNat (left * 64 + n) :: ·) := by
  obtain ⟨hsix, hpad, -⟩ := char64_spec n hn
  rw [decodeFrom, if_neg hpad, hsix]

/-- The first byte is put together of two characters. -/
lemma first_byte (a : UInt8) {rest : ℕ} (hrest : rest < 16) :
    UInt8.ofNat (a.toNat / 4 * 4 + (a.toNat % 4 * 16 + rest) / 16) = a := by
  rw [show a.toNat / 4 * 4 + (a.toNat % 4 * 16 + rest) / 16 = a.toNat by omega, UInt8.ofNat_toNat]

lemma second_byte (a b : UInt8) {rest : ℕ} (hrest : rest < 4) :
    UInt8.ofNat ((a.toNat % 4 * 16 + b.toNat / 16) % 16 * 16 + (b.toNat % 16 * 4 + rest) / 4) = b := by
  have hb := b.toNat_lt
  rw [show (a.toNat % 4 * 16 + b.toNat / 16) % 16 * 16 + (b.toNat % 16 * 4 + rest) / 4 = b.toNat by omega,
    UInt8.ofNat_toNat]

lemma third_byte (b c : UInt8) :
    UInt8.ofNat ((b.toNat % 16 * 4 + c.toNat / 64) % 4 * 64 + c.toNat % 64) = c := by
  have hc := c.toNat_lt
  rw [show (b.toNat % 16 * 4 + c.toNat / 64) % 4 * 64 + c.toNat % 64 = c.toNat by omega, UInt8.ofNat_toNat]

/-- **What is encoded is decoded.** -/
theorem b64decode_b64encode (bytes : List UInt8) : b64decode (b64encode bytes) = some bytes := by
  unfold b64decode
  induction bytes using b64encode.induct with
  | case1 => rfl
  | case2 a =>
    have ha := a.toNat_lt
    rw [b64encode, decodeFrom_char64 (by omega), decodeFrom_char64 (by omega)]
    have hpads (left : ℕ) : decodeFrom 2 left 0 ['=', '='] = some [] := rfl
    simp only [hpads, Option.map_some, Option.some.injEq]
    exact congrArg (· :: []) (first_byte a (show 0 < 16 by decide))
  | case3 a b =>
    have ha := a.toNat_lt
    have hb := b.toNat_lt
    rw [b64encode, decodeFrom_char64 (by omega), decodeFrom_char64 (by omega)]
    simp only [decodeFrom_char64 (n := b.toNat % 16 * 4) (by omega)]
    have hpads (left : ℕ) : decodeFrom 3 left 0 ['='] = some [] := rfl
    simp only [hpads, Option.map_some, Option.some.injEq]
    exact congrArg₂ (fun x y => [x, y]) (first_byte a (by omega)) (second_byte a b (show 0 < 4 by decide))
  | case4 a b c bytes ih =>
    have ha := a.toNat_lt
    have hb := b.toNat_lt
    have hc := c.toNat_lt
    rw [b64encode, decodeFrom_char64 (by omega), decodeFrom_char64 (by omega)]
    simp only [decodeFrom_char64 (n := b.toNat % 16 * 4 + c.toNat / 64) (by omega),
      decodeFrom_char64 (n := c.toNat % 64) (by omega), ih, Option.map_some, Option.some.injEq]
    rw [first_byte a (by omega), second_byte a b (by omega), third_byte b c]

/-- An encoding is written with the alphabet, and with `=`. -/
lemma mem_b64encode {c : Char} (bytes : List UInt8) (h : c ∈ b64encode bytes) :
    c = '=' ∨ ∃ n < 64, c = char64 n := by
  induction bytes using b64encode.induct with
  | case1 => nomatch h
  | case2 a =>
    have ha := a.toNat_lt
    simp only [b64encode, List.mem_cons, List.not_mem_nil, or_false] at h
    rcases h with rfl | rfl | rfl | rfl
    exacts [Or.inr ⟨_, by omega, rfl⟩, Or.inr ⟨_, by omega, rfl⟩, Or.inl rfl, Or.inl rfl]
  | case3 a b =>
    have ha := a.toNat_lt
    have hb := b.toNat_lt
    simp only [b64encode, List.mem_cons, List.not_mem_nil, or_false] at h
    rcases h with rfl | rfl | rfl | rfl
    exacts [Or.inr ⟨_, by omega, rfl⟩, Or.inr ⟨_, by omega, rfl⟩, Or.inr ⟨_, by omega, rfl⟩, Or.inl rfl]
  | case4 a b c bytes ih =>
    have ha := a.toNat_lt
    have hb := b.toNat_lt
    have hc := c.toNat_lt
    simp only [b64encode, List.mem_cons] at h
    rcases h with rfl | rfl | rfl | rfl | h
    exacts [Or.inr ⟨_, by omega, rfl⟩, Or.inr ⟨_, by omega, rfl⟩, Or.inr ⟨_, by omega, rfl⟩,
      Or.inr ⟨_, by omega, rfl⟩, ih h]

lemma standardChar_spec : ∀ n < 64, sixBits (standardChar (char64 n)) = sixBits (char64 n) ∧
    standardChar (char64 n) ≠ '=' ∧ standardChar (char64 n) ≠ '-' ∧ standardChar (char64 n) ≠ '_' ∧
    (standardChar (char64 n)).toNat < 128 := by decide

/-- The standard alphabet is read as the other one is. -/
lemma decodeFrom_standard {cs : List Char} (h : ∀ c ∈ cs, c = '=' ∨ ∃ n < 64, c = char64 n)
    (quadPos left pads : ℕ) : decodeFrom quadPos left pads (cs.map standardChar) = decodeFrom quadPos left pads cs := by
  induction cs generalizing quadPos left pads with
  | nil => rfl
  | cons c cs ih =>
    obtain ⟨hc, hcs⟩ := List.forall_mem_cons.mp h
    rcases hc with rfl | ⟨n, hn, rfl⟩
    · have hpad : standardChar '=' = '=' := by decide
      rw [List.map_cons, hpad]
      simp only [decodeFrom, ih hcs]
    · obtain ⟨hsix, hpad, -⟩ := standardChar_spec n hn
      have hpad' := (char64_spec n hn).2.1
      rw [List.map_cons]
      simp only [decodeFrom, if_neg hpad, if_neg hpad', hsix, ih hcs]

/-- **What is encoded in the standard alphabet is decoded.** -/
theorem standardB64decode_encode (bytes : List UInt8) : standardB64decode (standardB64encode bytes) = some bytes := by
  have hcs : ∀ c ∈ b64encode bytes, c = '=' ∨ ∃ n < 64, c = char64 n := fun c hc => mem_b64encode bytes hc
  have hstandard : ∀ c ∈ (b64encode bytes).map standardChar, c ≠ '-' ∧ c ≠ '_' ∧ c.toNat < 128 := by
    intro c hc
    obtain ⟨d, hd, rfl⟩ := List.mem_map.mp hc
    rcases hcs d hd with rfl | ⟨n, hn, rfl⟩
    · decide
    · exact (standardChar_spec n hn).2.2
  have hascii : ((b64encode bytes).map standardChar).any (fun c => 128 ≤ c.toNat) = false := by
    rw [List.any_eq_false]
    intro c hc
    have := (hstandard c hc).2.2
    simpa using this
  have hfilter : ((b64encode bytes).map standardChar).filter (fun c => c ≠ '-' ∧ c ≠ '_') =
      (b64encode bytes).map standardChar := by
    refine List.filter_eq_self.mpr fun c hc => ?_
    exact decide_eq_true ⟨(hstandard c hc).1, (hstandard c hc).2.1⟩
  unfold standardB64decode standardB64encode
  rw [String.toList_ofList, hascii, hfilter, b64decode, decodeFrom_standard hcs]
  exact b64decode_b64encode bytes

/-- A text that was encoded is decoded. -/
theorem urlsafeB64decode_encode (text : String) : urlsafeB64decode (urlsafeB64encode text) = some text := by
  unfold urlsafeB64decode urlsafeB64encode
  rw [String.toList_ofList, b64decode_b64encode]
  simp [String.fromUTF8?, text.isValidUTF8, String.fromUTF8]

lemma urlsafeB64encode_inj {s t : String} (h : urlsafeB64encode s = urlsafeB64encode t) : s = t := by
  have hdecoded := congrArg urlsafeB64decode h
  rw [urlsafeB64decode_encode, urlsafeB64decode_encode] at hdecoded
  exact Option.some.inj hdecoded

/-- There is no `.` in an encoding. -/
lemma dot_not_mem_urlsafeB64encode (text : String) : '.' ∉ (urlsafeB64encode text).toList := by
  rw [urlsafeB64encode, String.toList_ofList]
  intro hmem
  rcases mem_b64encode _ hmem with heq | ⟨n, hn, heq⟩
  · cases heq
  · exact (char64_spec n hn).2.2 heq.symm

end Tmis.Lib.Base64

/-!
## Base32

* `b32decode` — the bytes of a text, in quanta of eight digits, what the last one lacks filled up with `=`;
* `b32encode` — five bytes as eight digits.
-/

namespace Tmis.Lib.Base32

open Sha1 (bigEndian ofBytes)

/-- `binascii.Error(text)`. -/
def binasciiError (text : String) : PyException := ⟨"Error", text⟩

/-- The five bits of a digit. -/
def fiveBits (c : Char) : Option ℕ :=
  if 'A' ≤ c ∧ c ≤ 'Z' then some (c.toNat - 65)
  else if '2' ≤ c ∧ c ≤ '7' then some (c.toNat - 24)
  else none

/-- The number that the digits of a quantum stand for. -/
def quantum (cs : List Char) : Except PyException ℕ :=
  cs.foldlM (fun acc c =>
    match fiveBits c with
    | some n => .ok (32 * acc + n)
    | none => .error (binasciiError "Non-base32 digit found")) 0

/-- The numbers of the quanta, of which there are so many at most. -/
def quanta : ℕ → List Char → Except PyException (List ℕ)
  | 0, _ => .ok []
  | _ + 1, [] => .ok []
  | count + 1, cs => do
      let n ← quantum (cs.take 8)
      let rest ← quanta count (cs.drop 8)
      return n :: rest

/-- `base64.b32decode(s)` of a text. -/
def b32decode (s : List Char) : Except PyException (List UInt8) := do
  if s.any fun c => 128 ≤ c.toNat then
    throw (valueError "string argument should contain only ASCII characters")
  if s.length % 8 ≠ 0 then throw (binasciiError "Incorrect padding")
  let digits := (s.reverse.dropWhile (· = '=')).reverse
  let padchars := s.length - digits.length
  let numbers ← quanta digits.length digits
  let decoded := numbers.flatMap (bigEndian 5)
  if padchars ∉ [0, 1, 3, 4, 6] then throw (binasciiError "Incorrect padding")
  -- The last quantum is filled up with zeros, and gives as many bytes as it has whole.
  match padchars, numbers.getLast? with
  | 0, _ => return decoded
  | _, none => return decoded
  | _, some acc =>
      let last := bigEndian 5 (acc * 32 ^ padchars)
      return decoded.dropLast.dropLast.dropLast.dropLast.dropLast ++ last.take ((43 - 5 * padchars) / 8)

def digit32 (n : ℕ) : Char := if n < 26 then Char.ofNat (65 + n) else Char.ofNat (24 + n)

/-- The digits of a number of forty bits. -/
def digits32 : ℕ → ℕ → List Char
  | 0, _ => []
  | width + 1, n => digit32 (n / 32 ^ width % 32) :: digits32 width n

/-- `base64.b32encode`, of so many times five bytes. -/
def b32encode : ℕ → List UInt8 → List Char
  | 0, _ => []
  | count + 1, bytes => digits32 8 (ofBytes (bytes.take 5)) ++ b32encode count (bytes.drop 5)

end Tmis.Lib.Base32
