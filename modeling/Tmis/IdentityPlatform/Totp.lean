import Mathlib.Data.Rat.Floor
import Tmis.Lib.BaseText
import Tmis.Lib.Calls
import Tmis.Lib.Sha1

/-!
# One-time codes

`identity_platform.mfa.totp`: the code of a counter, the code of a moment, and the check of a code against
the counters around a moment.  Times are exact: where `float` rounds a quotient, the counter is another one.

* `hotp`, `generateTotp`, `verifyTotp` — the functions of the source;
* `hotp_eq_ok`, `hotp_eq_error` — there is a code for each counter of sixty-four bits, and for no other;
* `scan_eq_true_iff`, `scan_eq_false_iff` — what comes of comparing the codes of successive counters;
* `verifyTotp_exact_iff` — when a check returns whether the code is that of a counter in the window.
-/

namespace Tmis.IdentityPlatform.Totp

open Tmis.Lib
open Sha1 (bigEndian ofBytes hmacSha1)
open Base32 (b32decode)

/-- `struct.error(text)`. -/
def structError (text : String) : PyException := ⟨"error", text⟩

/-- `struct.pack(">Q", counter)`. -/
def packQ (counter : ℤ) : Except PyException (List UInt8) :=
  if 0 ≤ counter ∧ counter < 2 ^ 64 then .ok (bigEndian 8 counter.toNat)
  else .error (structError "int too large to convert")

/-- `struct.unpack(">I", bytes)[0]`. -/
def unpackI (bytes : List UInt8) : Except PyException ℕ :=
  if bytes.length = 4 then .ok (ofBytes bytes)
  else .error (structError "unpack requires a buffer of 4 bytes")

/-- `bytes[-1]`. -/
def lastByte (bytes : List UInt8) : Except PyException UInt8 :=
  match bytes.getLast? with
  | none => .error ⟨"IndexError", "index out of range"⟩
  | some byte => .ok byte

/-- `s.zfill(width)` of a text without a sign. -/
def zfill (s : String) (width : ℕ) : String := String.ofList (List.replicate (width - s.length) '0') ++ s

def isAscii (s : String) : Bool := s.toList.all fun c => c.toNat < 128

/-- `hmac.compare_digest(a, b)` of two texts. -/
def compareDigest (a b : String) : Except PyException Bool :=
  if isAscii a && isAscii b then .ok (a = b)
  else .error (typeError "comparing strings with non-ASCII characters is not supported")

/-- What `b32decode` is given: the secret, filled up to whole quanta. -/
def paddedSecret (secret : String) : List Char :=
  secret.toList ++ List.replicate ((8 - secret.length % 8) % 8) '='

/-- `_hotp(secret, counter, digits)`. -/
def hotp (secret : String) (counter : ℤ) (digits : ℕ) : Except PyException String := do
  let key ← b32decode (paddedSecret secret)
  let message ← packQ counter
  let digest := hmacSha1 key message
  let last ← lastByte digest
  let offset := last.toNat &&& 0x0F
  let word ← unpackI ((digest.drop offset).take 4)
  let codeInt := (word &&& 0x7FFFFFFF) % 10 ^ digits
  return zfill (toString codeInt) digits

/-- `int(t // timestep)`. -/
def stepCounter (t : ℚ) (timestep : ℤ) : Except PyException ℤ :=
  if timestep = 0 then .error ⟨"ZeroDivisionError", "float floor division by zero"⟩ else .ok ⌊t / timestep⌋

def generateTotp (secret : String) (timestep : ℤ) (digits : ℕ) (t : ℚ) : Except PyException String := do
  let counter ← stepCounter t timestep
  hotp secret counter digits

/-- Whether the code is that of one of so many successive counters, up to the first whose code it is. -/
def scan (secret code : String) (digits : ℕ) : ℕ → ℤ → Except PyException Bool
  | 0, _ => .ok false
  | count + 1, counter => do
      let expected ← hotp secret counter digits
      if (← compareDigest expected code) then return true
      scan secret code digits count (counter + 1)

/-- `verify_totp`: the offsets run through `range(-window, window + 1)`. -/
def verifyTotp (secret code : String) (timestep : ℤ) (digits : ℕ) (window : ℤ) (t : ℚ) :
    Except PyException Bool := do
  let counter ← stepCounter t timestep
  scan secret code digits (2 * window + 1).toNat (counter - window)

/-- A base32 secret: one that is decoded. -/
def ValidSecret (secret : String) : Prop := ∃ key, b32decode (paddedSecret secret) = .ok key

/-! ### Codes -/

section Codes

variable {secret code : String} {digits : ℕ} {counter : ℤ}

lemma isAscii_append {a b : String} : isAscii (a ++ b) = (isAscii a && isAscii b) := by
  rw [isAscii, String.toList_append, List.all_append]
  rfl

lemma isAscii_zfill (n width : ℕ) : isAscii (zfill (toString n) width) = true := by
  rw [zfill, isAscii_append, Bool.and_eq_true_iff]
  constructor
  · rw [isAscii, String.toList_ofList, List.all_eq_true]
    intro c hc
    rw [List.eq_of_mem_replicate hc]
    decide
  · rw [isAscii, List.all_eq_true]
    intro c hc
    have hdigit : c.isDigit = true := isDigit_of_mem_toString hc
    rw [Char.isDigit, Bool.and_eq_true, decide_eq_true_iff, decide_eq_true_iff] at hdigit
    have hle : c.toNat ≤ 57 := UInt32.le_iff_toNat_le.mp hdigit.2
    exact decide_eq_true (by omega)

/-- **There is a code for each counter of sixty-four bits**, in the characters of ASCII. -/
theorem hotp_eq_ok (hsecret : ValidSecret secret) (digits : ℕ) (hpos : 0 ≤ counter) (hlt : counter < 2 ^ 64) :
    ∃ expected, hotp secret counter digits = .ok expected ∧ isAscii expected = true := by
  obtain ⟨key, hkey⟩ := hsecret
  have hlength := Sha1.length_hmacSha1 key (bigEndian 8 counter.toNat)
  obtain ⟨last, hlast⟩ : ∃ last, lastByte (hmacSha1 key (bigEndian 8 counter.toNat)) = .ok last := by
    unfold lastByte
    cases hget : (hmacSha1 key (bigEndian 8 counter.toNat)).getLast? with
    | none =>
      rw [List.getLast?_eq_none_iff.mp hget] at hlength
      cases hlength
    | some last => exact ⟨last, rfl⟩
  -- The four bytes begin among the first sixteen of twenty.
  have hoffset : last.toNat &&& 0x0F ≤ 15 := Nat.and_le_right
  have hfour : (((hmacSha1 key (bigEndian 8 counter.toNat)).drop (last.toNat &&& 0x0F)).take 4).length = 4 := by
    rw [List.length_take, List.length_drop, hlength]
    omega
  refine ⟨zfill (toString ((ofBytes (((hmacSha1 key (bigEndian 8 counter.toNat)).drop
    (last.toNat &&& 0x0F)).take 4) &&& 0x7FFFFFFF) % 10 ^ digits)) digits, ?_, isAscii_zfill _ digits⟩
  rw [hotp, hkey, packQ, if_pos ⟨hpos, hlt⟩]
  show (do
    let last ← lastByte (hmacSha1 key (bigEndian 8 counter.toNat))
    let word ← unpackI (((hmacSha1 key (bigEndian 8 counter.toNat)).drop (last.toNat &&& 0x0F)).take 4)
    return zfill (toString ((word &&& 0x7FFFFFFF) % 10 ^ digits)) digits) = _
  rw [hlast]
  show (do
    let word ← unpackI (((hmacSha1 key (bigEndian 8 counter.toNat)).drop (last.toNat &&& 0x0F)).take 4)
    return zfill (toString ((word &&& 0x7FFFFFFF) % 10 ^ digits)) digits) = _
  rw [unpackI, if_pos hfour]
  rfl

/-- There is no code for any other counter. -/
lemma hotp_eq_error (secret : String) (digits : ℕ) (h : ¬ (0 ≤ counter ∧ counter < 2 ^ 64)) : ∃ e, hotp secret counter digits = .error e := by
  unfold hotp
  cases b32decode (paddedSecret secret) with
  | error e => exact ⟨e, rfl⟩
  | ok key =>
    rw [packQ, if_neg h]
    exact ⟨_, rfl⟩

/-! ### Comparing -/

lemma compareDigest_eq {a b : String} (ha : isAscii a = true) (hb : isAscii b = true) :
    compareDigest a b = .ok (a = b) := by
  rw [compareDigest, ha, hb]
  rfl

/-- What one comparison comes to. -/
lemma scan_succ (hsecret : ValidSecret secret) (hcode : isAscii code = true) (hpos : 0 ≤ counter)
    (hlt : counter < 2 ^ 64) (count : ℕ) : scan secret code digits (count + 1) counter =
      if hotp secret counter digits = .ok code then .ok true else scan secret code digits count (counter + 1) := by
  obtain ⟨expected, hexpected, hascii⟩ := hotp_eq_ok hsecret digits hpos hlt
  rw [scan, hexpected]
  show (do
    if (← compareDigest expected code) then return true
    scan secret code digits count (counter + 1)) = _
  rw [compareDigest_eq hascii hcode]
  by_cases heq : expected = code
  · subst heq
    simp
    rfl
  · have hne : ¬ (Except.ok expected : Except PyException String) = .ok code := fun h => heq (Except.ok.inj h)
    rw [if_neg hne]
    simp [heq]
    rfl

/-- The codes of counters that are too great are not there. -/
lemma scan_eq_error (secret code : String) (digits : ℕ) (h : ¬ (0 ≤ counter ∧ counter < 2 ^ 64)) (count : ℕ) :
    ∃ e, scan secret code digits (count + 1) counter = .error e := by
  obtain ⟨e, he⟩ := hotp_eq_error secret digits h
  rw [scan, he]
  exact ⟨e, rfl⟩

/-- A code that is not in ASCII is not compared. -/
lemma scan_eq_error_of_not_ascii (secret : String) (digits : ℕ) (hcode : isAscii code = false) (count : ℕ)
    (counter : ℤ) :
    ∃ e, scan secret code digits (count + 1) counter = .error e := by
  rw [scan]
  cases hotp secret counter digits with
  | error e => exact ⟨e, rfl⟩
  | ok expected =>
    have hcompare : ∃ e, compareDigest expected code = .error e := by
      rw [compareDigest, hcode, Bool.and_false, if_neg (by decide)]
      exact ⟨_, rfl⟩
    obtain ⟨e, he⟩ := hcompare
    refine ⟨e, ?_⟩
    show (do
      if (← compareDigest expected code) then return true
      scan secret code digits count (counter + 1)) = _
    rw [he]
    rfl

/-- **A match is found iff one of the counters has the code.** -/
theorem scan_eq_true_iff (hsecret : ValidSecret secret) (hcode : isAscii code = true) :
    ∀ (count : ℕ) {counter : ℤ}, 0 ≤ counter → (scan secret code digits count counter = .ok true ↔
      ∃ c, counter ≤ c ∧ c < counter + count ∧ hotp secret c digits = .ok code)
  | 0, counter, _ => by
      refine iff_of_false (fun h => ?_) ?_
      · rw [scan] at h
        cases h
      · rintro ⟨c, hle, hlt, -⟩
        rw [Nat.cast_zero] at hlt
        omega
  | count + 1, counter, hpos => by
      by_cases hlt : counter < 2 ^ 64
      · rw [scan_succ hsecret hcode hpos hlt]
        split
        · rename_i hmatch
          exact iff_of_true rfl ⟨counter, le_rfl, by push_cast; omega, hmatch⟩
        · rename_i hne
          rw [scan_eq_true_iff hsecret hcode count (by omega)]
          refine exists_congr fun c => ?_
          push_cast
          constructor
          · rintro ⟨hle, hlt, hc⟩
            exact ⟨by omega, by omega, hc⟩
          · rintro ⟨hle, hlt, hc⟩
            have hc' : c ≠ counter := by
              rintro rfl
              exact hne hc
            exact ⟨by omega, by omega, hc⟩
      · obtain ⟨e, he⟩ := scan_eq_error secret code digits
          (fun h : 0 ≤ counter ∧ counter < 2 ^ 64 => hlt h.2) count
        rw [he]
        refine iff_of_false (fun h => nomatch h) ?_
        rintro ⟨c, hle, -, hc⟩
        obtain ⟨e', he'⟩ := hotp_eq_error secret digits
          (fun h : 0 ≤ c ∧ c < 2 ^ 64 => hlt (lt_of_le_of_lt hle h.2))
        rw [he'] at hc
        cases hc

/-- **No match is returned iff all counters have codes, and other ones.** -/
theorem scan_eq_false_iff (hsecret : ValidSecret secret) (hcode : isAscii code = true) :
    ∀ (count : ℕ) {counter : ℤ}, 0 ≤ counter → counter ≤ 2 ^ 64 →
      (scan secret code digits count counter = .ok false ↔ counter + count ≤ 2 ^ 64 ∧
        ∀ c, counter ≤ c → c < counter + count → hotp secret c digits ≠ .ok code)
  | 0, counter, _, hle => by
      refine iff_of_true (by rw [scan]) ⟨by simpa using hle, fun c hle hlt => ?_⟩
      rw [Nat.cast_zero] at hlt
      omega
  | count + 1, counter, hpos, hle => by
      by_cases hlt : counter < 2 ^ 64
      · rw [scan_succ hsecret hcode hpos hlt]
        split
        · rename_i hmatch
          refine iff_of_false (fun h => nomatch h) ?_
          rintro ⟨-, hnone⟩
          exact hnone counter le_rfl (by push_cast; omega) hmatch
        · rename_i hne
          rw [scan_eq_false_iff hsecret hcode count (by omega) (by omega)]
          push_cast
          constructor
          · rintro ⟨hend, hnone⟩
            refine ⟨by omega, fun c hle hlt => ?_⟩
            by_cases hc : c = counter
            · rw [hc]
              exact hne
            · exact hnone c (by omega) (by omega)
          · rintro ⟨hend, hnone⟩
            exact ⟨by omega, fun c hle hlt => hnone c (by omega) (by omega)⟩
      · obtain ⟨e, he⟩ := scan_eq_error secret code digits
          (fun h : 0 ≤ counter ∧ counter < 2 ^ 64 => hlt h.2) count
        rw [he]
        refine iff_of_false (fun h => nomatch h) ?_
        rintro ⟨hend, -⟩
        push_cast at hend
        omega

/-! ### Checking -/

variable {timestep window : ℤ} {t : ℚ}

/-- The check returns, and says whether the code is that of a counter whose distance from the moment is within
the window. -/
def Exact (secret code : String) (timestep : ℤ) (digits : ℕ) (window : ℤ) (t : ℚ) : Prop :=
  ∃ result, verifyTotp secret code timestep digits window t = .ok result ∧
    (result = true ↔ ∃ c : ℤ, 0 ≤ c ∧ |c - ⌊t / timestep⌋| ≤ window ∧ hotp secret c digits = .ok code)

lemma verifyTotp_eq (hstep : 1 ≤ timestep) : verifyTotp secret code timestep digits window t =
    scan secret code digits (2 * window + 1).toNat (⌊t / timestep⌋ - window) := by
  rw [verifyTotp, stepCounter, if_neg (by omega)]
  rfl

/-- The counters of the window, where none is negative. -/
lemma exists_counter_iff {n : ℤ} {P : ℤ → Prop} (hwindow : 0 ≤ window) (hle : window ≤ n) :
    (∃ c, 0 ≤ c ∧ |c - n| ≤ window ∧ P c) ↔
      ∃ c, n - window ≤ c ∧ c < n - window + ((2 * window + 1).toNat : ℤ) ∧ P c := by
  have hcount : ((2 * window + 1).toNat : ℤ) = 2 * window + 1 := Int.toNat_of_nonneg (by omega)
  refine exists_congr fun c => ?_
  rw [hcount, abs_le]
  constructor
  · rintro ⟨-, ⟨hlo, hhi⟩, hc⟩
    exact ⟨by omega, by omega, hc⟩
  · rintro ⟨hlo, hhi, hc⟩
    exact ⟨by omega, ⟨by omega, by omega⟩, hc⟩

/-- **When a check of a code returns whether it is one of the window**: the code is in ASCII, no counter of the
window is negative, and none has more than sixty-four bits, unless an earlier one has the code. -/
theorem exact_iff (hsecret : ValidSecret secret) (hstep : 1 ≤ timestep) (hwindow : 0 ≤ window) :
    Exact secret code timestep digits window t ↔ isAscii code = true ∧ window ≤ ⌊t / timestep⌋ ∧
      (⌊t / timestep⌋ + window < 2 ^ 64 ∨
        ∃ c, ⌊t / timestep⌋ - window ≤ c ∧ c ≤ ⌊t / timestep⌋ + window ∧ hotp secret c digits = .ok code) := by
  rw [Exact, verifyTotp_eq hstep]
  generalize ⌊t / timestep⌋ = n
  obtain ⟨count, hcount⟩ : ∃ count, (2 * window + 1).toNat = count + 1 := ⟨(2 * window).toNat, by omega⟩
  have hfail : (∃ e, scan secret code digits (2 * window + 1).toNat (n - window) = .error e) →
      ¬ ∃ result, scan secret code digits (2 * window + 1).toNat (n - window) = .ok result ∧
        (result = true ↔ ∃ c : ℤ, 0 ≤ c ∧ |c - n| ≤ window ∧ hotp secret c digits = .ok code) := by
    rintro ⟨e, he⟩ ⟨result, hresult, -⟩
    rw [he] at hresult
    cases hresult
  cases hcode : isAscii code with
  | false =>
    refine iff_of_false (hfail ?_) (fun h => nomatch h.1)
    rw [hcount]
    exact scan_eq_error_of_not_ascii secret digits hcode count _
  | true =>
    by_cases hle : window ≤ n
    · rw [exists_counter_iff hwindow hle]
      have hwidth : ((2 * window + 1).toNat : ℤ) = 2 * window + 1 := Int.toNat_of_nonneg (by omega)
      have hpos : 0 ≤ n - window := by omega
      have hrange : (∃ c, n - window ≤ c ∧ c ≤ n + window ∧ hotp secret c digits = .ok code) ↔
          ∃ c, n - window ≤ c ∧ c < n - window + ((2 * window + 1).toNat : ℤ) ∧
            hotp secret c digits = .ok code := by
        refine exists_congr fun c => ?_
        rw [hwidth]
        constructor
        · rintro ⟨hlo, hhi, hc⟩
          exact ⟨hlo, by omega, hc⟩
        · rintro ⟨hlo, hhi, hc⟩
          exact ⟨hlo, by omega, hc⟩
      have htrue : scan secret code digits (2 * window + 1).toNat (n - window) = .ok true ↔ _ :=
        scan_eq_true_iff hsecret hcode _ hpos
      rw [hrange, ← htrue]
      constructor
      · rintro ⟨result, hresult, -⟩
        refine ⟨rfl, hle, ?_⟩
        cases result with
        | true => exact Or.inr hresult
        | false =>
          by_cases hlt : n - window < 2 ^ 64
          · have hend := ((scan_eq_false_iff hsecret hcode _ hpos hlt.le).mp hresult).1
            rw [hwidth] at hend
            exact Or.inl (by linarith)
          · rw [hcount] at hresult
            obtain ⟨e, he⟩ := scan_eq_error secret code digits (fun h => hlt h.2) count
            rw [he] at hresult
            cases hresult
      · rintro ⟨-, -, hcases⟩
        by_cases hmatch : scan secret code digits (2 * window + 1).toNat (n - window) = .ok true
        · exact ⟨true, hmatch, iff_of_true rfl hmatch⟩
        · refine ⟨false, ?_, iff_of_false (fun h => nomatch h) hmatch⟩
          have hend : n + window < 2 ^ 64 := hcases.resolve_right hmatch
          refine (scan_eq_false_iff hsecret hcode _ hpos (by linarith)).mpr ⟨?_, fun c hlo hhi hc => ?_⟩
          · rw [hwidth]
            linarith
          · exact hmatch (htrue.mpr ⟨c, hlo, hhi, hc⟩)
    · refine iff_of_false (hfail ?_) (fun h => hle h.2.1)
      rw [hcount]
      exact scan_eq_error secret code digits (fun h => by omega) count

/-- The code of a moment is in ASCII. -/
lemma isAscii_of_hotp {expected : String} (hsecret : ValidSecret secret)
    (h : hotp secret counter digits = .ok expected) : isAscii expected = true := by
  by_cases hrange : 0 ≤ counter ∧ counter < 2 ^ 64
  · obtain ⟨expected', hexpected, hascii⟩ := hotp_eq_ok hsecret digits hrange.1 hrange.2
    rw [h] at hexpected
    rw [Except.ok.inj hexpected]
    exact hascii
  · obtain ⟨e, he⟩ := hotp_eq_error secret digits hrange
    rw [he] at h
    cases h

end Codes

/-- **Checking is exact where it is total.**  A check of any code against a valid secret returns, and says
whether it is the code of a counter in the window, iff the code is in ASCII, no counter of the window is
negative, and none has more than sixty-four bits unless an earlier one has the code.  What is generated for a
moment whose counter is in the window is accepted iff no counter of the window is negative. -/
theorem verifyTotp_exact_iff (secret code : String) (digits : ℕ) (timestep window : ℤ) (t : ℚ)
    (hsecret : ValidSecret secret) (hstep : 1 ≤ timestep) (hwindow : 0 ≤ window) :
    (Exact secret code timestep digits window t ↔ isAscii code = true ∧ window ≤ ⌊t / timestep⌋ ∧
      (⌊t / timestep⌋ + window < 2 ^ 64 ∨
        ∃ c, ⌊t / timestep⌋ - window ≤ c ∧ c ≤ ⌊t / timestep⌋ + window ∧ hotp secret c digits = .ok code)) ∧
    ∀ s generated, generateTotp secret timestep digits s = .ok generated → |⌊s / timestep⌋ - ⌊t / timestep⌋| ≤ window →
      (verifyTotp secret generated timestep digits window t = .ok true ↔ window ≤ ⌊t / timestep⌋) := by
  refine ⟨exact_iff hsecret hstep hwindow, fun s generated hgenerated hnear => ?_⟩
  rw [generateTotp, stepCounter, if_neg (by omega)] at hgenerated
  have hcode : hotp secret ⌊s / timestep⌋ digits = .ok generated := hgenerated
  have hascii := isAscii_of_hotp hsecret hcode
  obtain ⟨hlo, hhi⟩ := abs_le.mp hnear
  constructor
  · intro hverify
    by_contra hle
    obtain ⟨count, hcount⟩ : ∃ count, (2 * window + 1).toNat = count + 1 := ⟨(2 * window).toNat, by omega⟩
    rw [verifyTotp_eq hstep, hcount] at hverify
    obtain ⟨e, he⟩ := scan_eq_error secret generated digits
      (fun h : 0 ≤ ⌊t / timestep⌋ - window ∧ ⌊t / timestep⌋ - window < 2 ^ 64 => by omega) count
    rw [he] at hverify
    cases hverify
  · intro hle
    have hwidth : ((2 * window + 1).toNat : ℤ) = 2 * window + 1 := Int.toNat_of_nonneg (by omega)
    rw [verifyTotp_eq hstep, scan_eq_true_iff hsecret hascii _ (by omega), hwidth]
    exact ⟨⌊s / timestep⌋, by omega, by omega, hcode⟩

/-- A secret of five bytes, a code that is too short, and the second step. -/
theorem verifyTotp_exact_short : Exact "MFRGGZDF" "12345" 30 6 1 59 := by
  have hsecret : ValidSecret "MFRGGZDF" := ⟨[97, 98, 99, 100, 101], by decide⟩
  have hfloor : ⌊(59 : ℚ) / (30 : ℤ)⌋ = 1 := by
    rw [Int.floor_eq_iff]
    norm_num
  refine (verifyTotp_exact_iff "MFRGGZDF" "12345" 6 30 1 59 hsecret (by decide) (by decide)).1.mpr ⟨by decide, ?_, ?_⟩
  · rw [hfloor]
  · rw [hfloor]
    exact Or.inl (by norm_num)

/-- In the first step the window reaches below zero, and a code outside ASCII is not compared. -/
theorem verifyTotp_raises :
    verifyTotp "MFRGGZDF" "123456" 30 6 1 0 = .error (structError "int too large to convert") ∧
    ∃ e, verifyTotp "MFRGGZDF" "12345é" 30 6 1 59 = .error e := by
  have hfloor : ⌊(0 : ℚ) / (30 : ℤ)⌋ = 0 := by norm_num
  have hfirst : hotp "MFRGGZDF" (0 - 1) 6 = .error (structError "int too large to convert") := by decide
  constructor
  · rw [verifyTotp_eq (by decide), hfloor]
    show scan _ _ _ 3 (0 - 1) = _
    rw [scan, hfirst]
    rfl
  · rw [verifyTotp_eq (by decide)]
    exact scan_eq_error_of_not_ascii "MFRGGZDF" 6 (by decide) 2 _

end Tmis.IdentityPlatform.Totp
