import Tmis.Lib.Dict
import Tmis.Lib.PyFloat
import Tmis.Lib.Run
import Tmis.Lib.Timedelta

/-!
# Protection against brute force

`platform.rate_limiting.brute_force`: failed attempts of an identity are counted in a window, and lock it
out once they are too many.  What `status` reports is read off the entry as it stands; `record_failure`
first puts away an entry whose window is over.

* `fail`, `recordFailure`, `recordSuccess`, `status` — what the protector does, at a moment of the clock;
* `Agrees` — a status is borne out by the failures that are recorded at the same moment;
* `Current` — the entry is one that `record_failure` would go on with;
* `fail_cases` — what one failure does to an identity that is not locked out;
* `status_agrees_iff` — after any calls, a status is borne out iff the entry is current.
-/

namespace Tmis.Platform.BruteForce

open Tmis.Lib
open PyFloat (ofRat)

structure LockoutPolicy where
  maxFailedAttempts : ℤ := 5
  windowSeconds : ℤ := 300
  lockoutSeconds : ℤ := 900

structure LockoutStatus (F : Type) where
  locked : Bool
  remainingAttempts : ℤ
  retryAfterSeconds : F

/-- `_AttemptWindow`. -/
structure AttemptWindow where
  windowStart : ℤ
  failures : ℕ
  lockedUntil : Option ℤ := none

/-- The end of the lock, if it holds at this moment. -/
def AttemptWindow.lockAt (entry : AttemptWindow) (now : ℤ) : Option ℤ := entry.lockedUntil.filter (now < ·)

/-- The entries, under their identities. -/
abbrev Attempts := Dict String AttemptWindow

def LockoutPolicy.window (policy : LockoutPolicy) : Except PyException ℤ :=
  timedelta (policy.windowSeconds * 10 ^ 6)

/-- The end of a lock that begins now. -/
def LockoutPolicy.lockEnd (policy : LockoutPolicy) (now : ℤ) : Except PyException ℤ := do
  let lockout ← timedelta (policy.lockoutSeconds * 10 ^ 6)
  addTimedelta now lockout

/-! ### The protector -/

section Protector

variable {F : Type} [PyFloat F]

/-- What a failure does to the entry of its identity. -/
def fail (policy : LockoutPolicy) (now : ℤ) (entry : Option AttemptWindow) :
    Except PyException (LockoutStatus F) × Option AttemptWindow :=
  match entry.bind (·.lockAt now) with
  | some lockedUntil => (.ok ⟨true, 0, ofRat ((lockedUntil - now) / 10 ^ 6)⟩, entry)
  | none =>
    match policy.window with
    | .error e => (.error e, entry)
    | .ok window =>
      let running := entry.filter fun entry => now - entry.windowStart < window
      let current := running.getD { windowStart := now, failures := 0 }
      let current := { current with failures := current.failures + 1 }
      if policy.maxFailedAttempts ≤ current.failures then
        match policy.lockEnd now with
        -- The failure is counted in the entry that is there; a new one is not stored yet.
        | .error e => (.error e, running.elim entry fun _ => some current)
        | .ok lockedUntil =>
          (.ok ⟨true, 0, ofRat policy.lockoutSeconds⟩, some { current with lockedUntil := some lockedUntil })
      else (.ok ⟨false, policy.maxFailedAttempts - current.failures, ofRat 0⟩, some current)

def recordFailure (policy : LockoutPolicy) (attempts : Attempts) (now : ℤ) (identity : String) :
    Except PyException (LockoutStatus F) × Attempts :=
  let (report, entry) := fail policy now (attempts.get identity)
  match entry with
  | none => (report, attempts)
  | some entry => (report, attempts.set identity entry)

def recordSuccess (attempts : Attempts) (identity : String) : Attempts := attempts.pop identity

def status (policy : LockoutPolicy) (attempts : Attempts) (now : ℤ) (identity : String) : LockoutStatus F :=
  match attempts.get identity with
  | none => ⟨false, policy.maxFailedAttempts, ofRat 0⟩
  | some entry =>
    match entry.lockAt now with
    | some lockedUntil => ⟨true, 0, ofRat ((lockedUntil - now) / 10 ^ 6)⟩
    | none => ⟨false, max 0 (policy.maxFailedAttempts - entry.failures), ofRat 0⟩

end Protector

/-! ### Runs -/

inductive Call where
  | recordFailure (identity : String)
  | recordSuccess (identity : String)
  | status (identity : String)

variable (F : Type) [PyFloat F]

/-- The entries after a call; a status writes nothing. -/
def step (policy : LockoutPolicy) (attempts : Attempts) : ℤ × Call → Attempts
  | (now, .recordFailure identity) => (recordFailure (F := F) policy attempts now identity).2
  | (_, .recordSuccess identity) => recordSuccess attempts identity
  | (_, .status _) => attempts

/-- The entries after calls, each at its moment. -/
def after (policy : LockoutPolicy) (calls : List (ℤ × Call)) : Attempts := run (step F policy) ∅ calls

/-! ### What is to hold -/

section Agreement

variable {F : Type} [PyFloat F]

/-- The call reports that the identity is locked out. -/
def Locks : Except PyException (LockoutStatus F) → Prop
  | .ok status => status.locked = true
  | .error _ => False

instance (report : Except PyException (LockoutStatus F)) : Decidable (Locks report) := by
  unfold Locks
  split <;> infer_instance

variable (F) in
/-- The entries after so many failures at the same moment. -/
def recordFailures (policy : LockoutPolicy) (attempts : Attempts) (now : ℤ) (identity : String) : ℕ → Attempts
  | 0 => attempts
  | n + 1 => (recordFailure (F := F) policy (recordFailures policy attempts now identity n) now identity).2

variable (F) in
/-- The last of so many failures reports that the identity is locked out; without one, the status does. -/
def LockedAfter (policy : LockoutPolicy) (attempts : Attempts) (now : ℤ) (identity : String) : ℕ → Prop
  | 0 => (status (F := F) policy attempts now identity).locked = true
  | n + 1 => Locks (F := F)
      (recordFailure policy (recordFailures F policy attempts now identity n) now identity).1

instance (policy : LockoutPolicy) (attempts : Attempts) (now : ℤ) (identity : String) :
    ∀ n, Decidable (LockedAfter F policy attempts now identity n)
  | 0 => inferInstanceAs (Decidable (_ = true))
  | _ + 1 => inferInstanceAs (Decidable (Locks _))

variable (F) in
/-- A status that reports a lock is borne out by a failure at the same moment; one that reports remaining
attempts, by a lock after so many failures, and not before. -/
def Agrees (policy : LockoutPolicy) (attempts : Attempts) (now : ℤ) (identity : String) : Prop :=
  if (status (F := F) policy attempts now identity).locked then LockedAfter F policy attempts now identity 1
  else ∃ n : ℕ, (n : ℤ) = (status (F := F) policy attempts now identity).remainingAttempts ∧
    LockedAfter F policy attempts now identity n ∧ ∀ m < n, ¬ LockedAfter F policy attempts now identity m

/-- A failure at this moment can be counted, and can be answered by a lock. -/
def Fits (policy : LockoutPolicy) (now : ℤ) : Prop :=
  (∃ window, policy.window = .ok window) ∧ ∃ lockEnd, policy.lockEnd now = .ok lockEnd

/-- The entry is one to go on with: a lock that holds, or fewer failures than lead to one, in a window that is
not over.  Where there is no entry, the first failure or the ones after it can lead to a lock. -/
def Current (policy : LockoutPolicy) (attempts : Attempts) (now : ℤ) (identity : String) : Prop :=
  match attempts.get identity with
  | none => 1 ≤ policy.maxFailedAttempts ∧ (policy.maxFailedAttempts = 1 ∨ 0 < policy.windowSeconds) ∧
      Fits policy now
  | some entry => (∃ lockedUntil, entry.lockAt now = some lockedUntil) ∨
      (now - entry.windowStart < policy.windowSeconds * 10 ^ 6 ∧ entry.failures < policy.maxFailedAttempts ∧
        Fits policy now)

/-! ### One failure -/

variable {policy : LockoutPolicy} {now : ℤ} {entry : Option AttemptWindow}

/-- The failures that one at this moment is counted with. -/
def seen (length now : ℤ) : Option AttemptWindow → ℕ
  | none => 0
  | some entry => if now - entry.windowStart < length then entry.failures else 0

/-- A failure at this moment is still in the window at the next one at the same moment. -/
def Grows (length now : ℤ) : Option AttemptWindow → Prop
  | none => 0 < length
  | some entry => now - entry.windowStart < length ∨ 0 < length

instance (length now : ℤ) (entry : Option AttemptWindow) : Decidable (Grows length now entry) := by
  unfold Grows
  split <;> infer_instance

/-- No lock holds at this moment. -/
def Unlocked (now : ℤ) (entry : Option AttemptWindow) : Prop := entry.bind (·.lockAt now) = none

lemma window_of_fits (h : Fits policy now) : policy.window = .ok (policy.windowSeconds * 10 ^ 6) := by
  obtain ⟨⟨window, hwindow⟩, -⟩ := h
  rw [hwindow, timedelta_eq_ok hwindow]

/-- The window that a failure is counted in: the running one, or one that begins now. -/
lemma exists_current (length : ℤ) (hunlocked : Unlocked now entry) :
    ∃ current : AttemptWindow, (entry.filter fun entry => now - entry.windowStart < length).getD
        { windowStart := now, failures := 0 } = current ∧
      current.failures = seen length now entry ∧ current.lockAt now = none ∧
      (now - current.windowStart < length ↔ Grows length now entry) := by
  cases entry with
  | none => exact ⟨_, rfl, rfl, rfl, by simp [Grows]⟩
  | some entry =>
    have hlock : entry.lockAt now = none := hunlocked
    by_cases hrunning : now - entry.windowStart < length
    · refine ⟨entry, ?_, (if_pos hrunning).symm, hlock, iff_of_true hrunning (Or.inl hrunning)⟩
      simp [Option.filter, hrunning]
    · refine ⟨{ windowStart := now, failures := 0 }, ?_, (if_neg hrunning).symm, rfl, ?_⟩
      · simp [Option.filter, hrunning]
      · simp [Grows, hrunning]

/-- **One failure** of an identity that is not locked out: it is one more in the window, and leads to a lock
if there are enough of them. -/
theorem fail_cases (hfits : Fits policy now) (hunlocked : Unlocked now entry) :
    ∃ (report : LockoutStatus F) (entry' : AttemptWindow), fail policy now entry = (.ok report, some entry') ∧
      (report.locked = true ↔
        policy.maxFailedAttempts ≤ (seen (policy.windowSeconds * 10 ^ 6) now entry + 1 : ℕ)) ∧
      entry'.failures = seen (policy.windowSeconds * 10 ^ 6) now entry + 1 ∧
      (now - entry'.windowStart < policy.windowSeconds * 10 ^ 6 ↔
        Grows (policy.windowSeconds * 10 ^ 6) now entry) := by
  have hwindow := window_of_fits hfits
  obtain ⟨-, lockEnd, hlockEnd⟩ := hfits
  obtain ⟨current, hcurrent, hfailures, -, hopen⟩ := exists_current (policy.windowSeconds * 10 ^ 6) hunlocked
  unfold Unlocked at hunlocked
  unfold fail
  simp only [hunlocked, hwindow, hcurrent, hlockEnd, hfailures]
  split_ifs with hlast
  · exact ⟨_, _, rfl, iff_of_true rfl hlast, rfl, hopen⟩
  · exact ⟨_, _, rfl, iff_of_false Bool.false_ne_true hlast, rfl, hopen⟩

/-- A failure that reports no lock leaves none. -/
lemma fail_unlocked (hunlocked : Unlocked now entry) (h : ¬ Locks (fail (F := F) policy now entry).1) :
    Unlocked now (fail (F := F) policy now entry).2 := by
  have hnone := hunlocked
  unfold Unlocked at hnone
  unfold fail at h ⊢
  simp only [hnone] at h ⊢
  cases hwindow : policy.window with
  | error e => exact hunlocked
  | ok window =>
    obtain ⟨current, hcurrent, -, hlock, -⟩ := exists_current window hunlocked
    simp only [hwindow, hcurrent] at h ⊢
    by_cases hlast : policy.maxFailedAttempts ≤ (current.failures + 1 : ℕ)
    · simp only [hlast, if_true] at h ⊢
      cases hlockEnd : policy.lockEnd now with
      | ok lockEnd => simp [hlockEnd, Locks] at h
      | error e =>
        dsimp only
        cases entry.filter fun entry => now - entry.windowStart < window with
        | none => exact hunlocked
        | some running => exact hlock
    · simp only [hlast, if_false]
      exact hlock

/-- A failure that reports a lock is answered by one. -/
lemma fits_of_locks (hunlocked : Unlocked now entry) (h : Locks (fail (F := F) policy now entry).1) :
    Fits policy now := by
  unfold Unlocked at hunlocked
  unfold fail at h
  simp only [hunlocked] at h
  cases hwindow : policy.window with
  | error e => simp [hwindow, Locks] at h
  | ok window =>
    refine ⟨⟨window, hwindow⟩, ?_⟩
    simp only [hwindow] at h
    split_ifs at h
    · cases hlockEnd : policy.lockEnd now with
      | ok lockEnd => exact ⟨lockEnd, rfl⟩
      | error e => simp [hlockEnd, Locks] at h
    · cases h

/-! ### Failures at one moment -/

variable {attempts : Attempts} {identity : String}

lemma recordFailure_fst : (recordFailure (F := F) policy attempts now identity).1 =
    (fail policy now (attempts.get identity)).1 := by
  unfold recordFailure
  dsimp only
  split <;> rfl

/-- A failure leaves the entry as it is, or writes one that has counted a failure. -/
lemma fail_snd (policy : LockoutPolicy) (now : ℤ) (entry : Option AttemptWindow) :
    (fail (F := F) policy now entry).2 = entry ∨
      ∃ entry', (fail (F := F) policy now entry).2 = some entry' ∧ 1 ≤ entry'.failures := by
  unfold fail
  split
  · exact Or.inl rfl
  · split
    · exact Or.inl rfl
    · rename_i window _
      dsimp only
      generalize entry.filter (fun entry => now - entry.windowStart < window) = running
      split_ifs
      · split
        · cases running with
          | none => exact Or.inl rfl
          | some running => exact Or.inr ⟨_, rfl, Nat.le_add_left 1 _⟩
        · exact Or.inr ⟨_, rfl, Nat.le_add_left 1 _⟩
      · exact Or.inr ⟨_, rfl, Nat.le_add_left 1 _⟩

/-- An entry that was there is still there. -/
lemma fail_eq_none (h : (fail (F := F) policy now entry).2 = none) : entry = none := by
  rcases fail_snd (F := F) policy now entry with hsame | ⟨entry', hwritten, -⟩
  · exact hsame.symm.trans h
  · rw [hwritten] at h
    cases h

lemma recordFailure_get : (recordFailure (F := F) policy attempts now identity).2.get identity =
    (fail (F := F) policy now (attempts.get identity)).2 := by
  unfold recordFailure
  dsimp only
  cases hentry : (fail (F := F) policy now (attempts.get identity)).2 with
  | none => exact fail_eq_none hentry
  | some entry => exact Dict.get_set_self ..

/-- While no lock is reported, none holds. -/
lemma unlocked_of_not_locked (hunlocked : Unlocked now (attempts.get identity)) {n : ℕ}
    (h : ∀ m < n, ¬ LockedAfter F policy attempts now identity (m + 1)) :
    Unlocked now ((recordFailures F policy attempts now identity n).get identity) := by
  induction n with
  | zero => exact hunlocked
  | succ n ih =>
    have hlast := h n (Nat.lt_succ_self n)
    rw [LockedAfter, recordFailure_fst] at hlast
    rw [recordFailures, recordFailure_get]
    exact fail_unlocked (ih fun m hm => h m (Nat.lt_succ_of_lt hm)) hlast

/-- How many failures one is counted with, after so many others at the same moment. -/
def counted (length now : ℤ) (entry : Option AttemptWindow) (n : ℕ) : ℕ :=
  if Grows length now entry then seen length now entry + n else 0

lemma counted_none (length now : ℤ) (n : ℕ) : counted length now none n = if 0 < length then n else 0 := by
  by_cases hpos : 0 < length <;> simp [counted, Grows, seen, hpos]

lemma counted_open {length now : ℤ} {entry : AttemptWindow} (hopen : now - entry.windowStart < length) (n : ℕ) :
    counted length now (some entry) n = entry.failures + n := by
  simp [counted, Grows, seen, hopen]

lemma counted_over {length now : ℤ} {entry : AttemptWindow} (hover : ¬ now - entry.windowStart < length) (n : ℕ) :
    counted length now (some entry) n = if 0 < length then n else 0 := by
  by_cases hpos : 0 < length <;> simp [counted, Grows, seen, hpos, hover]

/-- The failures before the first lock: each is counted with the ones before it. -/
lemma counted_recordFailures (hfits : Fits policy now) (hunlocked : Unlocked now (attempts.get identity)) {n : ℕ}
    (h : ∀ m < n, ¬ LockedAfter F policy attempts now identity (m + 1)) :
    (Grows (policy.windowSeconds * 10 ^ 6) now ((recordFailures F policy attempts now identity n).get identity) ↔
      Grows (policy.windowSeconds * 10 ^ 6) now (attempts.get identity)) ∧
    seen (policy.windowSeconds * 10 ^ 6) now ((recordFailures F policy attempts now identity n).get identity) =
      counted (policy.windowSeconds * 10 ^ 6) now (attempts.get identity) n := by
  generalize hlength : policy.windowSeconds * 10 ^ 6 = length
  induction n with
  | zero =>
    refine ⟨Iff.rfl, ?_⟩
    unfold counted
    split_ifs with hgrows
    · rfl
    · -- Where nothing is kept, nothing was there.
      cases hentry : attempts.get identity with
      | none => simp [recordFailures, hentry, seen]
      | some entry =>
        simp only [hentry, Grows, not_or] at hgrows
        simp [recordFailures, hentry, seen, hgrows.1]
  | succ n ih =>
    have hbefore : ∀ m < n, ¬ LockedAfter F policy attempts now identity (m + 1) :=
      fun m hm => h m (Nat.lt_succ_of_lt hm)
    obtain ⟨hgrows, hseen⟩ := ih hbefore
    obtain ⟨report, entry', hfail, -, hfailures, hopen⟩ :=
      fail_cases (F := F) hfits (unlocked_of_not_locked hunlocked hbefore)
    rw [hlength] at hfailures hopen
    rw [recordFailures, recordFailure_get, hfail]
    by_cases hg : Grows length now (attempts.get identity)
    · have hin : now - entry'.windowStart < length := hopen.mpr (hgrows.mpr hg)
      refine ⟨iff_of_true (Or.inl hin) hg, ?_⟩
      rw [seen, if_pos hin, hfailures, hseen]
      simp only [counted, hg, if_true]
      omega
    · have hout : ¬ now - entry'.windowStart < length := fun hin => hg (hgrows.mp (hopen.mp hin))
      have hlength' : ¬ 0 < length := by
        intro hpos
        refine hg ?_
        cases attempts.get identity with
        | none => exact hpos
        | some entry => exact Or.inr hpos
      refine ⟨iff_of_false (not_or.mpr ⟨hout, hlength'⟩) hg, ?_⟩
      simp only [seen, hout, counted, hg, if_false]

/-- **The first lock** comes with the first failure that is counted as one too many. -/
lemma lockedAfter_succ_iff (hfits : Fits policy now) (hunlocked : Unlocked now (attempts.get identity)) {n : ℕ}
    (h : ∀ m < n, ¬ LockedAfter F policy attempts now identity (m + 1)) :
    LockedAfter F policy attempts now identity (n + 1) ↔ policy.maxFailedAttempts ≤
      (counted (policy.windowSeconds * 10 ^ 6) now (attempts.get identity) n + 1 : ℕ) := by
  obtain ⟨-, hseen⟩ := counted_recordFailures hfits hunlocked h
  obtain ⟨report, entry', hfail, hlocked, -⟩ :=
    fail_cases (F := F) hfits (unlocked_of_not_locked hunlocked h)
  rw [LockedAfter, recordFailure_fst, hfail, ← hseen]
  exact hlocked

lemma status_of_unlocked (hunlocked : Unlocked now (attempts.get identity)) :
    (status (F := F) policy attempts now identity).locked = false := by
  unfold status
  cases hentry : attempts.get identity with
  | none => rfl
  | some entry =>
    have hlock : entry.lockAt now = none := by simpa [Unlocked, hentry] using hunlocked
    simp only [hlock]

/-- When the first lock comes. -/
lemma first_lock_iff (hunlocked : Unlocked now (attempts.get identity)) (n : ℕ) :
    (LockedAfter F policy attempts now identity (n + 1) ∧
        ∀ m < n + 1, ¬ LockedAfter F policy attempts now identity m) ↔
      Fits policy now ∧ policy.maxFailedAttempts ≤
          (counted (policy.windowSeconds * 10 ^ 6) now (attempts.get identity) n + 1 : ℕ) ∧
        ∀ m < n, (counted (policy.windowSeconds * 10 ^ 6) now (attempts.get identity) m + 1 : ℕ) <
          policy.maxFailedAttempts := by
  constructor
  · rintro ⟨hlock, hnot⟩
    have hbefore : ∀ m < n, ¬ LockedAfter F policy attempts now identity (m + 1) :=
      fun m hm => hnot (m + 1) (by omega)
    have hfits : Fits policy now := by
      have hreport := hlock
      rw [LockedAfter, recordFailure_fst] at hreport
      exact fits_of_locks (unlocked_of_not_locked hunlocked hbefore) hreport
    refine ⟨hfits, (lockedAfter_succ_iff hfits hunlocked hbefore).mp hlock, fun m hm => ?_⟩
    have hfirst : ∀ k < m, ¬ LockedAfter F policy attempts now identity (k + 1) :=
      fun k hk => hbefore k (by omega)
    exact not_le.mp (mt (lockedAfter_succ_iff hfits hunlocked hfirst).mpr (hbefore m hm))
  · rintro ⟨hfits, hlast, hfew⟩
    have hbefore : ∀ m ≤ n, ∀ k < m, ¬ LockedAfter F policy attempts now identity (k + 1) := by
      intro m hm
      induction m with
      | zero => exact fun k hk => absurd hk (Nat.not_lt_zero k)
      | succ m ih =>
        intro k hk
        rcases Nat.lt_succ_iff_lt_or_eq.mp hk with hk | rfl
        · exact ih (by omega) k hk
        · exact mt (lockedAfter_succ_iff hfits hunlocked (ih (by omega))).mp (not_le.mpr (hfew k (by omega)))
    refine ⟨(lockedAfter_succ_iff hfits hunlocked (hbefore n le_rfl)).mpr hlast, fun m hm => ?_⟩
    cases m with
    | zero =>
      rw [LockedAfter, status_of_unlocked hunlocked]
      exact Bool.false_ne_true
    | succ m => exact hbefore n le_rfl m (by omega)

/-! ### When a status is borne out -/

/-- A status that reports remaining attempts. -/
lemma agrees_of_unlocked (hunlocked : Unlocked now (attempts.get identity)) :
    Agrees F policy attempts now identity ↔ ∃ n : ℕ, (n + 1 : ℤ) =
        (status (F := F) policy attempts now identity).remainingAttempts ∧ Fits policy now ∧
      policy.maxFailedAttempts ≤
        (counted (policy.windowSeconds * 10 ^ 6) now (attempts.get identity) n + 1 : ℕ) ∧
      ∀ m < n, (counted (policy.windowSeconds * 10 ^ 6) now (attempts.get identity) m + 1 : ℕ) <
        policy.maxFailedAttempts := by
  have hnot : ¬ LockedAfter F policy attempts now identity 0 := by
    rw [LockedAfter, status_of_unlocked hunlocked]
    exact Bool.false_ne_true
  unfold Agrees
  rw [status_of_unlocked hunlocked, if_neg Bool.false_ne_true]
  constructor
  · rintro ⟨n, hn, hlock, hfirst⟩
    cases n with
    | zero => exact absurd hlock hnot
    | succ n => exact ⟨n, by simpa using hn, (first_lock_iff hunlocked n).mp ⟨hlock, hfirst⟩⟩
  · rintro ⟨n, hn, hcount⟩
    exact ⟨n + 1, by simpa using hn, (first_lock_iff hunlocked n).mpr hcount⟩

/-- **When a status is borne out**: iff the entry is current.  An entry that is stored has counted a failure. -/
theorem agrees_iff (hcounted : ∀ entry, attempts.get identity = some entry → 1 ≤ entry.failures) :
    Agrees F policy attempts now identity ↔ Current policy attempts now identity := by
  by_cases hunlocked : Unlocked now (attempts.get identity)
  · rw [agrees_of_unlocked hunlocked]
    unfold Current Unlocked at *
    cases hentry : attempts.get identity with
    | none =>
      simp only [status, hentry, counted_none]
      constructor
      · rintro ⟨n, hn, hfits, hlast, hfew⟩
        refine ⟨by omega, ?_, hfits⟩
        split_ifs at hlast <;> omega
      · rintro ⟨hpos, hgrows, hfits⟩
        refine ⟨(policy.maxFailedAttempts - 1).toNat, by omega, hfits, ?_, fun m hm => ?_⟩
        · split_ifs <;> omega
        · split_ifs <;> omega
    | some entry =>
      have hlock : entry.lockAt now = none := by simpa [hentry] using hunlocked
      have hfailures := hcounted entry hentry
      simp only [status, hentry, hlock]
      constructor
      · rintro ⟨n, hn, hfits, hlast, hfew⟩
        refine Or.inr ⟨?_, by omega, hfits⟩
        -- In a window that is over, it takes more failures than the ones that remain.
        by_contra hover
        rw [counted_over hover] at hlast
        split_ifs at hlast <;> omega
      · rintro (⟨lockedUntil, hsome⟩ | ⟨hopen, hfew, hfits⟩)
        · cases hsome
        · refine ⟨(policy.maxFailedAttempts - entry.failures - 1).toNat, by omega, hfits, ?_, fun m hm => ?_⟩
          · rw [counted_open hopen]
            omega
          · rw [counted_open hopen]
            omega
  · -- A lock that holds is what a failure reports.
    unfold Unlocked at hunlocked
    obtain ⟨lockedUntil, hlocked⟩ := Option.ne_none_iff_exists'.mp hunlocked
    obtain ⟨entry, hentry, hlock⟩ := Option.bind_eq_some_iff.mp hlocked
    have hstatus : (status (F := F) policy attempts now identity).locked = true := by
      simp only [status, hentry, hlock]
    have hfail : LockedAfter F policy attempts now identity 1 := by
      simp only [LockedAfter, recordFailures, recordFailure_fst, fail, hlocked, Locks]
    unfold Agrees Current
    rw [if_pos hstatus, hentry]
    exact iff_of_true hfail (Or.inl ⟨lockedUntil, hlock⟩)

/-! ### After any calls -/

/-- Every entry has counted a failure. -/
def Counted (attempts : Attempts) : Prop :=
  ∀ identity entry, attempts.get identity = some entry → 1 ≤ entry.failures

/-- An entry that is written has counted a failure. -/
lemma one_le_of_fail {entry' : AttemptWindow} (hentry : ∀ e, entry = some e → 1 ≤ e.failures)
    (h : (fail (F := F) policy now entry).2 = some entry') : 1 ≤ entry'.failures := by
  rcases fail_snd (F := F) policy now entry with hsame | ⟨written, hwritten, hcounted⟩
  · exact hentry entry' (hsame.symm.trans h)
  · obtain rfl := Option.some.inj (hwritten.symm.trans h)
    exact hcounted

/-- **The step lemma.** -/
lemma Counted.step (h : Counted attempts) (call : ℤ × Call) : Counted (step F policy attempts call) := by
  obtain ⟨now, call⟩ := call
  cases call with
  | recordFailure identity =>
    intro identity' entry hget
    simp only [BruteForce.step, recordFailure] at hget
    split at hget
    · exact h identity' entry hget
    · rename_i entry' hfail
      rw [Dict.get_set] at hget
      split at hget
      · obtain rfl := Option.some.inj hget
        exact one_le_of_fail (h identity) hfail
      · exact h identity' entry hget
  | recordSuccess identity => exact fun identity' entry hget => h identity' entry (Dict.get_of_get_pop hget)
  | status identity => exact h

lemma counted_after (calls : List (ℤ × Call)) : Counted (after F policy calls) :=
  run_inv calls (fun _ _ h => by cases h) fun _ call h => h.step call

variable (F) in
/-- **A status is borne out by what follows, exactly** when the entry of its identity is current: after any
calls, whenever they were made. -/
theorem status_agrees_iff (policy : LockoutPolicy) (calls : List (ℤ × Call)) (now : ℤ) (identity : String) :
    Agrees F policy (after F policy calls) now identity ↔
      Current policy (after F policy calls) now identity :=
  agrees_iff (counted_after calls identity)

/-- A login fails once. -/
def failedOnce : List (ℤ × Call) := [(738000 * dayMicros, .recordFailure "ip:login")]

/-- When the window is over, the status still counts the failure: four attempts remain, and the fourth
does not lead to a lock. -/
theorem window_over :
    ¬ Agrees ℚ {} (after ℚ {} failedOnce) (738000 * dayMicros + 300 * 10 ^ 6) "ip:login" := by
  unfold Agrees
  rw [if_neg (by decide +kernel)]
  rintro ⟨n, hn, hlock, -⟩
  have hremaining : (status (F := ℚ) {} (after ℚ {} failedOnce) (738000 * dayMicros + 300 * 10 ^ 6)
      "ip:login").remainingAttempts = 4 := by decide +kernel
  obtain rfl : n = 4 := by omega
  revert hlock
  decide +kernel

end Agreement

end Tmis.Platform.BruteForce
