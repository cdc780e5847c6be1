import Tmis.Lib.Calls
import Tmis.Lib.Dict
import Tmis.Lib.Run
import Tmis.Lib.Timedelta

/-!
# Edit locks

`collaboration.presence.locking`: a lock of a target lets others see that somebody edits it.  A lock that has expired
is only taken out when it is looked at.

* `current`, `acquire`, `release` — `InMemoryOptimisticLockService`;
* `LockCall`, `onLock` — a call, and what it does to the lock of its target; `perform_eq`, it does nothing else;
* `onLock_keeps` — a holder loses a lock by releasing it or by its expiry;
* `edit_lock_exclusion` — and so it is in every run of calls.
-/

namespace Tmis.Collaboration

open Tmis.Lib

/-- Moments are counted in microseconds. -/
structure OptimisticLock where
  targetType : String
  targetId : String
  lockedBy : String
  acquiredAt : ℤ
  expiresAt : Option ℤ
  deriving DecidableEq

/-- A type and an id. -/
abbrev LockTarget := String × String

abbrev Locks := Dict LockTarget OptimisticLock

/-- `lock.expires_at is not None and lock.expires_at < now`. -/
def OptimisticLock.expired (lock : OptimisticLock) (now : ℤ) : Bool :=
  match lock.expiresAt with
  | some moment => moment < now
  | none => false

namespace InMemoryOptimisticLockService

/-- `current`: a lock that has expired is deleted. -/
def current (now : ℤ) (target : LockTarget) (locks : Locks) : Option OptimisticLock × Locks :=
  match locks.get target with
  | none => (none, locks)
  | some lock => if lock.expired now then (none, locks.pop target) else (some lock, locks)

/-- `now + timedelta(seconds=ttl_seconds) if ttl_seconds is not None else None`. -/
def expiry (now : ℤ) (ttlSeconds : Option ℤ) : Except PyException (Option ℤ) :=
  match ttlSeconds with
  | none => .ok none
  | some ttl => do
    let delta ← timedelta (ttl * 10 ^ 6)
    let moment ← addTimedelta now delta
    return some moment

def newLock (now : ℤ) (target : LockTarget) (memberId : String) (expiresAt : Option ℤ) : OptimisticLock where
  targetType := target.1
  targetId := target.2
  lockedBy := memberId
  acquiredAt := now
  expiresAt

def alreadyLocked (target : LockTarget) (lock : OptimisticLock) : PyException :=
  valueError (target.1 ++ ":" ++ target.2 ++ " is already locked by " ++ pyRepr lock.lockedBy)

/-- `acquire`; the clock is read in `current`, and once more for the new lock. -/
def acquire (checked now : ℤ) (target : LockTarget) (memberId : String) (ttlSeconds : Option ℤ) (locks : Locks) :
    Except PyException OptimisticLock × Locks :=
  let (existing, locks) := current checked target locks
  match existing.filter fun lock => lock.lockedBy ≠ memberId with
  | some lock => (.error (alreadyLocked target lock), locks)
  | none =>
    match expiry now ttlSeconds with
    | .error e => (.error e, locks)
    | .ok expiresAt =>
      (.ok (newLock now target memberId expiresAt), locks.set target (newLock now target memberId expiresAt))

def notLockedBy (target : LockTarget) (memberId : String) (lock : OptimisticLock) : PyException :=
  valueError (target.1 ++ ":" ++ target.2 ++ " is locked by " ++ pyRepr lock.lockedBy ++ ", not " ++ pyRepr memberId)

/-- `release`: a lock that has expired is released like any other. -/
def release (target : LockTarget) (memberId : String) (locks : Locks) : Except PyException Unit × Locks :=
  match locks.get target with
  | none => (.ok (), locks)
  | some lock =>
    if lock.lockedBy ≠ memberId then (.error (notLockedBy target memberId lock), locks)
    else (.ok (), locks.pop target)

end InMemoryOptimisticLockService

/-! ### Calls -/

/-- The calls of the service, with the readings of the clock. -/
inductive LockCall where
  | current (target : LockTarget) (now : ℤ)
  | acquire (target : LockTarget) (memberId : String) (ttlSeconds : Option ℤ) (checked now : ℤ)
  | release (target : LockTarget) (memberId : String)
  deriving DecidableEq

namespace LockCall

open InMemoryOptimisticLockService

def target : LockCall → LockTarget
  | current target _ => target
  | acquire target _ _ _ _ => target
  | release target _ => target

/-- The readings of the clock, one after the other. -/
def times : LockCall → List ℤ
  | current _ now => [now]
  | acquire _ _ _ checked now => [checked, now]
  | release _ _ => []

/-- A call returns a lock, or none, or raises. -/
abbrev Outcome := Except PyException (Option OptimisticLock)

def perform (locks : Locks) : LockCall → Outcome × Locks
  | current target now => ((InMemoryOptimisticLockService.current now target locks).map Except.ok id)
  | acquire target memberId ttl checked now =>
    (InMemoryOptimisticLockService.acquire checked now target memberId ttl locks).map (Except.map some) id
  | release target memberId => (InMemoryOptimisticLockService.release target memberId locks).map (Except.map fun _ => none) id

/-- The locks after a call. -/
def step (locks : Locks) (call : LockCall) : Locks := (perform locks call).2

/-- What a call does to the lock of its target. -/
def onLock (lock : Option OptimisticLock) : LockCall → Outcome × Option OptimisticLock
  | current _ now =>
    let live := lock.filter fun lock => !lock.expired now
    (.ok live, live)
  | acquire target memberId ttl checked now =>
    let live := lock.filter fun lock => !lock.expired checked
    match live.filter fun lock => lock.lockedBy ≠ memberId with
    | some lock => (.error (alreadyLocked target lock), live)
    | none =>
      match expiry now ttl with
      | .error e => (.error e, live)
      | .ok expiresAt => (.ok (some (newLock now target memberId expiresAt)), some (newLock now target memberId expiresAt))
  | release target memberId =>
    match lock with
    | none => (.ok none, none)
    | some lock =>
      if lock.lockedBy ≠ memberId then (.error (notLockedBy target memberId lock), some lock) else (.ok none, none)

/-! ### A target at a time -/

section Targets

variable {locks locks' : Locks} {call : LockCall}

/-- Locks that stay as they are, seen at a target and at the others. -/
lemma get_eq_ite {target : LockTarget} {lock : Option OptimisticLock} (h : locks.get target = lock)
    (other : LockTarget) : locks.get other = if other = target then lock else locks.get other := by
  split_ifs with hother
  · rw [hother, h]
  · rfl

lemma current_eq (now : ℤ) (target : LockTarget) (locks : Locks) :
    (InMemoryOptimisticLockService.current now target locks).1 =
        (locks.get target).filter (fun lock => !lock.expired now) ∧
      ∀ other, (InMemoryOptimisticLockService.current now target locks).2.get other =
        if other = target then (locks.get target).filter (fun lock => !lock.expired now) else locks.get other := by
  unfold InMemoryOptimisticLockService.current
  cases hget : locks.get target with
  | none => exact ⟨rfl, get_eq_ite hget⟩
  | some lock =>
    dsimp only
    by_cases hexpired : lock.expired now = true
    · have hlive : (some lock).filter (fun lock => !lock.expired now) = none := by
        simp [hexpired]
      rw [if_pos hexpired, hlive]
      exact ⟨rfl, Dict.get_pop locks target⟩
    · have hlive : (some lock).filter (fun lock => !lock.expired now) = some lock := by
        simp [hexpired]
      rw [if_neg hexpired, hlive]
      exact ⟨rfl, get_eq_ite hget⟩

/-- **A call is one on the lock of its target**, and leaves the other locks. -/
theorem perform_eq (locks : Locks) (call : LockCall) :
    (perform locks call).1 = (onLock (locks.get call.target) call).1 ∧
      ∀ other, (step locks call).get other =
        if other = call.target then (onLock (locks.get call.target) call).2 else locks.get other := by
  cases call with
  | current target now =>
    obtain ⟨hlock, hlocks⟩ := current_eq now target locks
    exact ⟨congrArg Except.ok hlock, hlocks⟩
  | acquire target memberId ttl checked now =>
    obtain ⟨hlock, hlocks⟩ := current_eq checked target locks
    simp only [step, perform, onLock, LockCall.target, InMemoryOptimisticLockService.acquire, hlock]
    split
    · exact ⟨rfl, hlocks⟩
    · split
      · exact ⟨rfl, hlocks⟩
      · refine ⟨rfl, fun other => ?_⟩
        dsimp only [Prod.map_snd, id]
        rw [Dict.get_set, hlocks]
        by_cases hother : other = target <;> simp only [hother, if_true, if_false]
  | release target memberId =>
    simp only [step, perform, onLock, LockCall.target, InMemoryOptimisticLockService.release]
    cases hget : locks.get target with
    | none => exact ⟨rfl, get_eq_ite hget⟩
    | some lock =>
      dsimp only
      split_ifs with hmember
      · exact ⟨rfl, get_eq_ite hget⟩
      · exact ⟨rfl, Dict.get_pop locks target⟩

/-- Calls on other targets leave a lock as it is. -/
lemma get_step_of_ne {target : LockTarget} (h : call.target ≠ target) :
    (step locks call).get target = locks.get target := by
  rw [(perform_eq locks call).2, if_neg h.symm]

lemma get_step (locks : Locks) (call : LockCall) :
    (step locks call).get call.target = (onLock (locks.get call.target) call).2 := by
  rw [(perform_eq locks call).2, if_pos rfl]

/-- **Targets do not meet**: the lock of a target is that after the calls on it. -/
theorem get_run_filter (calls : List LockCall) (target : LockTarget) :
    (run step ∅ calls).get target = (run step ∅ (calls.filter fun call => call.target = target)).get target := by
  induction calls using List.reverseRecOn with
  | nil => rfl
  | append_singleton calls call ih =>
    rw [run_snoc, List.filter_append]
    by_cases h : call.target = target
    · subst h
      have hcall : [call].filter (fun c => c.target = call.target) = [call] := by simp
      rw [hcall, run_snoc, get_step, get_step, ih]
    · have hcall : [call].filter (fun c => c.target = target) = [] := by simp [h]
      rw [hcall, List.append_nil, get_step_of_ne h, ih]

end Targets

/-! ### What ends a lock -/

/-- The call releases the lock, or looks at it after its expiry. -/
def Ends (target : LockTarget) (lock : OptimisticLock) (call : LockCall) : Prop :=
  call = .release target lock.lockedBy ∨ ∃ moment t, lock.expiresAt = some moment ∧ call.times.head? = some t ∧ moment < t

lemma of_expired {lock : OptimisticLock} {now : ℤ} (h : lock.expired now = true) :
    ∃ moment, lock.expiresAt = some moment ∧ moment < now := by
  unfold OptimisticLock.expired at h
  split at h
  · rename_i moment hmoment
    exact ⟨moment, hmoment, of_decide_eq_true h⟩
  · cases h

/-- What is left of a lock when it is looked at. -/
lemma live_cases (lock : Option OptimisticLock) (now : ℤ) :
    lock.filter (fun lock => !lock.expired now) = lock ∨
      (lock.filter (fun lock => !lock.expired now) = none ∧
        ∃ expired, lock = some expired ∧ expired.expired now = true) := by
  cases lock with
  | none => exact Or.inl rfl
  | some lock =>
    cases h : lock.expired now with
    | true => exact Or.inr ⟨by simp [h], lock, rfl, h⟩
    | false => exact Or.inl (by simp [h])

/-- What an acquisition can do: another member holds the lock, or the new one overflows, or is there. -/
lemma acquire_cases (lock : Option OptimisticLock) (target : LockTarget) (memberId : String) (ttl : Option ℤ)
    (checked now : ℤ) {live : Option OptimisticLock} (hlive : lock.filter (fun lock => !lock.expired checked) = live) :
    (∃ holder, live = some holder ∧ holder.lockedBy ≠ memberId ∧
      onLock lock (.acquire target memberId ttl checked now) = (.error (alreadyLocked target holder), live)) ∨
    (∃ e, expiry now ttl = .error e ∧ onLock lock (.acquire target memberId ttl checked now) = (.error e, live)) ∨
    ∃ expiresAt, expiry now ttl = .ok expiresAt ∧ (∀ holder, live = some holder → holder.lockedBy = memberId) ∧
      onLock lock (.acquire target memberId ttl checked now) =
        (.ok (some (newLock now target memberId expiresAt)), some (newLock now target memberId expiresAt)) := by
  cases hholder : live.filter fun lock => lock.lockedBy ≠ memberId with
  | some holder =>
    obtain ⟨hsome, hne⟩ := Option.filter_eq_some_iff.mp hholder
    refine Or.inl ⟨holder, hsome, of_decide_eq_true hne, ?_⟩
    simp only [onLock, hlive, hholder]
  | none =>
    cases hexpiry : expiry now ttl with
    | error e =>
      refine Or.inr (Or.inl ⟨e, rfl, ?_⟩)
      simp only [onLock, hlive, hholder, hexpiry]
    | ok expiresAt =>
      refine Or.inr (Or.inr ⟨expiresAt, rfl, fun holder hsome => ?_, ?_⟩)
      · by_contra hne
        exact Option.filter_eq_none_iff.mp hholder holder hsome (decide_eq_true hne)
      · simp only [onLock, hlive, hholder, hexpiry]

/-- **A holder keeps a lock** until it is released, or looked at after its expiry. -/
theorem onLock_keeps (lock : OptimisticLock) (call : LockCall) :
    (∃ lock', (onLock (some lock) call).2 = some lock' ∧ lock'.lockedBy = lock.lockedBy) ∨
      Ends call.target lock call := by
  have hends : ∀ now, call.times.head? = some now →
      (∃ expired, some lock = some expired ∧ expired.expired now = true) → Ends call.target lock call := by
    rintro now hnow ⟨expired, hsome, hexpired⟩
    obtain rfl := Option.some.inj hsome
    obtain ⟨moment, hmoment, hlt⟩ := of_expired hexpired
    exact Or.inr ⟨moment, now, hmoment, hnow, hlt⟩
  cases call with
  | current target now =>
    rcases live_cases (some lock) now with hlive | ⟨-, hexpired⟩
    · exact Or.inl ⟨lock, hlive, rfl⟩
    · exact Or.inr (hends now rfl hexpired)
  | acquire target memberId ttl checked now =>
    rcases live_cases (some lock) checked with hlive | ⟨-, hexpired⟩
    · left
      obtain ⟨holder, -, -, heq⟩ | ⟨e, -, heq⟩ | ⟨expiresAt, -, hholder, heq⟩ :=
        acquire_cases (some lock) target memberId ttl checked now hlive
      · exact ⟨lock, by rw [heq], rfl⟩
      · exact ⟨lock, by rw [heq], rfl⟩
      · exact ⟨_, by rw [heq], (hholder lock rfl).symm⟩
    · exact Or.inr (hends checked rfl hexpired)
  | release target memberId =>
    by_cases hmember : lock.lockedBy = memberId
    · subst hmember
      exact Or.inr (Or.inl rfl)
    · exact Or.inl ⟨lock, by simp [onLock, hmember], rfl⟩

/-- A moment that cannot be represented overflows. -/
lemma expiry_error {now : ℤ} {ttl : Option ℤ} {e : PyException} (h : expiry now ttl = .error e) :
    e.className = "OverflowError" := by
  cases ttl with
  | none => cases h
  | some ttl =>
    obtain h | ⟨delta, -, h⟩ := bind_eq_error.mp h
    · unfold timedelta at h
      dsimp only at h
      split_ifs at h <;> cases h <;> rfl
    · obtain h | ⟨moment, -, h⟩ := bind_eq_error.mp h
      · unfold addTimedelta at h
        dsimp only at h
        split_ifs at h
        cases h
        rfl
      · cases h

/-- **A call that raises leaves the lock**, unless it overflows: then it may have taken out one that had expired. -/
theorem onLock_error {lock : Option OptimisticLock} {call : LockCall} {e : PyException}
    (h : (onLock lock call).1 = .error e) :
    (onLock lock call).2 = lock ∨ (e.className = "OverflowError" ∧
      ∃ expired t, lock = some expired ∧ call.times.head? = some t ∧ expired.expired t = true) := by
  cases call with
  | current target now => cases h
  | acquire target memberId ttl checked now =>
    obtain ⟨holder, hsome, -, heq⟩ | ⟨e', hexpiry, heq⟩ | ⟨expiresAt, -, -, heq⟩ :=
      acquire_cases lock target memberId ttl checked now rfl
    · left
      rw [heq, hsome]
      exact (Option.filter_eq_some_iff.mp hsome).1.symm
    · rw [heq] at h ⊢
      cases h
      rcases live_cases lock checked with hlive | ⟨-, expired, hsome, hexpired⟩
      · exact Or.inl hlive
      · exact Or.inr ⟨expiry_error hexpiry, expired, checked, hsome, rfl, hexpired⟩
    · rw [heq] at h
      cases h
  | release target memberId =>
    left
    cases lock with
    | none => rfl
    | some lock =>
      by_cases hmember : lock.lockedBy = memberId
      · simp [onLock, hmember] at h
      · simp [onLock, hmember]

/-! ### Runs -/

/-- A holder keeps a lock in a run, or some call of it ends the lock. -/
lemma holder_kept (calls : List LockCall) {locks : Locks} {target : LockTarget} {lock : OptimisticLock}
    (h : locks.get target = some lock) :
    (∃ lock', (run step locks calls).get target = some lock' ∧ lock'.lockedBy = lock.lockedBy) ∨
      ∃ before call after last, calls = before ++ call :: after ∧
        (run step locks before).get target = some last ∧ last.lockedBy = lock.lockedBy ∧ Ends target last call := by
  induction calls generalizing locks lock with
  | nil => exact Or.inl ⟨lock, h, rfl⟩
  | cons call calls ih =>
    have hstep : (∃ lock', (step locks call).get target = some lock' ∧ lock'.lockedBy = lock.lockedBy) ∨
        Ends target lock call := by
      by_cases hcall : call.target = target
      · subst hcall
        rw [get_step, h]
        exact onLock_keeps lock call
      · exact Or.inl ⟨lock, (get_step_of_ne hcall).trans h, rfl⟩
    rcases hstep with ⟨lock₁, hlock₁, hmember₁⟩ | hends
    · rcases ih hlock₁ with ⟨lock₂, hlock₂, hmember₂⟩ | ⟨before, last, after, lock₂, rfl, hlast, hmember₂, hends⟩
      · exact Or.inl ⟨lock₂, hlock₂, hmember₂.trans hmember₁⟩
      · exact Or.inr ⟨call :: before, last, after, lock₂, rfl, hlast, hmember₂.trans hmember₁, hends⟩
    · exact Or.inr ⟨[], call, calls, lock, rfl, h, rfl, hends⟩

/-- **Locks exclude each other**, in every run of calls at moments that do not go back: a member who holds a target
loses it by releasing it or by its expiry; a call that raises leaves every lock, unless it overflows, which may take
out the lock of its own target if that has expired; a holder can renew for any time that can be represented; and what
happens at a target depends on the calls on this target only. -/
theorem edit_lock_exclusion (calls : List LockCall) (htimes : (calls.flatMap times).Pairwise (· ≤ ·)) :
    (∀ before after target lock lock', calls = before ++ after →
      (run step ∅ before).get target = some lock → (run step ∅ calls).get target = some lock' →
      lock'.lockedBy ≠ lock.lockedBy →
      ∃ mid call rest last, after = mid ++ call :: rest ∧ (run step ∅ (before ++ mid)).get target = some last ∧
        last.lockedBy = lock.lockedBy ∧ (call = .release target lock.lockedBy ∨
          ∃ moment, last.expiresAt = some moment ∧ ∀ t ∈ (call :: rest).flatMap times, moment < t)) ∧
    (∀ call e, (perform (run step ∅ calls) call).1 = .error e → ∀ target,
      (step (run step ∅ calls) call).get target = (run step ∅ calls).get target ∨
        (e.className = "OverflowError" ∧ target = call.target ∧ ∃ expired t,
          (run step ∅ calls).get target = some expired ∧ call.times.head? = some t ∧ expired.expired t = true)) ∧
    (∀ target lock ttl checked now expiresAt, (run step ∅ calls).get target = some lock →
      expiry now ttl = .ok expiresAt →
      (perform (run step ∅ calls) (.acquire target lock.lockedBy ttl checked now)).1 =
          .ok (some (newLock now target lock.lockedBy expiresAt)) ∧
        (step (run step ∅ calls) (.acquire target lock.lockedBy ttl checked now)).get target =
          some (newLock now target lock.lockedBy expiresAt)) ∧
    ∀ target, (run step ∅ calls).get target = (run step ∅ (calls.filter fun call => call.target = target)).get target ∧
      ∀ call, call.target = target → (perform (run step ∅ calls) call).1 =
        (perform (run step ∅ (calls.filter fun call => call.target = target)) call).1 := by
  refine ⟨?_, ?_, ?_, fun target => ⟨get_run_filter calls target, ?_⟩⟩
  · rintro before after target lock lock' rfl hlock hlock' hne
    rw [run_append] at hlock'
    rcases holder_kept after hlock with ⟨kept, hkept, hmember⟩ | ⟨mid, call, rest, last, rfl, hlast, hmember, hends⟩
    · rw [hlock'] at hkept
      exact absurd ((Option.some.inj hkept) ▸ hmember) hne
    · rw [← run_append] at hlast
      refine ⟨mid, call, rest, last, rfl, hlast, hmember, ?_⟩
      rcases hends with hrelease | ⟨moment, t, hmoment, ht, hlt⟩
      · exact Or.inl (hmember ▸ hrelease)
      · -- The moments from this call on are not before its first one.
        refine Or.inr ⟨moment, hmoment, fun t' ht' => ?_⟩
        rw [List.flatMap_append, List.flatMap_append] at htimes
        have hlater := (List.pairwise_append.mp (List.pairwise_append.mp htimes).2.1).2.1
        obtain ⟨ts, hts⟩ := List.head?_eq_some_iff.mp ht
        rw [List.flatMap_cons, hts] at hlater ht'
        rcases List.mem_cons.mp ht' with rfl | ht'
        · exact hlt
        · exact hlt.trans_le ((List.pairwise_cons.mp hlater).1 t' ht')
  · intro call e herror target
    rw [(perform_eq _ call).1] at herror
    by_cases htarget : target = call.target
    · subst htarget
      rw [get_step]
      rcases onLock_error herror with hkept | ⟨hclass, expired, t, hexpired⟩
      · exact Or.inl hkept
      · exact Or.inr ⟨hclass, rfl, expired, t, hexpired⟩
    · exact Or.inl (get_step_of_ne (Ne.symm htarget))
  · intro target lock ttl checked now expiresAt hlock hexpiry
    have hcall := perform_eq (run step ∅ calls) (.acquire target lock.lockedBy ttl checked now)
    have hacquired : onLock (some lock) (.acquire target lock.lockedBy ttl checked now) =
        (.ok (some (newLock now target lock.lockedBy expiresAt)),
          some (newLock now target lock.lockedBy expiresAt)) := by
      obtain ⟨holder, hsome, hne, -⟩ | ⟨e, herror, -⟩ | ⟨expiresAt', hok, -, heq⟩ :=
        acquire_cases (some lock) target lock.lockedBy ttl checked now rfl
      · have hholder := (Option.filter_eq_some_iff.mp hsome).1
        exact absurd (congrArg OptimisticLock.lockedBy (Option.some.inj hholder)).symm hne
      · rw [hexpiry] at herror
        cases herror
      · rw [hexpiry] at hok
        obtain rfl := Except.ok.inj hok
        exact heq
    rw [LockCall.target, hlock, hacquired] at hcall
    exact ⟨hcall.1, (hcall.2 target).trans (if_pos rfl)⟩
  · rintro call rfl
    rw [(perform_eq _ call).1, (perform_eq _ call).1, get_run_filter]

/-- A member takes a lock that another one has held until its expiry. -/
theorem edit_lock_exclusion_two :
    ∃ mid call rest last,
      [LockCall.acquire ("document", "doc-1") "m2" none (739001 * dayMicros) (739001 * dayMicros)] = mid ++ call :: rest ∧
        (run step ∅ ([.acquire ("document", "doc-1") "m1" (some 1) (739000 * dayMicros) (739000 * dayMicros)] ++ mid)).get
          ("document", "doc-1") = some last ∧
        last.lockedBy = "m1" ∧ (call = .release ("document", "doc-1") "m1" ∨
          ∃ moment, last.expiresAt = some moment ∧ ∀ t ∈ (call :: rest).flatMap times, moment < t) :=
  (edit_lock_exclusion [.acquire ("document", "doc-1") "m1" (some 1) (739000 * dayMicros) (739000 * dayMicros),
    .acquire ("document", "doc-1") "m2" none (739001 * dayMicros) (739001 * dayMicros)] (by decide +kernel)).1
    [.acquire ("document", "doc-1") "m1" (some 1) (739000 * dayMicros) (739000 * dayMicros)] _ _
    (newLock (739000 * dayMicros) ("document", "doc-1") "m1" (some (739000 * dayMicros + 10 ^ 6)))
    (newLock (739001 * dayMicros) ("document", "doc-1") "m2" none) rfl (by decide +kernel) (by decide +kernel)
    (by decide)

/-- A holder renews a lock that has expired, for longer than there are years: the call raises, and the lock is gone. -/
theorem overflowing_renewal :
    ∃ calls call lock e, (calls.flatMap times ++ call.times).Pairwise (· ≤ ·) ∧
      call = .acquire ("document", "doc-1") "m1" (some (10 ^ 12)) (739001 * dayMicros) (739001 * dayMicros) ∧
      (run step ∅ calls).get call.target = some lock ∧ lock.lockedBy = "m1" ∧
      (perform (run step ∅ calls) call).1 = .error e ∧ (step (run step ∅ calls) call).get call.target = none :=
  ⟨[.acquire ("document", "doc-1") "m1" (some 1) (739000 * dayMicros) (739000 * dayMicros)], _,
    newLock (739000 * dayMicros) ("document", "doc-1") "m1" (some (739000 * dayMicros + 10 ^ 6)),
    overflowError "date value out of range", by decide +kernel, rfl, by decide +kernel, rfl, by decide +kernel,
    by decide +kernel⟩

end LockCall

end Tmis.Collaboration
