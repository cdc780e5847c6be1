import Tmis.Lib.Calls
import Tmis.Lib.Dict
import Tmis.Lib.CallWindows
import Tmis.Lib.PyFloat
import Tmis.Lib.Timedelta

/-!
# Rate limiting

`platform.rate_limiting` and `cabinet_os.public_api`: in each window, an identity may make so many calls.
The two limiters differ in the length of the window and in the defaults of their policies.

* `check` — what both limiters do, at a moment that the clock gives;
* `InMemoryRateLimiter.check`, `PublicApi.InMemoryRateLimiter.check` — the two of them;
* `answers`, `callsOf` — the answers given to calls, and the calls of one identity;
* `RateBounded` — what is let through is bounded, and identities do not see each other;
* `rate_bounded` — it is so for both limiters, whatever their policies are.
-/

namespace Tmis.Platform.RateLimiting

open Tmis.Lib
open Tmis.Lib.FixedWindow (Call Counter Counts windowsOf countIn enter)

/-- `RateLimitResult`, the same in both modules. -/
structure RateLimitResult (F : Type) where
  allowed : Bool
  remaining : ℤ
  retryAfterSeconds : F
  limit : ℤ

/-- When the window of an identity began, and how many calls it has made since. -/
abbrev Windows := Dict String (ℤ × ℕ)

/-- A limiter with a policy: what it answers to the call of an identity at a moment. -/
abbrev Limiter (F : Type) := Windows → ℤ → String → Except PyException (RateLimitResult F) × Windows

section Limiters

variable {F : Type} [PyFloat F]

open PyFloat (ofRat)

/-- The end of `check`: what is answered when the window has seen so many calls. -/
def answer (window limit now windowStart : ℤ) (count : ℕ) : Except PyException (RateLimitResult F) :=
  if limit < count then
    (addTimedelta windowStart window).map fun windowEnd =>
      { allowed := false
        remaining := 0
        retryAfterSeconds := PyFloat.max (ofRat 0) (ofRat ((windowEnd - now) / 10 ^ 6))
        limit }
  else .ok { allowed := true, remaining := limit - count, retryAfterSeconds := ofRat 0, limit }

/-- `check`, with the length of the window and the limit. -/
def check (window : Except PyException ℤ) (limit : ℤ) : Limiter F := fun windows now identity =>
  match window with
  | .error e => (.error e, windows)
  | .ok window =>
    let (windowStart, count) := (windows.get identity).getD (now, 0)
    let (windowStart, count) := if window ≤ now - windowStart then (now, 0) else (windowStart, count)
    let count := count + 1
    (answer window limit now windowStart count, windows.set identity (windowStart, count))

/-- `platform.rate_limiting.schemas`. -/
structure RateLimitPolicy where
  requestsPerWindow : ℤ := 60
  windowSeconds : ℤ := 60
  burst : ℤ := 0

/-- `platform.rate_limiting.limiter`. -/
def InMemoryRateLimiter.check (policy : RateLimitPolicy) : Limiter F :=
  RateLimiting.check (timedelta (policy.windowSeconds * 10 ^ 6)) (policy.requestsPerWindow + policy.burst)

namespace PublicApi

/-- `cabinet_os.public_api.schemas`. -/
structure RateLimitPolicy where
  requestsPerMinute : ℤ := 60
  burst : ℤ := 10

/-- `_WINDOW`. -/
def window : Except PyException ℤ := timedelta (60 * 10 ^ 6)

/-- `cabinet_os.public_api.rate_limiter`. -/
def InMemoryRateLimiter.check (policy : RateLimitPolicy) : Limiter F :=
  RateLimiting.check window (policy.requestsPerMinute + policy.burst)

end PublicApi

end Limiters

/-! ### Runs -/

variable {F : Type}

/-- A call is let through if it is answered, and allowed. -/
def allows : Except PyException (RateLimitResult F) → Bool
  | .ok result => result.allowed
  | .error _ => false

/-- The answer to a call. -/
structure Answer (F : Type) where
  time : ℤ
  identity : String
  result : Except PyException (RateLimitResult F)

/-- The answers to calls, each at its moment. -/
def answers (limiter : Limiter F) : Windows → List (ℤ × String) → List (Answer F)
  | _, [] => []
  | windows, (now, identity) :: calls =>
      ⟨now, identity, (limiter windows now identity).1⟩ ::
        answers limiter (limiter windows now identity).2 calls

/-- The windows after calls. -/
def after (limiter : Limiter F) (windows : Windows) (calls : List (ℤ × String)) : Windows :=
  calls.foldl (fun windows call => (limiter windows call.1 call.2).2) windows

/-- The calls of an identity. -/
def callsOf (identity : String) (answers : List (Answer F)) : List Call :=
  (answers.filter (·.identity = identity)).map fun answer => ⟨answer.time, allows answer.result⟩

/-- The bounds, for windows of this length and this limit. -/
structure RateBounded (limiter : Limiter F) (length limit : ℤ) : Prop where
  /-- In each window of an identity, no more calls are let through than the limit says. -/
  inWindow : ∀ calls identity, ∀ window ∈ windowsOf length (callsOf identity (answers limiter ∅ calls)),
    window.allowed ≤ limit.toNat
  /-- In any interval of this length, no more than twice as many. -/
  inInterval : ∀ calls, (calls.map Prod.fst).Pairwise (· ≤ ·) → ∀ identity start,
    (callsOf identity (answers limiter ∅ calls)).countP
      (fun call => call.allowed ∧ start ≤ call.time ∧ call.time < start + length) ≤ 2 * limit.toNat
  /-- Even with both of its ends. -/
  inClosed : 0 < length → ∀ calls, (calls.map Prod.fst).Pairwise (· ≤ ·) → ∀ identity start,
    countIn (callsOf identity (answers limiter ∅ calls)) start (start + length) ≤ 2 * limit.toNat
  /-- A call that is not let through leaves the window as it is, if it is open or calls can be let through at
  all, and later calls are let through as if it had not been made. -/
  denied : ∀ calls now identity, allows (limiter (after limiter ∅ calls) now identity).1 = false →
    (∀ windowStart count, (after limiter ∅ calls).get identity = some (windowStart, count) →
      now - windowStart < length ∨ 0 < limit →
      ((after limiter ∅ (calls ++ [(now, identity)])).get identity).map Prod.fst = some windowStart) ∧
    ∀ later, (answers limiter (after limiter ∅ (calls ++ [(now, identity)])) later).map
        (fun answer => allows answer.result) =
      (answers limiter (after limiter ∅ calls) later).map fun answer => allows answer.result
  /-- The answers to an identity are those that it would be given alone. -/
  independent : ∀ calls identity, (answers limiter ∅ calls).filter (·.identity = identity) =
    answers limiter ∅ (calls.filter (·.2 = identity))

variable {length limit : ℤ}

/-! ### The calls of an identity -/

/-- The moments of the calls of an identity are in the order in which they were made. -/
lemma times_callsOf (limiter : Limiter F) (identity : String) : ∀ (calls : List (ℤ × String)) (windows : Windows),
    (callsOf identity (answers limiter windows calls)).map Call.time =
      (calls.filter (·.2 = identity)).map Prod.fst
  | [], _ => rfl
  | (now, identity') :: calls, windows => by
      have ih := times_callsOf limiter identity calls (limiter windows now identity').2
      by_cases heq : identity' = identity
      · simpa [answers, callsOf, heq] using ih
      · simpa [answers, callsOf, heq] using ih

lemma sorted_callsOf (limiter : Limiter F) (identity : String) {calls : List (ℤ × String)}
    (h : (calls.map Prod.fst).Pairwise (· ≤ ·)) (windows : Windows) :
    ((callsOf identity (answers limiter windows calls)).map Call.time).Pairwise (· ≤ ·) := by
  rw [times_callsOf]
  exact h.sublist (List.filter_sublist.map _)

lemma callsOf_cons_self (answer : Answer F) (answers : List (Answer F)) :
    callsOf answer.identity (answer :: answers) =
      ⟨answer.time, allows answer.result⟩ :: callsOf answer.identity answers := by
  rw [callsOf, List.filter_cons_of_pos (by simp)]
  rfl

lemma callsOf_cons_of_ne {identity : String} {answer : Answer F} (answers : List (Answer F))
    (h : answer.identity ≠ identity) : callsOf identity (answer :: answers) = callsOf identity answers := by
  rw [callsOf, List.filter_cons_of_neg (by simpa using h)]
  rfl

lemma countP_interval_le (calls : List Call) (start length : ℤ) :
    calls.countP (fun call => call.allowed ∧ start ≤ call.time ∧ call.time < start + length) ≤
      countIn calls start (start + length) := by
  refine List.countP_mono_left fun call _ h => ?_
  obtain ⟨hallowed, hstart, hstop⟩ := of_decide_eq_true h
  exact decide_eq_true ⟨hallowed, hstart, hstop.le⟩

/-- The bounds of intervals follow from those of windows. -/
lemma inClosed_of_inWindow {limiter : Limiter F} (h : ∀ calls identity,
      ∀ window ∈ windowsOf length (callsOf identity (answers limiter ∅ calls)), window.allowed ≤ limit.toNat)
    (hlength : 0 < length) (calls : List (ℤ × String)) (hsorted : (calls.map Prod.fst).Pairwise (· ≤ ·))
    (identity : String) (start : ℤ) :
    countIn (callsOf identity (answers limiter ∅ calls)) start (start + length) ≤ 2 * limit.toNat :=
  FixedWindow.countIn_le hlength (sorted_callsOf limiter identity hsorted ∅) (h calls identity) start

lemma inInterval_of_inWindow {limiter : Limiter F} (h : ∀ calls identity,
      ∀ window ∈ windowsOf length (callsOf identity (answers limiter ∅ calls)), window.allowed ≤ limit.toNat)
    (calls : List (ℤ × String)) (hsorted : (calls.map Prod.fst).Pairwise (· ≤ ·))
    (identity : String) (start : ℤ) :
    (callsOf identity (answers limiter ∅ calls)).countP
      (fun call => call.allowed ∧ start ≤ call.time ∧ call.time < start + length) ≤ 2 * limit.toNat := by
  by_cases hlength : 0 < length
  · exact (countP_interval_le _ _ _).trans (inClosed_of_inWindow h hlength calls hsorted identity start)
  · -- There is no moment in the interval.
    refine (List.countP_eq_zero.mpr fun call _ hin => ?_).le.trans (Nat.zero_le _)
    have := of_decide_eq_true hin
    omega

lemma after_snoc (limiter : Limiter F) (windows : Windows) (calls : List (ℤ × String)) (now : ℤ)
    (identity : String) : after limiter windows (calls ++ [(now, identity)]) =
      (limiter (after limiter windows calls) now identity).2 := by
  simp [after]

/-! ### One call -/

section Check

variable [PyFloat F] {now : ℤ} {windows windows' : Windows} {identity : String}

lemma allows_answer (window limit now windowStart : ℤ) (count : ℕ) :
    allows (answer (F := F) window limit now windowStart count) = decide ((count : ℤ) ≤ limit) := by
  unfold answer
  split_ifs with hexceeds
  · rw [decide_eq_false (by omega)]
    cases addTimedelta windowStart window <;> rfl
  · exact (decide_eq_true (by omega)).symm

/-- **What a call does**: it is counted, and answered by the count. -/
theorem check_ok (limit : ℤ) (windows : Windows) (now : ℤ) (identity : String) :
    check (F := F) (.ok length) limit windows now identity =
      (answer length limit now (enter length now (windows.get identity)).1
          (enter length now (windows.get identity)).2,
        windows.set identity (enter length now (windows.get identity))) := by
  unfold check
  rcases windows.get identity with _ | ⟨windowStart, count⟩
  · simp only [Option.getD_none, ite_self, enter]
  · simp only [Option.getD_some, enter, ← not_lt, ite_not]
    split_ifs <;> rfl

/-- A call reads and writes what there is of its own identity. -/
lemma check_local (window : Except PyException ℤ) (limit now : ℤ)
    (h : windows.get identity = windows'.get identity) :
    (check (F := F) window limit windows now identity).1 = (check window limit windows' now identity).1 ∧
      (check (F := F) window limit windows now identity).2.get identity =
        (check (F := F) window limit windows' now identity).2.get identity := by
  cases window with
  | error e => exact ⟨rfl, h⟩
  | ok length =>
    rw [check_ok, check_ok, h]
    exact ⟨rfl, by rw [Dict.get_set_self, Dict.get_set_self]⟩

lemma check_get_of_ne (window : Except PyException ℤ) (limit : ℤ) (windows : Windows) (now : ℤ)
    {identity identity' : String} (hne : identity' ≠ identity) :
    (check (F := F) window limit windows now identity).2.get identity' = windows.get identity' := by
  cases window with
  | error e => rfl
  | ok length => rw [check_ok, Dict.get_set_of_ne _ _ hne]

/-- **The run lemma**: the windows of an identity are counted. -/
theorem counts_after (identity : String) : ∀ (calls : List (ℤ × String)) {windows : Windows} {before : List Call},
    Counts length limit (windows.get identity) before →
    Counts length limit ((after (check (F := F) (.ok length) limit) windows calls).get identity)
      (before ++ callsOf identity (answers (check (F := F) (.ok length) limit) windows calls))
  | [], _, before, h => by simpa [after, answers, callsOf] using h
  | (now, identity') :: calls, windows, before, h => by
      by_cases heq : identity' = identity
      · subst heq
        have hsnoc := h.snoc now
        rw [← allows_answer (F := F) length limit now (enter length now (windows.get identity')).1,
          ← Dict.get_set_self windows identity' (enter length now (windows.get identity'))] at hsnoc
        have ih := counts_after identity' calls hsnoc
        rw [List.append_assoc] at ih
        simpa only [answers, after, List.foldl_cons, callsOf_cons_self ⟨now, identity', _⟩, check_ok,
          List.singleton_append] using ih
      · have hget : (check (F := F) (.ok length) limit windows now identity').2.get identity =
            windows.get identity := check_get_of_ne _ _ _ _ (Ne.symm heq)
        rw [answers, callsOf_cons_of_ne _ heq]
        exact counts_after identity calls (hget ▸ h)

/-- **Identities do not see each other.** -/
theorem answers_filter (window : Except PyException ℤ) (limit : ℤ) (identity : String) :
    ∀ (calls : List (ℤ × String)) {windows windows' : Windows}, windows.get identity = windows'.get identity →
    (answers (check (F := F) window limit) windows calls).filter (·.identity = identity) =
      answers (check window limit) windows' (calls.filter (·.2 = identity))
  | [], _, _, _ => rfl
  | (now, identity') :: calls, windows, windows', h => by
      by_cases heq : identity' = identity
      · subst heq
        obtain ⟨hanswer, hget⟩ := check_local (F := F) window limit now h
        rw [List.filter_cons_of_pos (by simp), answers, answers, List.filter_cons_of_pos (by simp), hanswer,
          answers_filter window limit identity' calls hget]
      · have hget := check_get_of_ne (F := F) window limit windows now (Ne.symm heq)
        rw [List.filter_cons_of_neg (by simpa using heq), answers, List.filter_cons_of_neg (by simpa using heq)]
        exact answers_filter window limit identity calls (hget.trans h)

/-- **Counters that are alike** let the same calls through. -/
theorem allows_alike : ∀ (calls : List (ℤ × String)) {windows windows' : Windows},
    (∀ identity, FixedWindow.Alike limit (windows.get identity) (windows'.get identity)) →
    (answers (check (F := F) (.ok length) limit) windows calls).map (fun answer => allows answer.result) =
      (answers (check (F := F) (.ok length) limit) windows' calls).map fun answer => allows answer.result
  | [], _, _, _ => rfl
  | (now, identity) :: calls, windows, windows', h => by
      obtain ⟨hallowed, hentered⟩ := (h identity).enter length now
      rw [answers, answers, List.map_cons, List.map_cons, check_ok, check_ok, allows_answer, allows_answer]
      refine congrArg₂ List.cons (decide_eq_decide.mpr hallowed) (allows_alike calls fun identity' => ?_)
      rw [Dict.get_set, Dict.get_set]
      split_ifs
      · exact hentered
      · exact h identity'

/-! ### The bounds -/

/-- A limiter whose window is too long answers nothing. -/
lemma rateBounded_error (e : PyException) (length limit : ℤ) :
    RateBounded (check (F := F) (.error e) limit) length limit := by
  have hanswers (windows : Windows) (calls : List (ℤ × String)) :
      ∀ answer ∈ answers (check (F := F) (.error e) limit) windows calls, allows answer.result = false := by
    induction calls generalizing windows with
    | nil => exact fun _ hmem => nomatch hmem
    | cons call calls ih => exact List.forall_mem_cons.mpr ⟨rfl, ih _⟩
  have hwindow (calls : List (ℤ × String)) (identity : String) : ∀ window ∈
      windowsOf length (callsOf identity (answers (check (F := F) (.error e) limit) ∅ calls)),
        window.allowed ≤ limit.toNat := by
    refine fun window hmem => (FixedWindow.allowed_eq_zero (fun call hcall => ?_) window hmem).le.trans
      (Nat.zero_le _)
    obtain ⟨answer, hanswer, rfl⟩ := List.mem_map.mp hcall
    exact hanswers ∅ calls answer (List.mem_filter.mp hanswer).1
  refine ⟨hwindow, inInterval_of_inWindow hwindow, inClosed_of_inWindow hwindow,
    fun calls now identity _ => ⟨fun windowStart count hget _ => ?_, fun later => ?_⟩,
    fun calls identity => answers_filter _ limit identity calls rfl⟩
  · rw [after_snoc]
    exact congrArg (Option.map Prod.fst) hget
  · rw [after_snoc]
    rfl

theorem rateBounded_ok (length limit : ℤ) : RateBounded (check (F := F) (.ok length) limit) length limit := by
  have hwindow (calls : List (ℤ × String)) (identity : String) : ∀ window ∈
      windowsOf length (callsOf identity (answers (check (F := F) (.ok length) limit) ∅ calls)),
        window.allowed ≤ limit.toNat := by
    have hnone : Counts length limit ((∅ : Windows).get identity) [] := FixedWindow.counts_nil length limit
    have hcounts := counts_after (F := F) identity calls hnone
    exact fun window hmem => (hcounts.allowed window hmem).le.trans (Nat.min_le_right _ _)
  refine ⟨hwindow, inInterval_of_inWindow hwindow, inClosed_of_inWindow hwindow,
    fun calls now identity hdenied => ?_, fun calls identity => answers_filter _ limit identity calls rfl⟩
  rw [after_snoc]
  generalize after (check (F := F) (.ok length) limit) ∅ calls = windows at hdenied ⊢
  rw [check_ok, allows_answer, decide_eq_false_iff_not, not_le] at hdenied
  rw [check_ok]
  refine ⟨fun windowStart count hget hopen => ?_, fun later => allows_alike later fun identity' => ?_⟩
  · rw [Dict.get_set_self, Option.map_some, Option.some.injEq]
    have hopen : now - windowStart < length := by
      rcases hopen with hopen | hlimit
      · exact hopen
      · obtain ⟨opened, count', hget', hopen⟩ := FixedWindow.open_of_denied hlimit hdenied
        rw [hget] at hget'
        obtain ⟨rfl, -⟩ := Prod.mk.inj (Option.some.inj hget')
        exact hopen
    rw [hget, FixedWindow.enter_open hopen]
  · rw [Dict.get_set]
    split_ifs with heq
    · subst heq
      exact FixedWindow.alike_of_denied hdenied
    · exact Or.inr (Or.inl rfl)

lemma timedelta_cases (micros : ℤ) : timedelta micros = .ok micros ∨ ∃ e, timedelta micros = .error e := by
  unfold timedelta
  dsimp only
  split_ifs
  · exact Or.inr ⟨_, rfl⟩
  · exact Or.inr ⟨_, rfl⟩
  · exact Or.inl rfl

/-- **Both limiters are bounded**, whatever their policies are. -/
theorem rate_bounded (F : Type) [PyFloat F] :
    (∀ policy : RateLimitPolicy, RateBounded (InMemoryRateLimiter.check (F := F) policy)
      (policy.windowSeconds * 10 ^ 6) (policy.requestsPerWindow + policy.burst)) ∧
    ∀ policy : PublicApi.RateLimitPolicy, RateBounded (PublicApi.InMemoryRateLimiter.check (F := F) policy)
      (60 * 10 ^ 6) (policy.requestsPerMinute + policy.burst) := by
  refine ⟨fun policy => ?_, fun policy => rateBounded_ok _ _⟩
  unfold InMemoryRateLimiter.check
  rcases timedelta_cases (policy.windowSeconds * 10 ^ 6) with hok | ⟨e, herror⟩
  · rw [hok]
    exact rateBounded_ok _ _
  · rw [herror]
    exact rateBounded_error e _ _

end Check

end Tmis.Platform.RateLimiting
