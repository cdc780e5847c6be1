import Mathlib.Algebra.Order.Group.Defs
import Mathlib.Algebra.Order.Group.Int
import Mathlib.Algebra.Order.Sub.Basic
import Mathlib.Data.List.Count
import Mathlib.Data.List.Induction
import Mathlib.Data.List.Pairwise
import Mathlib.Tactic.Abel

/-!
# Fixed windows

The calls of one caller, put into windows of one length: a call joins the last window as long as that is
open, and opens one when it is over.

* `Call`, `Window`, `join`, `windowsOf` — calls, and the windows they are in;
* `countP_interval_le` — if at most `n` calls of each window are let through, then at most `2 * n` of any
  interval as long as a window;
* `Counter`, `enter` — when the last window was opened, and how many calls are in it;
* `Counts`, `Counts.snoc` — what a counter lets through are the first calls of each window;
* `open_of_denied`, `alike_of_denied` — a call that is not let through opens no window, and changes nothing
  for later ones.
-/

namespace Tmis.Lib.FixedWindow

/-- A call: when it was made, and whether it was let through. -/
structure Call where
  time : ℤ
  allowed : Bool

/-- A window: when it was opened, and the calls in it, the last one first. -/
structure Window where
  opened : ℤ
  calls : List Call

/-- How many calls of a window are let through. -/
def Window.allowed (window : Window) : ℕ := window.calls.countP Call.allowed

/-- A call joins the first of the windows if that is open, and opens one otherwise. -/
def join (length : ℤ) : List Window → Call → List Window
  | [], call => [⟨call.time, [call]⟩]
  | window :: windows, call =>
      if call.time - window.opened < length then ⟨window.opened, call :: window.calls⟩ :: windows
      else ⟨call.time, [call]⟩ :: window :: windows

/-- The windows of calls, the last one first. -/
def windowsOf (length : ℤ) (calls : List Call) : List Window := calls.foldl (join length) []

section Windows

variable {length : ℤ} {calls : List Call}

@[simp] lemma windowsOf_nil : windowsOf length [] = [] := rfl

@[simp] lemma windowsOf_snoc (call : Call) :
    windowsOf length (calls ++ [call]) = join length (windowsOf length calls) call := by
  simp [windowsOf]

/-! ### Any interval -/

/-- The calls of an interval that are let through. -/
def countIn (calls : List Call) (start stop : ℤ) : ℕ :=
  calls.countP fun call => call.allowed ∧ start ≤ call.time ∧ call.time ≤ stop

lemma countIn_snoc_le (calls : List Call) (call : Call) (start stop : ℤ) : countIn (calls ++ [call]) start stop ≤
    countIn calls start stop + if call.allowed then 1 else 0 := by
  rw [countIn, List.countP_append, List.countP_singleton]
  refine Nat.add_le_add_left ?_ _
  cases call.allowed <;> simp
  split_ifs <;> simp

lemma countIn_snoc_outside (calls : List Call) {call : Call} {start stop : ℤ}
    (h : call.time < start ∨ stop < call.time) :
    countIn (calls ++ [call]) start stop = countIn calls start stop := by
  have hnot : ¬ (call.allowed ∧ start ≤ call.time ∧ call.time ≤ stop) := by omega
  rw [countIn, List.countP_append, List.countP_singleton, if_neg (by rwa [decide_eq_true_eq])]
  rfl

lemma allowed_cons (opened : ℤ) (call : Call) (calls : List Call) :
    Window.allowed ⟨opened, call :: calls⟩ =
      Window.allowed ⟨opened, calls⟩ + if call.allowed then 1 else 0 := List.countP_cons ..

/-- What is known of the interval that begins at `start`, when the last call was made at `last`, in `window`:
at most one window that was opened before it reaches into it, and at most one is opened in it. -/
structure Seen (length start : ℤ) (n : ℕ) (calls : List Call) (window : Window) (last : ℤ) : Prop where
  opened : window.opened ≤ last
  running : last < window.opened + length
  early : last < start → countIn calls start (start + length) = 0
  first : window.opened ≤ start → countIn calls start (start + length) ≤ window.allowed
  second : window.opened ≤ start + length → countIn calls start (start + length) ≤ n + window.allowed
  both : countIn calls start (start + length) ≤ 2 * n

/-- The first call. -/
lemma Seen.single {start : ℤ} {n : ℕ} (hlength : 0 < length) (call : Call)
    (hle : Window.allowed ⟨call.time, [call]⟩ ≤ n) :
    Seen length start n [call] ⟨call.time, [call]⟩ call.time := by
  have hcount : countIn [call] start (start + length) ≤ Window.allowed ⟨call.time, [call]⟩ :=
    List.countP_mono_left fun _ _ h => (of_decide_eq_true h).1
  exact ⟨le_rfl, by dsimp only; omega, fun hlast => countIn_snoc_outside [] (Or.inl hlast),
    fun _ => hcount, fun _ => by omega, by omega⟩

/-- One more call. -/
lemma Seen.snoc {start last : ℤ} {n : ℕ} {window : Window} (h : Seen length start n calls window last)
    (hlength : 0 < length) {call : Call} (hlast : last ≤ call.time) (windows : List Window)
    (hle : ∀ window' ∈ join length (window :: windows) call, window'.allowed ≤ n) :
    ∃ window' windows', join length (window :: windows) call = window' :: windows' ∧
      Seen length start n (calls ++ [call]) window' call.time := by
  obtain ⟨hopened, hrunning, hearly, hfirst, hsecond, hboth⟩ := h
  have hcount := countIn_snoc_le calls call start (start + length)
  have hout (h : call.time < start ∨ start + length < call.time) :
      countIn (calls ++ [call]) start (start + length) = countIn calls start (start + length) :=
    countIn_snoc_outside calls h
  simp only [join] at hle ⊢
  split_ifs at hle ⊢ with hopen
  · -- The call joins the window.
    have hallowed : Window.allowed ⟨window.opened, call :: window.calls⟩ =
        window.allowed + if call.allowed then 1 else 0 := allowed_cons ..
    have hn := hle _ List.mem_cons_self
    refine ⟨_, _, rfl, hopened.trans hlast, by dsimp only; omega, fun hstart => ?_, fun hstart => ?_,
      fun hstart => ?_, ?_⟩
    · rw [hout (Or.inl hstart), hearly (by omega)]
    · have := hfirst hstart
      omega
    · have := hsecond hstart
      omega
    · by_cases hin : window.opened ≤ start + length
      · have := hsecond hin
        omega
      · rwa [hout (Or.inr (by omega))]
  · -- It opens one, at least as long after the one before as the interval is.
    have hallowed : Window.allowed ⟨call.time, [call]⟩ = 0 + if call.allowed then 1 else 0 := allowed_cons ..
    have hn := hle _ (List.mem_cons_of_mem _ List.mem_cons_self)
    have hn' := hle _ List.mem_cons_self
    refine ⟨_, _, rfl, le_rfl, by dsimp only; omega, fun hstart => ?_, fun hstart => ?_, fun hstart => ?_, ?_⟩
    · rw [hout (Or.inl hstart), hearly (by omega)]
    · have := hearly (by dsimp only at hstart; omega)
      omega
    · have := hfirst (by dsimp only at hstart; omega)
      omega
    · by_cases hin : call.time ≤ start + length
      · have := hfirst (by omega)
        omega
      · rwa [hout (Or.inr (by omega))]

lemma allowed_le_of_join {n : ℕ} : ∀ {windows : List Window} (call : Call),
    (∀ window ∈ join length windows call, window.allowed ≤ n) → ∀ window ∈ windows, window.allowed ≤ n
  | [], _, _ => fun _ hmem => nomatch hmem
  | window :: windows, call, h => by
      simp only [join] at h
      split_ifs at h
      · intro window' hmem
        rcases List.mem_cons.mp hmem with rfl | hmem
        · exact (Nat.le_add_right _ _).trans ((allowed_cons ..).symm.le.trans (h _ List.mem_cons_self))
        · exact h _ (List.mem_cons_of_mem _ hmem)
      · exact fun window' hmem => h _ (List.mem_cons_of_mem _ hmem)

/-- **Any interval.**  If at most `n` calls of each window are let through, then at most `2 * n` of any
interval that is as long as a window. -/
theorem countIn_le {n : ℕ} (hlength : 0 < length) (hsorted : (calls.map Call.time).Pairwise (· ≤ ·))
    (hle : ∀ window ∈ windowsOf length calls, window.allowed ≤ n) (start : ℤ) :
    countIn calls start (start + length) ≤ 2 * n := by
  have hseen : calls ≠ [] → ∃ window windows last, windowsOf length calls = window :: windows ∧
      (∀ call ∈ calls.getLast?, last = call.time) ∧ Seen length start n calls window last := by
    induction calls using List.reverseRecOn with
    | nil => exact fun h => absurd rfl h
    | append_singleton calls call ih =>
      rw [List.map_append, List.pairwise_append] at hsorted
      rw [windowsOf_snoc] at hle ⊢
      intro _
      by_cases hcalls : calls = []
      · subst hcalls
        exact ⟨_, _, _, rfl, by simp, Seen.single hlength call (hle _ List.mem_cons_self)⟩
      · obtain ⟨window, windows, last, hwindows, hlast, hseen⟩ :=
          ih hsorted.1 (allowed_le_of_join call hle) hcalls
        rw [hwindows] at hle ⊢
        have hle' : last ≤ call.time := by
          rw [hlast _ (List.getLast?_eq_some_getLast hcalls)]
          exact hsorted.2.2 _ (List.mem_map_of_mem (List.getLast_mem hcalls)) _ (by simp)
        obtain ⟨window', windows', hjoin, hseen'⟩ := hseen.snoc hlength hle' windows hle
        exact ⟨window', windows', call.time, hjoin, by simp, hseen'⟩
  by_cases hcalls : calls = []
  · subst hcalls
    exact Nat.zero_le _
  · obtain ⟨window, windows, last, -, -, hseen⟩ := hseen hcalls
    exact hseen.both

/-- No call is let through in a window if none is. -/
lemma allowed_eq_zero (h : ∀ call ∈ calls, call.allowed = false) :
    ∀ window ∈ windowsOf length calls, window.allowed = 0 := by
  induction calls using List.reverseRecOn with
  | nil => exact fun _ hmem => nomatch hmem
  | append_singleton calls call ih =>
    have ih := ih fun call' hmem => h call' (List.mem_append_left _ hmem)
    have hcall : call.allowed = false := h call (by simp)
    rw [windowsOf_snoc]
    cases hwindows : windowsOf length calls with
    | nil => simp [join, Window.allowed, hcall]
    | cons window windows =>
      rw [hwindows] at ih
      simp only [join]
      split_ifs
      · refine List.forall_mem_cons.mpr ⟨?_, (List.forall_mem_cons.mp ih).2⟩
        rw [allowed_cons, hcall]
        exact ih window List.mem_cons_self
      · exact List.forall_mem_cons.mpr ⟨by simp [Window.allowed, hcall], ih⟩

end Windows

/-! ### The counter -/

/-- When the last window was opened, and how many calls are in it. -/
abbrev Counter := Option (ℤ × ℕ)

/-- What a counter says with one more call. -/
def enter (length now : ℤ) : Counter → ℤ × ℕ
  | none => (now, 1)
  | some (opened, count) => if now - opened < length then (opened, count + 1) else (now, 1)

/-- The counter is that of the calls, and in each window the first calls were let through, up to the limit. -/
structure Counts (length limit : ℤ) (counter : Counter) (calls : List Call) : Prop where
  last : counter = (windowsOf length calls).head?.map fun window => (window.opened, window.calls.length)
  allowed : ∀ window ∈ windowsOf length calls, window.allowed = min window.calls.length limit.toNat

section Counts

variable {length limit : ℤ} {counter : Counter} {calls : List Call}

lemma counts_nil (length limit : ℤ) : Counts length limit none [] := ⟨rfl, fun _ hmem => nomatch hmem⟩

/-- A window that has let its first calls through does so with one more. -/
lemma allowed_cons_min (calls : List Call) {opened : ℤ} {call : Call}
    (hcalls : Window.allowed ⟨opened, calls⟩ = min calls.length limit.toNat)
    (hcall : call.allowed = decide (((calls.length + 1 : ℕ) : ℤ) ≤ limit)) :
    Window.allowed ⟨opened, call :: calls⟩ = min (call :: calls).length limit.toNat := by
  rw [allowed_cons, hcalls, hcall, List.length_cons]
  simp only [decide_eq_true_eq]
  split_ifs <;> omega

/-- **One more call**, let through iff the counter does not exceed the limit. -/
theorem Counts.snoc (h : Counts length limit counter calls) (now : ℤ) :
    Counts length limit (some (enter length now counter))
      (calls ++ [⟨now, decide (((enter length now counter).2 : ℤ) ≤ limit)⟩]) := by
  obtain ⟨rfl, hallowed⟩ := h
  have hopens (windows : List Window) (call : Call) (hcall : call.allowed = decide (((1 : ℕ) : ℤ) ≤ limit))
      (hwindows : ∀ window ∈ windows, window.allowed = min window.calls.length limit.toNat) :
      ∀ window ∈ ⟨call.time, [call]⟩ :: windows, window.allowed = min window.calls.length limit.toNat :=
    List.forall_mem_cons.mpr ⟨allowed_cons_min [] rfl hcall, hwindows⟩
  cases hwindows : windowsOf length calls with
  | nil =>
    refine ⟨by rw [windowsOf_snoc, hwindows]; rfl, ?_⟩
    rw [windowsOf_snoc, hwindows]
    exact hopens [] _ rfl fun _ hmem => nomatch hmem
  | cons window windows =>
    rw [hwindows] at hallowed
    simp only [List.head?_cons, Option.map_some, enter]
    by_cases hopen : now - window.opened < length
    · simp only [if_pos hopen]
      constructor
      · rw [windowsOf_snoc, hwindows, join, if_pos hopen]
        rfl
      · rw [windowsOf_snoc, hwindows, join, if_pos hopen]
        exact List.forall_mem_cons.mpr ⟨allowed_cons_min _ (List.forall_mem_cons.mp hallowed).1 rfl,
          (List.forall_mem_cons.mp hallowed).2⟩
    · simp only [if_neg hopen]
      constructor
      · rw [windowsOf_snoc, hwindows, join, if_neg hopen]
        rfl
      · rw [windowsOf_snoc, hwindows, join, if_neg hopen]
        exact hopens _ _ rfl hallowed

/-! ### Calls that are not let through -/

/-- The two counters let the same calls through: they stand at one window, and count alike up to the limit. -/
def Alike (limit : ℤ) (counter counter' : Counter) : Prop :=
  limit ≤ 0 ∨ counter = counter' ∨ ∃ opened count count', counter = some (opened, count) ∧
    counter' = some (opened, count') ∧ limit ≤ (count : ℤ) ∧ limit ≤ (count' : ℤ)

lemma one_le_enter (length now : ℤ) (counter : Counter) : 1 ≤ (enter length now counter).2 := by
  rcases counter with _ | ⟨opened, count⟩
  · exact Nat.le_refl 1
  · simp only [enter]
    split_ifs
    · exact Nat.le_add_left 1 count
    · exact Nat.le_refl 1

lemma enter_open {now opened : ℤ} {count : ℕ} (h : now - opened < length) :
    enter length now (some (opened, count)) = (opened, count + 1) := if_pos h

/-- They let the same call through, and go on alike. -/
lemma Alike.enter {counter' : Counter} (h : Alike limit counter counter') (length now : ℤ) :
    (((enter length now counter).2 : ℤ) ≤ limit ↔ ((enter length now counter').2 : ℤ) ≤ limit) ∧
      Alike limit (some (enter length now counter)) (some (enter length now counter')) := by
  rcases h with hlimit | rfl | ⟨opened, count, count', rfl, rfl, hcount, hcount'⟩
  · have h := one_le_enter length now counter
    have h' := one_le_enter length now counter'
    exact ⟨by omega, Or.inl hlimit⟩
  · exact ⟨Iff.rfl, Or.inr (Or.inl rfl)⟩
  · by_cases hopen : now - opened < length
    · rw [enter_open hopen, enter_open hopen]
      exact ⟨by dsimp only; omega, Or.inr (Or.inr ⟨opened, _, _, rfl, rfl, by omega, by omega⟩)⟩
    · have hover (count : ℕ) : FixedWindow.enter length now (some (opened, count)) = (now, 1) := if_neg hopen
      rw [hover, hover]
      exact ⟨Iff.rfl, Or.inr (Or.inl rfl)⟩

/-- **A call that is not let through**, when some could be, is made in a window that is open. -/
lemma open_of_denied {now : ℤ} (hlimit : 0 < limit) (h : limit < (enter length now counter).2) :
    ∃ opened count, counter = some (opened, count) ∧ now - opened < length := by
  rcases counter with _ | ⟨opened, count⟩
  · simp only [enter] at h
    omega
  · refine ⟨opened, count, rfl, ?_⟩
    by_contra hover
    simp only [enter, if_neg hover] at h
    omega

/-- So later calls are let through as if it had not been made. -/
lemma alike_of_denied {now : ℤ} (h : limit < (enter length now counter).2) :
    Alike limit (some (enter length now counter)) counter := by
  by_cases hlimit : limit ≤ 0
  · exact Or.inl hlimit
  · obtain ⟨opened, count, rfl, hopen⟩ := open_of_denied (by omega) h
    rw [enter_open hopen] at h ⊢
    exact Or.inr (Or.inr ⟨opened, _, _, rfl, rfl, by omega, by omega⟩)

end Counts

end Tmis.Lib.FixedWindow

/-!
## Sliding windows

Calls that are let in as long as fewer than a limit of them were recorded in the period before; a call is
checked at one time and recorded at another.

* `Span` — when a call was checked, and when it was recorded;
* `Admitted` — every call was checked against the ones that were let in before it;
* `Overlaps` — a call has a part of it in the period that ends at some time;
* `countP_overlaps_le` — no period has more calls in it than the limit;
* `dropWhile_dropWhile`, `countP_dropWhile` — a log whose front is forgotten as it gets too old.
-/

namespace Tmis.Lib.SlidingWindow

variable {T : Type*}

structure Span (T : Type*) where
  checked : T
  recorded : T

variable [AddCommGroup T] [LinearOrder T] (period : T) (limit : ℤ)

/-- Of the calls let in, the last one first, each found fewer than `limit` recorded in the period before
it was checked. -/
def Admitted : List (Span T) → Prop
  | [] => True
  | call :: earlier =>
      (earlier.countP (fun other => call.checked - period ≤ other.recorded) : ℤ) < limit ∧ Admitted earlier

/-- A call that was not over when the period that ends at `stop` began, and had begun when it ends: whatever
instant of it one takes for its time, it is in the period if that is. -/
def Overlaps (stop : T) (call : Span T) : Prop := stop - period ≤ call.recorded ∧ call.checked ≤ stop

instance (stop : T) : DecidablePred (Overlaps period stop) :=
  fun call => inferInstanceAs (Decidable (stop - period ≤ call.recorded ∧ call.checked ≤ stop))

variable {period limit} [IsOrderedAddMonoid T] {calls : List (Span T)}

/-- **Sliding windows.**  No period has more calls in it than the limit. -/
theorem countP_overlaps_le (h : Admitted period limit calls) (stop : T) :
    (calls.countP (fun call => Overlaps period stop call) : ℤ) ≤ max limit 0 := by
  induction calls with
  | nil => exact le_max_right limit 0
  | cons call earlier ih =>
    obtain ⟨hfewer, hearlier⟩ := h
    rw [List.countP_cons]
    by_cases hover : Overlaps period stop call
    · -- what the period holds besides the last call was counted when that was checked
      have hcounted : earlier.countP (fun other => Overlaps period stop other) ≤
          earlier.countP (fun other => call.checked - period ≤ other.recorded) := by
        refine List.countP_mono_left fun other _ hother => ?_
        rw [decide_eq_true_eq] at hother ⊢
        exact (sub_le_sub_right hover.2 period).trans hother.1
      rw [if_pos (decide_eq_true hover)]
      omega
    · rw [if_neg (by rwa [decide_eq_true_eq])]
      exact ih hearlier

/-! ### Forgetting what is too old -/

section Forget

variable {cutoff later : T}

omit [AddCommGroup T] [IsOrderedAddMonoid T] in
/-- What was too old already stays too old. -/
lemma dropWhile_dropWhile (h : cutoff ≤ later) (times : List T) :
    (times.dropWhile (· < cutoff)).dropWhile (· < later) = times.dropWhile (· < later) := by
  induction times with
  | nil => rfl
  | cons time times ih =>
    by_cases hold : time < cutoff
    · rw [List.dropWhile_cons_of_pos (by simpa using hold), ih,
        List.dropWhile_cons_of_pos (by simpa using hold.trans_le h)]
    · rw [List.dropWhile_cons_of_neg (by simpa using hold)]

omit [AddCommGroup T] [IsOrderedAddMonoid T] in
/-- Nothing that counts is forgotten. -/
lemma countP_dropWhile (h : cutoff ≤ later) (times : List T) :
    (times.dropWhile (· < cutoff)).countP (later ≤ ·) = times.countP (later ≤ ·) := by
  induction times with
  | nil => rfl
  | cons time times ih =>
    by_cases hold : time < cutoff
    · rw [List.dropWhile_cons_of_pos (by simpa using hold), ih,
        List.countP_cons_of_neg (by simpa using hold.trans_le h)]
    · rw [List.dropWhile_cons_of_neg (by simpa using hold)]

end Forget

end Tmis.Lib.SlidingWindow
