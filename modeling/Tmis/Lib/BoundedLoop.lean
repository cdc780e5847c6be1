import Tmis.Lib.Calls

/-!
# Loops with a bound

A `while` loop whose body may raise, and the same loop with a bound on the number of its iterations.
`step s` is `none` where the loop stops, else what the body makes of the state `s`.

* `Ends` — the loop without a bound comes to an end;
* `whileN` — the loop with a bound;
* `Ends.unique`, `whileN_add` — there is one end, and bounds add up;
* `ends_of_stopped`, `ends_of_raised` — a bounded loop that stopped before its bound is the unbounded one;
* `whileN_eq_error` — where a bounded loop raised;
* `whileN_inv`, `whileN_count` — the invariant rule, and how often a loop went round that was cut off.
-/

namespace Tmis.Lib

variable {S E : Type} {step : S → Option (Except E S)}

/-- The loop without a bound, from a state to its end. -/
inductive Ends (step : S → Option (Except E S)) : S → Except E S → Prop
  | stop {s : S} (h : step s = none) : Ends step s (.ok s)
  | raise {s : S} {e : E} (h : step s = some (.error e)) : Ends step s (.error e)
  | next {s s' : S} {r : Except E S} (h : step s = some (.ok s')) (hr : Ends step s' r) : Ends step s r

/-- The loop, cut off after `n` iterations. -/
def whileN (step : S → Option (Except E S)) : ℕ → S → Except E S
  | 0, s => .ok s
  | n + 1, s =>
    match step s with
    | none => .ok s
    | some call => call >>= whileN step n

lemma whileN_stop {s : S} (h : step s = none) (n : ℕ) : whileN step n s = .ok s := by
  cases n with
  | zero => rfl
  | succ n => simp [whileN, h]

lemma whileN_raise {s : S} {e : E} (h : step s = some (.error e)) (n : ℕ) :
    whileN step (n + 1) s = .error e := by
  simp [whileN, h, bind, Except.bind]

lemma whileN_next {s s' : S} (h : step s = some (.ok s')) (n : ℕ) :
    whileN step (n + 1) s = whileN step n s' := by
  simp [whileN, h, bind, Except.bind]

/-- A loop has one end. -/
theorem Ends.unique {s : S} {r r' : Except E S} (h : Ends step s r) (h' : Ends step s r') : r = r' := by
  induction h with
  | stop hs => cases h' <;> simp_all
  | raise hs => cases h' <;> simp_all
  | next hs _ ih =>
    cases h' with
    | stop hs' => simp [hs] at hs'
    | raise hs' => simp [hs] at hs'
    | next hs' hr' =>
      rw [hs] at hs'
      cases hs'
      exact ih hr'

/-- A bounded loop, and then another one. -/
theorem whileN_add (m n : ℕ) (s : S) : whileN step (m + n) s = whileN step m s >>= whileN step n := by
  induction m generalizing s with
  | zero =>
    rw [Nat.zero_add]
    rfl
  | succ m ih =>
    rw [Nat.succ_add]
    cases hs : step s with
    | none =>
      rw [whileN_stop hs, whileN_stop hs]
      exact (whileN_stop hs n).symm
    | some call =>
      cases call with
      | error e =>
        rw [whileN_raise hs, whileN_raise hs]
        rfl
      | ok s' => rw [whileN_next hs, whileN_next hs, ih]

/-- A bounded loop that stopped is the unbounded one. -/
lemma ends_of_stopped {n : ℕ} {s t : S} (h : whileN step n s = .ok t) (ht : step t = none) :
    Ends step s (.ok t) := by
  induction n generalizing s with
  | zero =>
    cases h
    exact .stop ht
  | succ n ih =>
    cases hs : step s with
    | none =>
      rw [whileN_stop hs] at h
      cases h
      exact .stop hs
    | some call =>
      cases call with
      | error e =>
        rw [whileN_raise hs] at h
        cases h
      | ok s' =>
        rw [whileN_next hs] at h
        exact .next hs (ih h)

/-- A bounded loop that raised is the unbounded one. -/
lemma ends_of_raised {n : ℕ} {s : S} {e : E} (h : whileN step n s = .error e) :
    Ends step s (.error e) := by
  induction n generalizing s with
  | zero => cases h
  | succ n ih =>
    cases hs : step s with
    | none =>
      rw [whileN_stop hs] at h
      cases h
    | some call =>
      cases call with
      | error e' =>
        rw [whileN_raise hs] at h
        cases h
        exact .raise hs
      | ok s' =>
        rw [whileN_next hs] at h
        exact .next hs (ih h)

/-- A loop raises in an iteration before its bound. -/
lemma whileN_eq_error {n : ℕ} {s : S} {e : E} (h : whileN step n s = .error e) :
    ∃ m < n, ∃ t, whileN step m s = .ok t ∧ step t = some (.error e) := by
  induction n generalizing s with
  | zero => cases h
  | succ n ih =>
    cases hs : step s with
    | none =>
      rw [whileN_stop hs] at h
      cases h
    | some call =>
      cases call with
      | error e' =>
        rw [whileN_raise hs] at h
        cases h
        exact ⟨0, by omega, s, rfl, hs⟩
      | ok s' =>
        rw [whileN_next hs] at h
        obtain ⟨m, hm, t, ht, hraise⟩ := ih h
        exact ⟨m + 1, by omega, t, by rw [whileN_next hs, ht], hraise⟩

lemma Ends.stopped {s t : S} (h : Ends step s (.ok t)) : step t = none := by
  generalize hr : (Except.ok t : Except E S) = r at h
  induction h with
  | stop hs =>
    cases hr
    exact hs
  | raise _ => cases hr
  | next _ _ ih => exact ih hr

/-- **The invariant rule** for a bounded loop. -/
theorem whileN_inv {I : S → Prop} (hstep : ∀ s s', I s → step s = some (.ok s') → I s') {n : ℕ} {s t : S}
    (h0 : I s) (h : whileN step n s = .ok t) : I t := by
  induction n generalizing s with
  | zero =>
    cases h
    exact h0
  | succ n ih =>
    cases hs : step s with
    | none =>
      rw [whileN_stop hs] at h
      cases h
      exact h0
    | some call =>
      cases call with
      | error e =>
        rw [whileN_raise hs] at h
        cases h
      | ok s' =>
        rw [whileN_next hs] at h
        exact ih (hstep s s' h0 hs) h

/-- What the body counts is at most the bound, and the bound itself where the loop was cut off. -/
theorem whileN_count (count : S → ℕ) (hstep : ∀ s s', step s = some (.ok s') → count s' = count s + 1)
    {n : ℕ} {s t : S} (h : whileN step n s = .ok t) :
    count t ≤ count s + n ∧ (step t ≠ none → count t = count s + n) := by
  induction n generalizing s with
  | zero =>
    cases h
    exact ⟨le_rfl, fun _ => rfl⟩
  | succ n ih =>
    cases hs : step s with
    | none =>
      rw [whileN_stop hs] at h
      cases h
      exact ⟨by omega, fun hne => absurd hs hne⟩
    | some call =>
      cases call with
      | error e =>
        rw [whileN_raise hs] at h
        cases h
      | ok s' =>
        rw [whileN_next hs] at h
        obtain ⟨hle, heq⟩ := ih h
        have hcount := hstep s s' hs
        exact ⟨by omega, fun hne => by have := heq hne; omega⟩

end Tmis.Lib
