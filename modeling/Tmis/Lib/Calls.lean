import Tmis.Lib.Python

/-!
# Calls that may raise

A call of a service gives a value and the state after it, or raises; one that raises leaves the state
as it is.

* `bind_eq_ok`, `bind_eq_error`, `map_eq_ok`, `pure_eq_ok`, `mapM_eq_ok`, `forM_eq_ok` — what a call made of other calls
  returns;
* `afterCall_cases`, `afterCall_map_iff` — the state after a call;
* `AtomicOn view s call` — a call that may write before it raises gives what it returns or raises beside the state
  it leaves; if it raises, what `view` shows of the state is as before it.
-/

namespace Tmis.Lib

section Except

universe u

variable {E : Type*} {X Y : Type u}

/-- A call that goes on with the value of another one returns iff both do. -/
lemma bind_eq_ok {call : Except E X} {next : X → Except E Y} {y : Y} :
    call >>= next = .ok y ↔ ∃ x, call = .ok x ∧ next x = .ok y := by
  cases call <;> simp [bind, Except.bind]

/-- A call that goes on with the value of another one raises iff one of them does. -/
lemma bind_eq_error {call : Except E X} {next : X → Except E Y} {e : E} :
    call >>= next = .error e ↔ call = .error e ∨ ∃ x, call = .ok x ∧ next x = .error e := by
  cases call <;> simp [bind, Except.bind]

lemma map_eq_ok {f : X → Y} {call : Except E X} {y : Y} :
    call.map f = .ok y ↔ ∃ x, call = .ok x ∧ f x = y := by
  cases call <;> simp [Except.map]

lemma pure_eq_ok {x y : X} : (pure x : Except E X) = .ok y ↔ x = y := by simp [pure, Except.pure]

/-- A call for each element of a list returns iff all of them do. -/
lemma mapM_eq_ok {f : X → Except E Y} {xs : List X} {ys : List Y} :
    xs.mapM f = .ok ys ↔ List.Forall₂ (fun x y => f x = .ok y) xs ys := by
  induction xs generalizing ys with
  | nil =>
    rw [List.mapM_nil, pure_eq_ok, List.forall₂_nil_left_iff]
    exact eq_comm
  | cons x xs ih =>
    rw [List.mapM_cons, List.forall₂_cons_left_iff]
    simp only [bind_eq_ok, pure_eq_ok, ih]
    constructor
    · rintro ⟨y, hy, ys, hys, rfl⟩
      exact ⟨y, ys, hy, hys, rfl⟩
    · rintro ⟨y, ys, hy, hys, rfl⟩
      exact ⟨y, hy, ys, hys, rfl⟩

/-- What each of the calls gives. -/
lemma mapM_eq_some_map {f : X → Option Y} {v : X → Y} {xs : List X} (h : ∀ x ∈ xs, f x = some (v x)) :
    xs.mapM f = some (xs.map v) := by
  induction xs with
  | nil => rfl
  | cons x xs ih =>
    obtain ⟨hx, hxs⟩ := List.forall_mem_cons.mp h
    rw [List.mapM_cons, hx, ih hxs]
    rfl

/-- A call for each element of a list, for what it does only, returns iff all of them do. -/
lemma forM_eq_ok {f : X → Except E PUnit} {xs : List X} : xs.forM f = .ok ⟨⟩ ↔ ∀ x ∈ xs, f x = .ok ⟨⟩ := by
  induction xs with
  | nil => exact iff_of_true rfl fun _ hx => absurd hx List.not_mem_nil
  | cons x xs ih =>
    rw [show (x :: xs).forM f = (f x >>= fun _ => xs.forM f) from rfl, bind_eq_ok, List.forall_mem_cons, ih]
    constructor
    · rintro ⟨⟨⟩, hx, hxs⟩
      exact ⟨hx, hxs⟩
    · rintro ⟨hx, hxs⟩
      exact ⟨⟨⟩, hx, hxs⟩

/-- What such a call raises is raised for one of the elements. -/
lemma of_forM_error {f : X → Except E PUnit} {xs : List X} {e : E} (h : xs.forM f = .error e) :
    ∃ x ∈ xs, f x = .error e := by
  induction xs with
  | nil => cases h
  | cons x xs ih =>
    rw [show (x :: xs).forM f = (f x >>= fun _ => xs.forM f) from rfl] at h
    cases hx : f x with
    | error e' =>
      rw [hx] at h
      cases h
      exact ⟨x, List.mem_cons_self, hx⟩
    | ok _ =>
      rw [hx] at h
      obtain ⟨y, hy, hraised⟩ := ih h
      exact ⟨y, List.mem_cons_of_mem x hy, hraised⟩

end Except

section AfterCall

variable {S : Type*} {s : S}

@[simp] lemma afterCall_ok (s' : S) : afterCall s (.ok s') = s' := rfl

@[simp] lemma afterCall_error (e : PyException) : afterCall s (.error e) = s := rfl

/-- A call returns the state after it, or leaves the state as it is. -/
lemma afterCall_cases (s : S) (call : Except PyException S) :
    call = .ok (afterCall s call) ∨ ((∀ s', call ≠ .ok s') ∧ afterCall s call = s) := by
  cases call with
  | error e => exact Or.inr ⟨fun s' h => (nomatch h), rfl⟩
  | ok s' => exact Or.inl rfl

/-- What holds of the state before a call holds after it iff it holds of the state the call returns, if
it returns. -/
lemma afterCall_map_iff {X : Type*} {P : S → Prop} {call : Except PyException X} {f : X → S} (h : P s) :
    P (afterCall s (call.map f)) ↔ ∀ x, call = .ok x → P (f x) := by
  cases call with
  | error e =>
    refine iff_of_true h ?_
    intro x hx
    cases hx
  | ok x =>
    constructor
    · rintro hx y ⟨⟩
      exact hx
    · exact fun hx => hx x rfl

end AfterCall

/-! ### Calls that change nothing when they raise -/

section Atomic

variable {S V X E : Type*} {view : S → V} {s s' : S}

/-- If the call raises, what is seen of the state is as before it. -/
def AtomicOn (view : S → V) (s : S) (call : Except E X × S) : Prop :=
  ∀ e, call.1 = .error e → view call.2 = view s

/-- A call that returns. -/
lemma atomicOn_ok (x : X) : AtomicOn view s ((.ok x : Except E X), s') := by
  rintro e ⟨⟩

/-- A call that raises. -/
lemma atomicOn_error_iff {e : E} : AtomicOn view s ((.error e : Except E X), s') ↔ view s' = view s :=
  ⟨fun h => h e rfl, fun h _ _ => h⟩

end Atomic

end Tmis.Lib
