import Mathlib.Data.List.Basic
import Tmis.Lib.Python
import Tmis.Lib.Run

/-!
# Coroutines on an event loop

Coroutines that share a state: each of them runs undisturbed from one `await` to the next, and in between others run.

* `Coroutine` — what a coroutine has still to do, a monad;
* `Loop`, `step` — the tasks and the state they share, and a turn of the loop: something is called, or a task goes on;
* `Rules`, `Rules.sound_run` — what every task keeps, and no other task takes from it, holds whatever turns there are.
-/

namespace Tmis.Lib

/-- What is still to do: nothing, or to act on the state and to go on with what was found in it. -/
inductive Coroutine (S α : Type) where
  | ended (result : Except PyException α)
  | act (next : S → S) (rest : S → Coroutine S α)

namespace Coroutine

variable {S α β : Type}

def bind : Coroutine S α → (α → Coroutine S β) → Coroutine S β
  | ended (.ok a), f => f a
  | ended (.error e), _ => ended (.error e)
  | act next rest, f => act next fun s => (rest s).bind f

instance : Monad (Coroutine S) where
  pure a := ended (.ok a)
  bind := bind

/-- What runs undisturbed, up to the next `await`. -/
def atomically (f : S → Except PyException α × S) : Coroutine S α := act (fun s => (f s).2) fun s => ended (f s).1

end Coroutine

/-- The tasks, each with the call that it is of, in the order of the calls. -/
structure Loop (S L α : Type) where
  state : S
  tasks : List (L × Coroutine S α) := []

/-- Something is called, or the task with a number goes on. -/
inductive Turn (L : Type) where
  | call (l : L)
  | resume (i : ℕ)

def Turn.called {L : Type} : Turn L → Option L
  | .call l => some l
  | .resume _ => none

namespace Loop

variable {S L α : Type}

def calls (loop : Loop S L α) : List L := loop.tasks.map Prod.fst

def resume (loop : Loop S L α) (i : ℕ) : Loop S L α :=
  match loop.tasks[i]? with
  | some (l, .act next rest) => { state := next loop.state, tasks := loop.tasks.set i (l, rest loop.state) }
  | _ => loop

/-- A turn; `start` is the task of a call, which is told its number. -/
def step (start : ℕ → L → Coroutine S α) (loop : Loop S L α) : Turn L → Loop S L α
  | .call l => { loop with tasks := loop.tasks ++ [(l, start loop.tasks.length l)] }
  | .resume i => loop.resume i

lemma calls_resume (loop : Loop S L α) (i : ℕ) : (loop.resume i).calls = loop.calls := by
  unfold resume
  split
  · rename_i l next rest hi
    refine List.ext_getElem? fun j => ?_
    rw [calls, calls, List.getElem?_map, List.getElem?_map, List.getElem?_set]
    split_ifs with hij hlt
    · rw [← hij, hi]
      rfl
    · rw [← hij, List.getElem?_eq_none (Nat.le_of_not_lt hlt)]
    · rfl
  · rfl

/-- The tasks are of the calls that there were. -/
lemma calls_run (start : ℕ → L → Coroutine S α) (loop : Loop S L α) (turns : List (Turn L)) :
    (run (step start) loop turns).calls = loop.calls ++ turns.filterMap Turn.called := by
  induction turns using List.reverseRecOn with
  | nil => exact (List.append_nil _).symm
  | append_singleton turns turn ih =>
    rw [run_snoc, List.filterMap_append, ← List.append_assoc, ← ih]
    cases turn with
    | call l => exact List.map_append
    | resume i => exact (calls_resume _ i).trans (List.append_nil _).symm

/-- `J` says something of the state and the calls there were, and `P` of a task in the state. -/
structure Sound (J : List L → S → Prop) (P : ℕ → L → S → Coroutine S α → Prop)
    (loop : Loop S L α) : Prop where
  shared : J loop.calls loop.state
  each : ∀ i l t, loop.tasks[i]? = some (l, t) → P i l loop.state t

/-- What a new task begins with, what a task keeps when it acts, and that it leaves to the others what they keep. -/
structure Rules (start : ℕ → L → Coroutine S α) (J : List L → S → Prop)
    (P : ℕ → L → S → Coroutine S α → Prop) : Prop where
  call : ∀ {ls s} l, J ls s → J (ls ++ [l]) s ∧ P ls.length l s (start ls.length l)
  own : ∀ {ls s i l next rest}, J ls s → ls[i]? = some l → P i l s (.act next rest) →
    J ls (next s) ∧ P i l (next s) (rest s)
  other : ∀ {s i l next rest j l' t}, i ≠ j → P i l s (.act next rest) → P j l' s t → P j l' (next s) t

variable {start : ℕ → L → Coroutine S α} {J : List L → S → Prop} {P : ℕ → L → S → Coroutine S α → Prop}
  {loop : Loop S L α}

lemma Rules.sound_step (h : Rules start J P) (hsound : Sound J P loop) (turn : Turn L) :
    Sound J P (loop.step start turn) := by
  cases turn with
  | call l =>
    obtain ⟨hshared, hnew⟩ := h.call l hsound.shared
    refine ⟨?_, fun i l' t hi => ?_⟩
    · rw [calls, step, List.map_append]
      exact hshared
    · rcases Nat.lt_trichotomy i loop.tasks.length with hlt | rfl | hgt
      · rw [step, List.getElem?_append_left hlt] at hi
        exact hsound.each i l' t hi
      · rw [step, List.getElem?_concat_length] at hi
        cases hi
        rwa [calls, List.length_map] at hnew
      · rw [step, List.getElem?_eq_none (by rw [List.length_append]; exact hgt)] at hi
        cases hi
  | resume i =>
    show Sound J P (loop.resume i)
    unfold resume
    split
    · rename_i l next rest hi
      have hcall : loop.calls[i]? = some l := by rw [calls, List.getElem?_map, hi]; rfl
      obtain ⟨hshared, hown⟩ := h.own hsound.shared hcall (hsound.each i l _ hi)
      refine ⟨?_, fun j l' t hj => ?_⟩
      · have hcalls := calls_resume loop i
        unfold resume at hcalls
        rw [hi] at hcalls
        rwa [hcalls]
      · by_cases hij : i = j
        · subst hij
          obtain ⟨hlt, -⟩ := List.getElem?_eq_some_iff.mp hi
          rw [List.getElem?_set_self hlt] at hj
          cases hj
          exact hown
        · rw [List.getElem?_set_ne hij] at hj
          exact h.other hij (hsound.each i l _ hi) (hsound.each j l' t hj)
    · exact hsound

/-- **Whatever turns there are**, in whatever order, all that the rules are about holds. -/
theorem Rules.sound_run (h : Rules start J P) {s : S} (h0 : J [] s) (turns : List (Turn L)) :
    Sound J P (run (step start) { state := s } turns) :=
  run_inv turns ⟨h0, nofun⟩ fun _ turn hsound => h.sound_step hsound turn

end Loop

end Tmis.Lib
