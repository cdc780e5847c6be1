import Mathlib.Data.List.Basic
import Mathlib.Data.List.Induction

/-!
# Runs of a state machine under a discipline

A system is a total step function `step : S → A → S`; a run from `s` is a list of actions folded
through it.  Calls that raise are steps too: the state they leave behind is what the step returns.

* `Along step C s as` — every action of the run `as` from `s` meets `C` in the state it is taken in;
* `Along.inv` — the invariant rule: what every disciplined step preserves holds at the end of the run;
* `Along.of_inv` — what an invariant gives of one step holds all along the run;
* `along_congr`, `along_congr_of` — two disciplines that agree wherever the invariant holds accept the
  same runs;
* `Along.since_iff` — what a step makes hold that makes something else hold, and no other does, holds from
  the moment on that this first did;
* `lastWrite written as`, `run_read` — where some actions write to what is read of the state and the others leave
  it, the last write is read after a run, or what was there before it;
* `run_recorded` — where every action adds something at the end of a list, a run adds that of each, in order.
-/

namespace Tmis.Lib

variable {S A : Type*}

/-- The state a run of actions ends in. -/
def run (step : S → A → S) (s : S) (as : List A) : S := as.foldl step s

/-- Every action of the run `as` from `s` meets `C` in the state it is taken in. -/
def Along (step : S → A → S) (C : S → A → Prop) : S → List A → Prop
  | _, [] => True
  | s, a :: as => C s a ∧ Along step C (step s a) as

section Basic

variable {step : S → A → S} {C D : S → A → Prop} {I : S → Prop}

@[simp] lemma run_nil (s : S) : run step s [] = s := rfl

@[simp] lemma run_cons (s : S) (a : A) (as : List A) :
    run step s (a :: as) = run step (step s a) as := rfl

lemma run_append (s : S) (as bs : List A) :
    run step s (as ++ bs) = run step (run step s as) bs := List.foldl_append ..

lemma run_snoc (s : S) (as : List A) (a : A) :
    run step s (as ++ [a]) = step (run step s as) a := by simp [run_append]

@[simp] lemma along_nil (s : S) : Along step C s [] := trivial

@[simp] lemma along_cons (s : S) (a : A) (as : List A) :
    Along step C s (a :: as) ↔ C s a ∧ Along step C (step s a) as := Iff.rfl

instance decidableAlong [∀ s a, Decidable (C s a)] :
    ∀ (s : S) (as : List A), Decidable (Along step C s as)
  | _, [] => isTrue trivial
  | s, a :: as => by
      have := decidableAlong (step s a) as
      exact inferInstanceAs (Decidable (C s a ∧ Along step C (step s a) as))

lemma along_append (s : S) (as bs : List A) :
    Along step C s (as ++ bs) ↔ Along step C s as ∧ Along step C (run step s as) bs := by
  induction as generalizing s with
  | nil => simp
  | cons a as ih => simp [ih, and_assoc]

/-- **Pointwise reading.**  A run is disciplined iff each of its actions is, in the state the
actions before it lead to. -/
theorem along_iff (s : S) (as : List A) :
    Along step C s as ↔ ∀ pre a post, as = pre ++ a :: post → C (run step s pre) a := by
  constructor
  · rintro h pre a post rfl
    exact ((along_append s pre (a :: post)).mp h).2.1
  · intro h
    induction as generalizing s with
    | nil => trivial
    | cons a as ih =>
      refine ⟨h [] a as rfl, ih _ fun pre b post e => ?_⟩
      exact h (a :: pre) b post (by simp [e])

lemma Along.mono {s : S} {as : List A} (h : Along step C s as) (hCD : ∀ s a, C s a → D s a) :
    Along step D s as := by
  induction as generalizing s with
  | nil => trivial
  | cons a as ih => exact ⟨hCD _ _ h.1, ih h.2⟩

lemma along_and (s : S) (as : List A) :
    Along step (fun s a => C s a ∧ D s a) s as ↔ Along step C s as ∧ Along step D s as := by
  induction as generalizing s with
  | nil => simp
  | cons a as ih =>
    rw [along_cons, along_cons, along_cons, ih]
    exact and_and_and_comm

/-- What is asked of the actions alone holds all along the run. -/
lemma along_of_forall {P : A → Prop} {as : List A} (h : ∀ a ∈ as, P a) (s : S) :
    Along step (fun _ a => P a) s as := by
  induction as generalizing s with
  | nil => trivial
  | cons a as ih => exact ⟨h a List.mem_cons_self, ih (fun b hb => h b (List.mem_cons_of_mem a hb)) _⟩

/-! ### The invariant rules -/

/-- **The invariant rule.**  An invariant that every disciplined step preserves holds in the state a
disciplined run ends in. -/
theorem Along.inv {s : S} {as : List A} (h : Along step C s as) (h0 : I s)
    (hstep : ∀ s a, I s → C s a → I (step s a)) : I (run step s as) := by
  induction as generalizing s with
  | nil => exact h0
  | cons a as ih => exact ih h.2 (hstep _ _ h0 h.1)

/-- What the invariant and the discipline give of one step holds all along the run. -/
theorem Along.of_inv {s : S} {as : List A} (h : Along step C s as) (h0 : I s)
    (hstep : ∀ s a, I s → C s a → I (step s a)) (hD : ∀ s a, I s → C s a → D s a) :
    Along step D s as := by
  induction as generalizing s with
  | nil => trivial
  | cons a as ih => exact ⟨hD _ _ h0 h.1, ih h.2 (hstep _ _ h0 h.1)⟩

/-- Two disciplines that agree wherever the invariant holds accept the same runs. -/
theorem along_congr {s : S} {as : List A} (h0 : I s)
    (hstep : ∀ s a, I s → C s a → I (step s a)) (hCD : ∀ s a, I s → (D s a ↔ C s a)) :
    Along step D s as ↔ Along step C s as := by
  induction as generalizing s with
  | nil => simp
  | cons a as ih =>
    rw [along_cons, along_cons, hCD s a h0]
    exact and_congr_right fun hC => ih (hstep _ _ h0 hC)

/-- Two disciplines that agree wherever the invariant holds accept the same runs among those that keep
to a third one. -/
theorem along_congr_of {P : S → A → Prop} {s : S} {as : List A} (hP : Along step P s as) (h0 : I s)
    (hstep : ∀ s a, I s → P s a → C s a → I (step s a))
    (hCD : ∀ s a, I s → P s a → (D s a ↔ C s a)) : Along step D s as ↔ Along step C s as := by
  have hboth : Along step (fun s a => P s a ∧ D s a) s as ↔ Along step (fun s a => P s a ∧ C s a) s as :=
    along_congr h0 (fun s a h hPC => hstep s a h hPC.1 hPC.2)
      (fun s a h => and_congr_right (hCD s a h))
  rw [along_and, along_and] at hboth
  exact (and_congr_right_iff.mp hboth) hP

/-- If what is new after a disciplined step is new because `Q` holds, and `Q` is never without it, then it
holds after a run iff `Q` has held in the run. -/
theorem Along.since_iff {P Q : S → Prop} {s : S} {as : List A} (h : Along step C s as) (h0 : I s)
    (hstep : ∀ s a, I s → C s a → I (step s a)) (hfirst : P s ↔ Q s)
    (hnext : ∀ s a, I s → C s a → (P (step s a) ↔ P s ∨ Q (step s a))) :
    P (run step s as) ↔ ∃ pre, pre <+: as ∧ Q (run step s pre) := by
  induction as using List.reverseRecOn with
  | nil => simp [hfirst]
  | append_singleton as a ih =>
    obtain ⟨has, ha, -⟩ := (along_append s as [a]).mp h
    rw [run_snoc, hnext _ a (has.inv h0 hstep) ha, ih has]
    constructor
    · rintro (⟨pre, hpre, hQ⟩ | hQ)
      · exact ⟨pre, hpre.trans (List.prefix_append _ _), hQ⟩
      · refine ⟨as ++ [a], List.prefix_rfl, ?_⟩
        rw [run_snoc]
        exact hQ
    · rintro ⟨pre, hpre, hQ⟩
      rcases List.prefix_concat_iff.mp hpre with rfl | hpre
      · rw [run_snoc] at hQ
        exact Or.inr hQ
      · exact Or.inl ⟨pre, hpre, hQ⟩

/-- Without a discipline: what every step preserves holds at the end of every run. -/
theorem run_inv {s : S} (as : List A) (h0 : I s) (hstep : ∀ s a, I s → I (step s a)) :
    I (run step s as) := by
  induction as generalizing s with
  | nil => exact h0
  | cons a as ih => exact ih (hstep _ _ h0)

end Basic

/-! ### The last write wins -/

section LastWrite

variable {V : Type*}

/-- What the last action that writes has written, where `written` is what an action writes, if it does. -/
def lastWrite (written : A → Option V) (as : List A) : Option V := as.reverse.findSome? written

@[simp] lemma lastWrite_nil (written : A → Option V) : lastWrite written [] = none := rfl

@[simp] lemma lastWrite_snoc (written : A → Option V) (as : List A) (a : A) :
    lastWrite written (as ++ [a]) = (written a).or (lastWrite written as) := by
  unfold lastWrite
  rw [List.reverse_append, List.reverse_singleton, List.singleton_append, List.findSome?_cons]
  cases written a <;> rfl

/-- What each step writes or keeps reads, after a run, as the last write in it. -/
theorem run_read {step : S → A → S} (read : S → Option V) (written : A → Option V)
    (h : ∀ s a, read (step s a) = (written a).or (read s)) (s : S) (as : List A) :
    read (run step s as) = (lastWrite written as).or (read s) := by
  induction as using List.reverseRecOn with
  | nil => rfl
  | append_singleton as a ih => rw [run_snoc, h, ih, lastWrite_snoc, Option.or_assoc]

end LastWrite

/-- What each step adds at the end of a list is there after a run, in order. -/
theorem run_recorded {E : Type*} {step : S → A → S} (listed : S → List E) (added : A → E)
    (h : ∀ s a, listed (step s a) = listed s ++ [added a]) (s : S) (as : List A) :
    listed (run step s as) = listed s ++ as.map added := by
  induction as using List.reverseRecOn with
  | nil => exact (List.append_nil _).symm
  | append_singleton as a ih => rw [run_snoc, h, ih, List.map_append, List.append_assoc]; rfl

end Tmis.Lib
