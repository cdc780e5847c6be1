import Mathlib.Algebra.Order.BigOperators.Group.List
import Mathlib.Tactic.FieldSimp
import Mathlib.Tactic.Linarith
import Tmis.LegalReasoning.Reasoning

/-!
# The confidence engine

`legal_reasoning.confidence`: how many arguments support a hypothesis, how reliable its evidence is, and how few
counter-arguments there are, weighted.

* `ConfidenceWeights`, `score` — the weights and the score;
* `argumentSupport_mono`, `absence_mono`, `absence_anti` — the factors, across their special cases;
* `confidence_laws` — the score is a part of one; what raises it, what lowers it, and what it does not see.
-/

namespace Tmis.LegalReasoning

open Tmis.Lib PyFloat

structure ConfidenceWeights (F : Type) where
  argumentSupport : F
  evidenceReliability : F
  absenceOfCounterArguments : F

structure ConfidenceScore (F : Type) where
  hypothesisId : Uuid
  value : F
  explanation : String
  factors : Dict String F

section Score

variable {F : Type} [PyFloat F]

/-- `ConfidenceWeights()`. -/
def ConfidenceWeights.default : ConfidenceWeights F := ⟨ofRat (2 / 5), ofRat (7 / 20), ofRat (1 / 4)⟩

/-- `normalized`: the weights as parts of their sum. -/
def ConfidenceWeights.normalized (w : ConfidenceWeights F) : ConfidenceWeights F :=
  let total := add (add w.argumentSupport w.evidenceReliability) w.absenceOfCounterArguments
  if le total (ofRat 0) then ⟨ofRat (1 / 3), ofRat (1 / 3), ofRat (1 / 3)⟩
  else ⟨div w.argumentSupport total, div w.evidenceReliability total, div w.absenceOfCounterArguments total⟩

def maxArgumentsForFullSupport : ℕ := 3

/-- `argument_support` of so many arguments. -/
def argumentSupport (n : ℕ) : F := PyFloat.min (ofRat 1) (ofRat (n / maxArgumentsForFullSupport))

/-- `evidence_reliability`. -/
def evidenceReliability (evidence : List (ReasoningEvidenceLink F)) : F :=
  if evidence = [] then ofRat 0
  else div (PyFloat.sum (evidence.map (·.reliabilityScore))) (ofRat evidence.length)

/-- `absence_of_counter_arguments`, of `m` against `n` arguments: without an argument there is nothing to be
countered, and this is no positive signal. -/
def absenceOfCounterArguments (n m : ℕ) : F :=
  if n = 0 then ofRat 0
  else if m = 0 then ofRat 1
  else PyFloat.max (ofRat 0) (sub (ofRat 1) (ofRat (m / n)))

variable (hypothesis : Hypothesis F)

def argumentsOf (arguments : List (Argument F)) : List (Argument F) :=
  arguments.filter fun a => a.hypothesisId = hypothesis.id

def countersOf (arguments : List (Argument F)) (counterArguments : List (CounterArgument F)) :
    List (CounterArgument F) :=
  counterArguments.filter fun c => c.argumentId ∈ (argumentsOf hypothesis arguments).map (·.id)

def evidenceOf (evidenceLinks : List (ReasoningEvidenceLink F)) : List (ReasoningEvidenceLink F) :=
  evidenceLinks.filter fun e => e.hypothesisId = some hypothesis.id

/-- The score of some arguments, counter-arguments and evidence of a hypothesis. -/
def scoreOf (fixed2 : F → String) (weights : ConfidenceWeights F) (n m : ℕ)
    (evidence : List (ReasoningEvidenceLink F)) : ConfidenceScore F where
  hypothesisId := hypothesis.id
  value := add (add (mul weights.argumentSupport (argumentSupport n))
    (mul weights.evidenceReliability (evidenceReliability evidence)))
    (mul weights.absenceOfCounterArguments (absenceOfCounterArguments n m))
  explanation := toString n ++ " argument(s) favorable(s), fiabilité moyenne des preuves " ++
    fixed2 (evidenceReliability evidence) ++ ", " ++ toString m ++ " contre-argument(s) recensé(s)."
  factors := Dict.ofEntries [("argument_support", argumentSupport n),
    ("evidence_reliability", evidenceReliability evidence),
    ("absence_of_counter_arguments", absenceOfCounterArguments n m)]

/-- `ConfigurableConfidenceEngine.score`; `fixed2` is the format `.2f`. -/
def score (fixed2 : F → String) (arguments : List (Argument F)) (counterArguments : List (CounterArgument F))
    (evidenceLinks : List (ReasoningEvidenceLink F)) (weights : Option (ConfidenceWeights F)) : ConfidenceScore F :=
  scoreOf hypothesis fixed2 (weights.getD .default).normalized (argumentsOf hypothesis arguments).length
    (countersOf hypothesis arguments counterArguments).length (evidenceOf hypothesis evidenceLinks)

end Score

/-! ### The factors -/

section Factors

variable {n n' m m' : ℕ}

lemma argumentSupport_eq (n : ℕ) : (argumentSupport n : ℚ) = Min.min 1 ((n : ℚ) / 3) := PyFloat.min_rat ..

lemma argumentSupport_nonneg (n : ℕ) : 0 ≤ (argumentSupport n : ℚ) := by
  rw [argumentSupport_eq]
  exact le_min zero_le_one (by positivity)

lemma argumentSupport_le_one (n : ℕ) : (argumentSupport n : ℚ) ≤ 1 := by
  rw [argumentSupport_eq]
  exact min_le_left _ _

lemma argumentSupport_mono (h : n ≤ n') : (argumentSupport n : ℚ) ≤ argumentSupport n' := by
  rw [argumentSupport_eq, argumentSupport_eq]
  have hcast : (n : ℚ) ≤ n' := Nat.cast_le.mpr h
  exact min_le_min_left _ (by gcongr)

/-- With an argument, no counter-argument is not a case of its own. -/
lemma absence_eq (hn : 0 < n) (m : ℕ) :
    (absenceOfCounterArguments n m : ℚ) = Max.max 0 (1 - (m : ℚ) / n) := by
  rw [absenceOfCounterArguments, if_neg hn.ne']
  split_ifs with hm
  · rw [hm, Nat.cast_zero, zero_div, sub_zero, max_eq_right zero_le_one]
    rfl
  · exact PyFloat.max_rat ..

lemma absence_zero (m : ℕ) : (absenceOfCounterArguments 0 m : ℚ) = 0 := if_pos rfl

lemma absence_nonneg (n m : ℕ) : 0 ≤ (absenceOfCounterArguments n m : ℚ) := by
  obtain rfl | hn := Nat.eq_zero_or_pos n
  · rw [absence_zero]
  · rw [absence_eq hn]
    exact le_max_left _ _

lemma absence_le_one (n m : ℕ) : (absenceOfCounterArguments n m : ℚ) ≤ 1 := by
  obtain rfl | hn := Nat.eq_zero_or_pos n
  · rw [absence_zero]
    exact zero_le_one
  · have hpart : 0 ≤ (m : ℚ) / n := by positivity
    rw [absence_eq hn]
    exact max_le zero_le_one (by linarith)

/-- More counter-arguments never raise it. -/
lemma absence_anti (n : ℕ) (h : m ≤ m') :
    (absenceOfCounterArguments n m' : ℚ) ≤ absenceOfCounterArguments n m := by
  obtain rfl | hn := Nat.eq_zero_or_pos n
  · rw [absence_zero, absence_zero]
  · have hcast : (m : ℚ) ≤ m' := Nat.cast_le.mpr h
    rw [absence_eq hn, absence_eq hn]
    exact max_le_max_left _ (by gcongr)

/-- More arguments never lower it, the first one included. -/
lemma absence_mono (m : ℕ) (h : n ≤ n') :
    (absenceOfCounterArguments n m : ℚ) ≤ absenceOfCounterArguments n' m := by
  obtain rfl | hn := Nat.eq_zero_or_pos n
  · rw [absence_zero]
    exact absence_nonneg _ _
  · have hpos : (0 : ℚ) < n := Nat.cast_pos.mpr hn
    have hcast : (n : ℚ) ≤ n' := Nat.cast_le.mpr h
    rw [absence_eq hn, absence_eq (hn.trans_le h)]
    exact max_le_max_left _ (by gcongr)

variable {evidence : List (ReasoningEvidenceLink ℚ)}

/-- The mean of what lies between zero and one. -/
lemma evidenceReliability_mem (h : ∀ e ∈ evidence, 0 ≤ e.reliabilityScore ∧ e.reliabilityScore ≤ 1) :
    0 ≤ evidenceReliability evidence ∧ evidenceReliability evidence ≤ 1 := by
  unfold evidenceReliability
  split_ifs with hevidence
  · exact ⟨le_refl _, zero_le_one⟩
  · have hpos : (0 : ℚ) < evidence.length := Nat.cast_pos.mpr (List.length_pos_of_ne_nil hevidence)
    have hnonneg : 0 ≤ (evidence.map (·.reliabilityScore)).sum :=
      List.sum_nonneg (List.forall_mem_map.mpr fun e he => (h e he).1)
    have hle : (evidence.map (·.reliabilityScore)).sum ≤ (evidence.map (·.reliabilityScore)).length • (1 : ℚ) :=
      List.sum_le_card_nsmul _ _ (List.forall_mem_map.mpr fun e he => (h e he).2)
    rw [List.length_map, nsmul_one] at hle
    exact ⟨div_nonneg hnonneg hpos.le, (div_le_one hpos).mpr hle⟩

end Factors

/-! ### The weights -/

namespace ConfidenceWeights

structure NonNeg (w : ConfidenceWeights ℚ) : Prop where
  argumentSupport : 0 ≤ w.argumentSupport
  evidenceReliability : 0 ≤ w.evidenceReliability
  absenceOfCounterArguments : 0 ≤ w.absenceOfCounterArguments

def scale (k : ℚ) (w : ConfidenceWeights ℚ) : ConfidenceWeights ℚ :=
  ⟨k * w.argumentSupport, k * w.evidenceReliability, k * w.absenceOfCounterArguments⟩

lemma normalized_eq (w : ConfidenceWeights ℚ) :
    w.normalized =
      if w.argumentSupport + w.evidenceReliability + w.absenceOfCounterArguments ≤ 0 then ⟨1 / 3, 1 / 3, 1 / 3⟩
      else ⟨w.argumentSupport / (w.argumentSupport + w.evidenceReliability + w.absenceOfCounterArguments),
        w.evidenceReliability / (w.argumentSupport + w.evidenceReliability + w.absenceOfCounterArguments),
        w.absenceOfCounterArguments / (w.argumentSupport + w.evidenceReliability + w.absenceOfCounterArguments)⟩ :=
  if_congr decide_eq_true_iff rfl rfl

/-- Normalized weights are parts of one. -/
lemma NonNeg.normalized {w : ConfidenceWeights ℚ} (h : w.NonNeg) : w.normalized.NonNeg ∧
    w.normalized.argumentSupport + w.normalized.evidenceReliability + w.normalized.absenceOfCounterArguments = 1 := by
  rw [normalized_eq]
  split_ifs with htotal
  · exact ⟨⟨by norm_num, by norm_num, by norm_num⟩, by norm_num⟩
  · have hpos := not_le.mp htotal
    refine ⟨⟨div_nonneg h.1 hpos.le, div_nonneg h.2 hpos.le, div_nonneg h.3 hpos.le⟩, ?_⟩
    dsimp only
    rw [← add_div, ← add_div, div_self hpos.ne']

lemma normalized_scale {k : ℚ} (hk : 0 < k) (w : ConfidenceWeights ℚ) : (w.scale k).normalized = w.normalized := by
  have htotal : k * w.argumentSupport + k * w.evidenceReliability + k * w.absenceOfCounterArguments =
      k * (w.argumentSupport + w.evidenceReliability + w.absenceOfCounterArguments) := by ring
  have hsign : k * (w.argumentSupport + w.evidenceReliability + w.absenceOfCounterArguments) ≤ 0 ↔
      w.argumentSupport + w.evidenceReliability + w.absenceOfCounterArguments ≤ 0 :=
    not_lt.symm.trans ((not_congr (mul_pos_iff_of_pos_left hk)).trans not_lt)
  rw [normalized_eq, normalized_eq]
  simp only [scale, htotal, hsign, mul_div_mul_left _ _ hk.ne']

lemma default_nonNeg : (default : ConfidenceWeights ℚ).NonNeg :=
  ⟨by decide +kernel, by decide +kernel, by decide +kernel⟩

end ConfidenceWeights

/-! ### The score -/

section Laws

variable {fixed2 : ℚ → String} {weights : Option (ConfidenceWeights ℚ)} {hypothesis : Hypothesis ℚ}
  {arguments : List (Argument ℚ)} {counterArguments : List (CounterArgument ℚ)}
  {evidenceLinks : List (ReasoningEvidenceLink ℚ)}

lemma value_scoreOf (fixed2 : ℚ → String) (hypothesis : Hypothesis ℚ) (w : ConfidenceWeights ℚ) (n m : ℕ)
    (evidence : List (ReasoningEvidenceLink ℚ)) :
    (scoreOf hypothesis fixed2 w n m evidence).value = w.argumentSupport * argumentSupport n +
      w.evidenceReliability * evidenceReliability evidence + w.absenceOfCounterArguments *
        absenceOfCounterArguments n m := rfl

/-- A mean of three parts of one. -/
lemma value_mem {w : ConfidenceWeights ℚ} (hw : w.NonNeg)
    (hone : w.argumentSupport + w.evidenceReliability + w.absenceOfCounterArguments = 1)
    {evidence : List (ReasoningEvidenceLink ℚ)}
    (h : ∀ e ∈ evidence, 0 ≤ e.reliabilityScore ∧ e.reliabilityScore ≤ 1) (n m : ℕ) :
    0 ≤ (scoreOf hypothesis fixed2 w n m evidence).value ∧
      (scoreOf hypothesis fixed2 w n m evidence).value ≤ 1 := by
  obtain ⟨hargument, hevidence, habsence⟩ := hw
  obtain ⟨hreliable, hreliable'⟩ := evidenceReliability_mem h
  have hsupport := mul_le_of_le_one_right hargument (argumentSupport_le_one n)
  have hmean := mul_le_of_le_one_right hevidence hreliable'
  have hfree := mul_le_of_le_one_right habsence (absence_le_one n m)
  have hsupport' := mul_nonneg hargument (argumentSupport_nonneg n)
  have hmean' := mul_nonneg hevidence hreliable
  have hfree' := mul_nonneg habsence (absence_nonneg n m)
  rw [value_scoreOf]
  constructor <;> linarith

/-- More counter-arguments never raise a score. -/
lemma value_anti {w : ConfidenceWeights ℚ} (hw : w.NonNeg) (evidence : List (ReasoningEvidenceLink ℚ)) (n : ℕ)
    {m m' : ℕ} (h : m ≤ m') :
    (scoreOf hypothesis fixed2 w n m' evidence).value ≤ (scoreOf hypothesis fixed2 w n m evidence).value := by
  have hfree := mul_le_mul_of_nonneg_left (absence_anti n h) hw.absenceOfCounterArguments
  rw [value_scoreOf, value_scoreOf]
  linarith

/-- More arguments never lower a score. -/
lemma value_mono {w : ConfidenceWeights ℚ} (hw : w.NonNeg) (evidence : List (ReasoningEvidenceLink ℚ)) {n n' : ℕ}
    (m : ℕ) (h : n ≤ n') :
    (scoreOf hypothesis fixed2 w n m evidence).value ≤ (scoreOf hypothesis fixed2 w n' m evidence).value := by
  have hsupport := mul_le_mul_of_nonneg_left (argumentSupport_mono h) hw.argumentSupport
  have hfree := mul_le_mul_of_nonneg_left (absence_mono m h) hw.absenceOfCounterArguments
  rw [value_scoreOf, value_scoreOf]
  linarith

lemma nonNeg_getD (hweights : ∀ w ∈ weights, w.NonNeg) : (weights.getD .default).NonNeg := by
  cases weights with
  | none => exact ConfidenceWeights.default_nonNeg
  | some w => exact hweights w rfl

/-- What is left out of a filter may stand anywhere. -/
lemma filter_insert_of_neg {α : Type} {p : α → Bool} {x : α} (hx : ¬ p x = true) (before after : List α) :
    (before ++ x :: after).filter p = (before ++ after).filter p := by
  rw [List.filter_append, List.filter_append, List.filter_cons_of_neg hx]

lemma length_filter_insert_le {α : Type} (p : α → Bool) (x : α) (before after : List α) :
    ((before ++ after).filter p).length ≤ ((before ++ x :: after).filter p).length := by
  have hsub : (before ++ after).Sublist (before ++ x :: after) :=
    (List.Sublist.refl _).append (List.sublist_cons_self _ _)
  exact (hsub.filter p).length_le

/-- An argument that no counter-argument names has none. -/
lemma countersOf_insert {argument : Argument ℚ} (hfresh : ∀ c ∈ counterArguments, c.argumentId ≠ argument.id)
    (before after : List (Argument ℚ)) :
    countersOf hypothesis (before ++ argument :: after) counterArguments =
      countersOf hypothesis (before ++ after) counterArguments := by
  refine List.filter_congr fun c hc => decide_eq_decide.mpr ?_
  have hne := hfresh c hc
  simp only [argumentsOf, List.mem_map, List.mem_filter, List.mem_append, List.mem_cons]
  constructor
  · rintro ⟨a, ⟨hmem, ha⟩, hid⟩
    obtain hmem | rfl | hmem := hmem
    · exact ⟨a, ⟨Or.inl hmem, ha⟩, hid⟩
    · exact absurd hid.symm hne
    · exact ⟨a, ⟨Or.inr hmem, ha⟩, hid⟩
  · rintro ⟨a, ⟨hmem, ha⟩, hid⟩
    exact ⟨a, ⟨hmem.imp_right Or.inr, ha⟩, hid⟩

/-- **The laws of a score**, in exact arithmetic: it is a part of one; a counter-argument never raises it, and an
argument that has not been countered never lowers it; what is about other hypotheses, it does not see; and of the
weights only their proportions count. -/
theorem confidence_laws (fixed2 : ℚ → String) (weights : Option (ConfidenceWeights ℚ))
    (hweights : ∀ w ∈ weights, w.NonNeg) (hypothesis : Hypothesis ℚ) (arguments : List (Argument ℚ))
    (counterArguments : List (CounterArgument ℚ)) (evidenceLinks : List (ReasoningEvidenceLink ℚ))
    (hreliable : ∀ e ∈ evidenceLinks, 0 ≤ e.reliabilityScore ∧ e.reliabilityScore ≤ 1) :
    (0 ≤ (score hypothesis fixed2 arguments counterArguments evidenceLinks weights).value ∧
      (score hypothesis fixed2 arguments counterArguments evidenceLinks weights).value ≤ 1) ∧
    (∀ counter before after, counterArguments = before ++ after →
      (score hypothesis fixed2 arguments (before ++ counter :: after) evidenceLinks weights).value ≤
        (score hypothesis fixed2 arguments counterArguments evidenceLinks weights).value) ∧
    (∀ argument before after, arguments = before ++ after → argument.hypothesisId = hypothesis.id →
      (∀ c ∈ counterArguments, c.argumentId ≠ argument.id) →
      (score hypothesis fixed2 arguments counterArguments evidenceLinks weights).value ≤
        (score hypothesis fixed2 (before ++ argument :: after) counterArguments evidenceLinks weights).value) ∧
    (∀ argument before after, arguments = before ++ after → argument.hypothesisId ≠ hypothesis.id →
      score hypothesis fixed2 (before ++ argument :: after) counterArguments evidenceLinks weights =
        score hypothesis fixed2 arguments counterArguments evidenceLinks weights) ∧
    (∀ counter before after, counterArguments = before ++ after →
      (∀ a ∈ arguments, a.hypothesisId = hypothesis.id → counter.argumentId ≠ a.id) →
      score hypothesis fixed2 arguments (before ++ counter :: after) evidenceLinks weights =
        score hypothesis fixed2 arguments counterArguments evidenceLinks weights) ∧
    (∀ link before after, evidenceLinks = before ++ after → link.hypothesisId ≠ some hypothesis.id →
      score hypothesis fixed2 arguments counterArguments (before ++ link :: after) weights =
        score hypothesis fixed2 arguments counterArguments evidenceLinks weights) ∧
    ∀ k w, 0 < k → score hypothesis fixed2 arguments counterArguments evidenceLinks (some (w.scale k)) =
      score hypothesis fixed2 arguments counterArguments evidenceLinks (some w) := by
  obtain ⟨hnonneg, hone⟩ := (nonNeg_getD hweights).normalized
  refine ⟨?_, ?_, ?_, ?_, ?_, ?_, ?_⟩
  · exact value_mem hnonneg hone (fun e he => hreliable e (List.mem_of_mem_filter he)) _ _
  · rintro counter before after rfl
    exact value_anti hnonneg _ _ (length_filter_insert_le ..)
  · rintro argument before after rfl hid hfresh
    rw [score, score, countersOf_insert hfresh]
    exact value_mono hnonneg _ _ (length_filter_insert_le ..)
  · rintro argument before after rfl hid
    have hsame : argumentsOf hypothesis (before ++ argument :: after) = argumentsOf hypothesis (before ++ after) := by
      refine filter_insert_of_neg (fun h => ?_) _ _
      exact hid (of_decide_eq_true h)
    rw [score, score, countersOf, countersOf, hsame]
  · rintro counter before after rfl hother
    have hsame : countersOf hypothesis arguments (before ++ counter :: after) =
        countersOf hypothesis arguments (before ++ after) := by
      refine filter_insert_of_neg (fun h => ?_) _ _
      obtain ⟨a, ha, hid⟩ := List.mem_map.mp (of_decide_eq_true h)
      obtain ⟨hmem, ha⟩ := List.mem_filter.mp ha
      exact hother a hmem (of_decide_eq_true ha) hid.symm
    rw [score, score, hsame]
  · rintro link before after rfl hother
    have hsame : evidenceOf hypothesis (before ++ link :: after) = evidenceOf hypothesis (before ++ after) := by
      refine filter_insert_of_neg (fun h => ?_) _ _
      exact hother (of_decide_eq_true h)
    rw [score, score, hsame]
  · intro k w hk
    rw [score, score, Option.getD_some, Option.getD_some, ConfidenceWeights.normalized_scale hk]

/-- One argument that is countered twice, with the weights all zero. -/
theorem confidence_laws_zero :
    (score ({ id := 1, description := "", confidence := 0 } : Hypothesis ℚ) PyFloat.decimal [⟨2, 1, "", "", "", "", 1⟩]
      [⟨3, 2, "", "", "", "", 1⟩, ⟨4, 2, "", "", "", "", 1⟩] [⟨5, none, none, some 1, none, 1 / 2⟩]
      (some ⟨0, 0, 0⟩)).value ≤ 1 :=
  (confidence_laws PyFloat.decimal (some ⟨0, 0, 0⟩)
    (fun w hw => Option.some.inj hw ▸ ⟨le_refl _, le_refl _, le_refl _⟩) { id := 1, description := "", confidence := 0 }
    [⟨2, 1, "", "", "", "", 1⟩] [⟨3, 2, "", "", "", "", 1⟩, ⟨4, 2, "", "", "", "", 1⟩]
    [⟨5, none, none, some 1, none, 1 / 2⟩]
    (List.forall_mem_singleton.mpr ⟨by norm_num, by norm_num⟩)).1.2

end Laws

end Tmis.LegalReasoning
