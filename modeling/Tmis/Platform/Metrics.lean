import Mathlib.Algebra.Order.Ring.Rat
import Mathlib.Algebra.BigOperators.Group.List.Basic
import Mathlib.Data.List.Induction
import Mathlib.Data.List.Sort
import Mathlib.Data.Prod.Lex
import Mathlib.Data.String.Basic
import Tmis.Lib.Calls
import Tmis.Lib.Dict

/-!
# The registry of metrics

`platform.metrics.registry`: counters, gauges and histograms, each with its values under label sets, and the
lines in which they are exposed.  `str` prints a number.  A histogram counts an observation in the first
bucket that takes it, and cumulates when it renders.

* `labelKey`, `formatLabels`, `sampleLine` — label sets, and the line of a sample;
* `Counter`, `Gauge`, `Histogram` — the metrics, what is recorded in them, and `render`;
* `labelKey_eq_iff` — a key stands for its label set;
* `firstCounts`, `bucketLines_firstCounts` — what is counted first, and what is cumulated from it;
* `render_observed` — after any observations, a histogram exposes the counts and the sum of each label set.
-/

namespace Tmis.Platform.Metrics

open Tmis.Lib

/-- `LabelKey`: the labels of a sample, sorted. -/
abbrev LabelKey := List (String × String)

/-- `_label_key(labels)`. -/
def labelKey (labels : Dict String String) : LabelKey :=
  labels.entries.insertionSort fun a b => toLex a ≤ toLex b

/-- `_format_labels(key)`. -/
def formatLabels (key : LabelKey) : String :=
  if key = [] then ""
  else "\x7b" ++ ",".intercalate (key.map fun label => label.1 ++ "=\"" ++ label.2 ++ "\"") ++ "\x7d"

/-- The line of a sample, as every metric writes it. -/
def sampleLine (name : String) (key : LabelKey) (value : String) : String :=
  name ++ formatLabels key ++ " " ++ value

/-- The two lines that every metric begins with. -/
def headerLines (name helpText kind : String) : List String :=
  ["# HELP " ++ name ++ " " ++ helpText, "# TYPE " ++ name ++ " " ++ kind]

/-! ### Counters and gauges -/

section Values

variable {F : Type} [Zero F] [Add F] [Sub F]

structure Counter (F : Type) where
  name : String
  helpText : String
  values : Dict LabelKey F := ∅

namespace Counter

def inc (counter : Counter F) (amount : F) (labels : Dict String String) : Counter F :=
  let key := labelKey labels
  { counter with values := counter.values.set key ((counter.values.get key).getD 0 + amount) }

/-- The lines of the samples. -/
def sampleLines (str : F → String) (counter : Counter F) : List String :=
  counter.values.entries.map fun entry => sampleLine counter.name entry.1 (str entry.2)

def render (str : F → String) (counter : Counter F) : String :=
  "\n".intercalate (headerLines counter.name counter.helpText "counter" ++ counter.sampleLines str)

end Counter

structure Gauge (F : Type) where
  name : String
  helpText : String
  values : Dict LabelKey F := ∅

namespace Gauge

def set (gauge : Gauge F) (value : F) (labels : Dict String String) : Gauge F :=
  { gauge with values := gauge.values.set (labelKey labels) value }

def inc (gauge : Gauge F) (amount : F) (labels : Dict String String) : Gauge F :=
  let key := labelKey labels
  { gauge with values := gauge.values.set key ((gauge.values.get key).getD 0 + amount) }

def dec (gauge : Gauge F) (amount : F) (labels : Dict String String) : Gauge F :=
  let key := labelKey labels
  { gauge with values := gauge.values.set key ((gauge.values.get key).getD 0 - amount) }

/-- The lines of the samples. -/
def sampleLines (str : F → String) (gauge : Gauge F) : List String :=
  gauge.values.entries.map fun entry => sampleLine gauge.name entry.1 (str entry.2)

def render (str : F → String) (gauge : Gauge F) : String :=
  "\n".intercalate (headerLines gauge.name gauge.helpText "gauge" ++ gauge.sampleLines str)

end Gauge

end Values

/-! ### Histograms -/

structure Histogram (F : Type) where
  name : String
  helpText : String
  buckets : List F
  bucketCounts : Dict LabelKey (List ℕ) := ∅
  sums : Dict LabelKey F := ∅
  counts : Dict LabelKey ℕ := ∅

/-- The labels of a bucket: those of the sample, and its bound. -/
def bucketKey (key : LabelKey) (le : String) : LabelKey := labelKey ((Dict.ofEntries key).set "le" le)

def bucketLine (name : String) (key : LabelKey) (le : String) (count : ℕ) : String :=
  sampleLine (name ++ "_bucket") (bucketKey key le) (toString count)

/-- `zip(xs, ys, strict=True)`. -/
def zipStrict {α β : Type} (xs : List α) (ys : List β) : Except PyException (List (α × β)) :=
  if xs.length = ys.length then .ok (xs.zip ys)
  else
    .error (valueError ("zip() argument 2 is " ++ (if ys.length < xs.length then "shorter" else "longer") ++
      " than argument 1"))

namespace Histogram

section Model

variable {F : Type} [Zero F] [Add F] [LE F] [DecidableLE F]

/-- `Histogram(name, help_text, buckets)`. -/
def create (name helpText : String) (buckets : List F) : Histogram F :=
  { name, helpText, buckets := buckets.insertionSort (· ≤ ·) }

/-- The counts after an observation: one more in the first bucket whose bound is at least the value. -/
def countFirst (value : F) : List F → List ℕ → List ℕ
  | bound :: bounds, n :: counts =>
      if value ≤ bound then (n + 1) :: counts else n :: countFirst value bounds counts
  | _, counts => counts

def observe (histogram : Histogram F) (value : F) (labels : Dict String String) : Histogram F :=
  let key := labelKey labels
  let counts := (histogram.bucketCounts.get key).getD (List.replicate histogram.buckets.length 0)
  { histogram with
    bucketCounts := histogram.bucketCounts.set key (countFirst value histogram.buckets counts)
    sums := histogram.sums.set key ((histogram.sums.get key).getD 0 + value)
    counts := histogram.counts.set key ((histogram.counts.get key).getD 0 + 1) }

/-- The lines of the buckets of a label set, from a cumulated count on. -/
def bucketLines (str : F → String) (name : String) (key : LabelKey) (cumulative : ℕ) :
    List (F × ℕ) → List String
  | [] => []
  | (upperBound, bucketCount) :: rest =>
      bucketLine name key (str upperBound) (cumulative + bucketCount) ::
        bucketLines str name key (cumulative + bucketCount) rest

/-- The lines of a label set. -/
def keyLines (str : F → String) (histogram : Histogram F) (key : LabelKey) (counts : List ℕ) :
    Except PyException (List String) := do
  let pairs ← zipStrict histogram.buckets counts
  let count := (histogram.counts.get key).getD 0
  return bucketLines str histogram.name key 0 pairs ++
    [bucketLine histogram.name key "+Inf" count,
      sampleLine (histogram.name ++ "_sum") key (str ((histogram.sums.get key).getD 0)),
      sampleLine (histogram.name ++ "_count") key (toString count)]

def render (str : F → String) (histogram : Histogram F) : Except PyException String := do
  let blocks ← histogram.bucketCounts.entries.mapM fun entry => histogram.keyLines str entry.1 entry.2
  return "\n".intercalate (headerLines histogram.name histogram.helpText "histogram" ++ blocks.flatten)

/-- The histogram after observations. -/
def observeAll (histogram : Histogram F) (observations : List (F × Dict String String)) : Histogram F :=
  observations.foldl (fun histogram o => histogram.observe o.1 o.2) histogram

/-- Observing changes neither the texts nor the buckets. -/
lemma observeAll_frame (histogram : Histogram F) (observations : List (F × Dict String String)) :
    (histogram.observeAll observations).name = histogram.name ∧
      (histogram.observeAll observations).helpText = histogram.helpText ∧
      (histogram.observeAll observations).buckets = histogram.buckets := by
  induction observations generalizing histogram with
  | nil => exact ⟨rfl, rfl, rfl⟩
  | cons o observations ih => exact ih (histogram.observe o.1 o.2)

end Model

/-! ### Label sets and their keys -/

end Histogram

section Keys

variable {labels labels' : Dict String String}

lemma perm_labelKey (labels : Dict String String) : (labelKey labels).Perm labels.entries :=
  List.perm_insertionSort _ _

lemma mem_labelKey {label : String × String} : label ∈ labelKey labels ↔ labels.get label.1 = some label.2 := by
  rw [(perm_labelKey labels).mem_iff, Dict.mem_entries_iff]

/-- The labels of a key have distinct names. -/
lemma nodup_labelKey : ((labelKey labels).map Prod.fst).Nodup :=
  ((perm_labelKey labels).map Prod.fst).nodup_iff.mpr labels.nodup

/-- **A key stands for its label set.** -/
theorem labelKey_eq_iff : labelKey labels = labelKey labels' ↔ ∀ name, labels.get name = labels'.get name := by
  constructor
  · intro h name
    ext value
    have hmem : (name, value) ∈ labelKey labels ↔ labels.get name = some value := mem_labelKey
    rw [h, mem_labelKey] at hmem
    exact hmem.symm
  · intro h
    have hperm : labels.entries.Perm labels'.entries := by
      refine (List.perm_ext_iff_of_nodup labels.nodup.of_map labels'.nodup.of_map).mpr fun label => ?_
      rw [Dict.mem_entries_iff, Dict.mem_entries_iff, h]
    have hsorted := fun d : Dict String String =>
      List.pairwise_insertionSort (fun a b : String × String => toLex a ≤ toLex b) d.entries
    refine List.Perm.eq_of_pairwise (fun a b _ _ hab hba => toLex.injective (le_antisymm hab hba)) (hsorted labels)
      (hsorted labels') ?_
    exact (perm_labelKey labels).trans (hperm.trans (perm_labelKey labels').symm)

end Keys

namespace Histogram

section Exposition

/-- How many of the values each bucket is the first to take. -/
def firstCounts : List ℚ → List ℚ → List ℕ
  | [], _ => []
  | bound :: bounds, values =>
      values.countP (· ≤ bound) :: firstCounts bounds (values.filter (bound < ·))

lemma length_firstCounts : ∀ bounds values, (firstCounts bounds values).length = bounds.length
  | [], _ => rfl
  | _ :: bounds, _ => congrArg (· + 1) (length_firstCounts bounds _)

lemma firstCounts_nil : ∀ bounds, firstCounts bounds [] = List.replicate bounds.length 0
  | [] => rfl
  | _ :: bounds => congrArg (0 :: ·) (firstCounts_nil bounds)

/-- One more value is counted in the bucket that is the first to take it. -/
lemma countFirst_firstCounts (value : ℚ) : ∀ bounds values,
    countFirst value bounds (firstCounts bounds values) = firstCounts bounds (values ++ [value])
  | [], values => rfl
  | bound :: bounds, values => by
      rw [firstCounts, countFirst, firstCounts, List.countP_append, List.filter_append]
      by_cases hle : value ≤ bound
      · rw [if_pos hle, List.filter_cons_of_neg (by simpa using hle), List.filter_nil, List.append_nil,
          List.countP_cons_of_pos (by simpa using hle), List.countP_nil]
      · rw [if_neg hle, List.filter_cons_of_pos (by simpa using hle), List.filter_nil,
          List.countP_cons_of_neg (by simpa using hle), List.countP_nil, countFirst_firstCounts value bounds]
        rfl

/-- What a bucket does not take, a later one counts with what it takes itself. -/
lemma countP_add_countP {bound later : ℚ} (hle : bound ≤ later) (values : List ℚ) :
    values.countP (· ≤ bound) + (values.filter (bound < ·)).countP (· ≤ later) = values.countP (· ≤ later) := by
  induction values with
  | nil => rfl
  | cons value values ih =>
    by_cases hvalue : value ≤ bound
    · have hlater : value ≤ later := hvalue.trans hle
      rw [List.filter_cons_of_neg (by simpa using hvalue), List.countP_cons_of_pos (by simpa using hvalue),
        List.countP_cons_of_pos (by simpa using hlater)]
      omega
    · rw [List.filter_cons_of_pos (by simpa using hvalue), List.countP_cons_of_neg (by simpa using hvalue),
        List.countP_cons, List.countP_cons]
      omega

/-- **Cumulating**: what is rendered for a bound is how many values are at most as great. -/
theorem bucketLines_firstCounts (str : ℚ → String) (name : String) (key : LabelKey) :
    ∀ {bounds : List ℚ}, bounds.Pairwise (· ≤ ·) → ∀ (cumulative : ℕ) (values : List ℚ),
      bucketLines str name key cumulative (bounds.zip (firstCounts bounds values)) =
        bounds.map fun bound => bucketLine name key (str bound) (cumulative + values.countP (· ≤ bound))
  | [], _, _, _ => rfl
  | bound :: bounds, hsorted, cumulative, values => by
      obtain ⟨hbound, hsorted⟩ := List.pairwise_cons.mp hsorted
      rw [firstCounts, List.zip_cons_cons, bucketLines, bucketLines_firstCounts str name key hsorted,
        List.map_cons]
      congr 1
      refine List.map_congr_left fun later hlater => ?_
      rw [Nat.add_assoc, countP_add_countP (hbound later hlater)]

/-- The values observed under a label set. -/
def observed (key : LabelKey) (observations : List (ℚ × Dict String String)) : List ℚ :=
  (observations.filter fun o => labelKey o.2 = key).map Prod.fst

/-- What a label set is to expose of its values, for the bounds of the buckets. -/
def exposition (str : ℚ → String) (name : String) (bounds : List ℚ) (key : LabelKey) (values : List ℚ) :
    List String :=
  (bounds.map fun bound => bucketLine name key (str bound) (values.countP (· ≤ bound))) ++
    [bucketLine name key "+Inf" values.length, sampleLine (name ++ "_sum") key (str values.sum),
      sampleLine (name ++ "_count") key (toString values.length)]

/-- A histogram holds, for each label set, what its observations come to. -/
structure Holds (histogram : Histogram ℚ) (observations : List (ℚ × Dict String String)) : Prop where
  bucketCounts : ∀ key, histogram.bucketCounts.get key =
    if observed key observations = [] then none
    else some (firstCounts histogram.buckets (observed key observations))
  sums : ∀ key, (histogram.sums.get key).getD 0 = (observed key observations).sum
  counts : ∀ key, (histogram.counts.get key).getD 0 = (observed key observations).length

lemma observed_append (key : LabelKey) (observations : List (ℚ × Dict String String)) (value : ℚ)
    (labels : Dict String String) : observed key (observations ++ [(value, labels)]) =
      observed key observations ++ if labelKey labels = key then [value] else [] := by
  rw [observed, List.filter_append, List.map_append, observed]
  by_cases hkey : labelKey labels = key
  · simp [hkey]
  · simp [hkey]

/-- What one observation preserves. -/
lemma Holds.observe {histogram : Histogram ℚ} {observations : List (ℚ × Dict String String)}
    (h : histogram.Holds observations) (value : ℚ) (labels : Dict String String) :
    (histogram.observe value labels).Holds (observations ++ [(value, labels)]) := by
  have hcounts : (histogram.bucketCounts.get (labelKey labels)).getD
      (List.replicate histogram.buckets.length 0) =
        firstCounts histogram.buckets (observed (labelKey labels) observations) := by
    rw [h.bucketCounts]
    split
    · rename_i hnil
      rw [hnil, firstCounts_nil]
      rfl
    · rfl
  refine ⟨fun key => ?_, fun key => ?_, fun key => ?_⟩
  all_goals
    rw [observed_append]
    by_cases hkey : labelKey labels = key
  · subst hkey
    show (histogram.bucketCounts.set _ _).get _ = _
    rw [Dict.get_set_self, hcounts, countFirst_firstCounts, if_pos rfl, if_neg (by simp)]
    rfl
  · show (histogram.bucketCounts.set _ _).get _ = _
    rw [Dict.get_set_of_ne _ _ (Ne.symm hkey), h.bucketCounts, if_neg hkey, List.append_nil]
    rfl
  · subst hkey
    show ((histogram.sums.set _ _).get _).getD 0 = _
    rw [Dict.get_set_self, Option.getD_some, h.sums, if_pos rfl, List.sum_append, List.sum_singleton]
  · show ((histogram.sums.set _ _).get _).getD 0 = _
    rw [Dict.get_set_of_ne _ _ (Ne.symm hkey), h.sums, if_neg hkey, List.append_nil]
  · subst hkey
    show ((histogram.counts.set _ _).get _).getD 0 = _
    rw [Dict.get_set_self, Option.getD_some, h.counts, if_pos rfl, List.length_append, List.length_singleton]
  · show ((histogram.counts.set _ _).get _).getD 0 = _
    rw [Dict.get_set_of_ne _ _ (Ne.symm hkey), h.counts, if_neg hkey, List.append_nil]

lemma holds_create (name helpText : String) (buckets : List ℚ) : (create name helpText buckets).Holds [] :=
  ⟨fun _ => rfl, fun _ => rfl, fun _ => rfl⟩

/-- What any observations come to. -/
theorem holds_observeAll (name helpText : String) (buckets : List ℚ)
    (observations : List (ℚ × Dict String String)) :
    ((create name helpText buckets).observeAll observations).Holds observations := by
  induction observations using List.reverseRecOn with
  | nil => exact holds_create name helpText buckets
  | append_singleton observations o ih =>
    rw [observeAll, List.foldl_append]
    exact ih.observe o.1 o.2

/-- The lines of a label set that is known. -/
lemma Holds.keyLines {histogram : Histogram ℚ} {observations : List (ℚ × Dict String String)}
    (h : histogram.Holds observations) (hsorted : histogram.buckets.Pairwise (· ≤ ·)) (str : ℚ → String)
    {key : LabelKey} {counts : List ℕ} (hget : histogram.bucketCounts.get key = some counts) :
    histogram.keyLines str key counts =
      .ok (exposition str histogram.name histogram.buckets key (observed key observations)) := by
  rw [h.bucketCounts] at hget
  split at hget
  · cases hget
  · cases hget
    rw [Histogram.keyLines, zipStrict, if_pos (length_firstCounts _ _).symm, h.counts, h.sums]
    show Except.ok (bucketLines _ _ _ 0 _ ++ _) = _
    rw [bucketLines_firstCounts str histogram.name key hsorted, exposition]
    simp only [Nat.zero_add]

/-- The label sets that are known are those something was observed under. -/
lemma Holds.mem_keys {histogram : Histogram ℚ} {observations : List (ℚ × Dict String String)}
    (h : histogram.Holds observations) {key : LabelKey} :
    key ∈ histogram.bucketCounts.keys ↔ ∃ o ∈ observations, labelKey o.2 = key := by
  rw [Dict.mem_keys_iff, h.bucketCounts]
  constructor
  · rintro ⟨counts, hcounts⟩
    split at hcounts
    · cases hcounts
    · rename_i hne
      obtain ⟨value, hvalue⟩ := List.exists_mem_of_ne_nil _ hne
      obtain ⟨o, ho, -⟩ := List.mem_map.mp hvalue
      exact ⟨o, (List.mem_filter.mp ho).1, of_decide_eq_true (List.mem_filter.mp ho).2⟩
  · rintro ⟨o, ho, hkey⟩
    have hmem : o.1 ∈ observed key observations :=
      List.mem_map.mpr ⟨o, List.mem_filter.mpr ⟨ho, decide_eq_true hkey⟩, rfl⟩
    exact ⟨_, if_neg (List.ne_nil_of_mem hmem)⟩

lemma Holds.render {histogram : Histogram ℚ} {observations : List (ℚ × Dict String String)}
    (h : histogram.Holds observations) (hsorted : histogram.buckets.Pairwise (· ≤ ·)) (str : ℚ → String) :
    histogram.render str = .ok ("\n".intercalate (headerLines histogram.name histogram.helpText "histogram" ++
      histogram.bucketCounts.keys.flatMap fun key =>
        exposition str histogram.name histogram.buckets key (observed key observations))) := by
  have hblocks : histogram.bucketCounts.entries.mapM (fun entry => histogram.keyLines str entry.1 entry.2) =
      .ok (histogram.bucketCounts.entries.map fun entry =>
        exposition str histogram.name histogram.buckets entry.1 (observed entry.1 observations)) := by
    refine mapM_eq_ok.mpr (List.forall₂_map_right_iff.mpr (List.forall₂_same.mpr fun entry hentry => ?_))
    exact h.keyLines hsorted str (Dict.mem_entries_iff.mp hentry)
  rw [Histogram.render, hblocks, Dict.keys, List.flatMap_map]
  rfl

/-- **A histogram exposes what was observed.**  Rendering any observations gives, for each label set, as many
for each bound as are at most as great, all of them for `+Inf`, their sum and their number; the counts do not
decrease from bucket to bucket; and what a label set exposes depends on nothing that is observed under
another. -/
theorem render_observed (str : ℚ → String) (name helpText : String) (buckets : List ℚ)
    (observations : List (ℚ × Dict String String)) :
    (∃ keys : List LabelKey, keys.Nodup ∧ (∀ key, key ∈ keys ↔ ∃ o ∈ observations, labelKey o.2 = key) ∧
      ((create name helpText buckets).observeAll observations).render str =
        .ok ("\n".intercalate (headerLines name helpText "histogram" ++ keys.flatMap fun key =>
          exposition str name (buckets.insertionSort (· ≤ ·)) key (observed key observations)))) ∧
    (∀ key, ((buckets.insertionSort (· ≤ ·)).map fun bound =>
      (observed key observations).countP (· ≤ bound)).Pairwise (· ≤ ·)) ∧
    (∀ key bound, (observed key observations).countP (· ≤ bound) ≤ (observed key observations).length) ∧
    ∀ o key, labelKey (Prod.snd o) ≠ key → observed key (observations ++ [o]) = observed key observations := by
  have hsorted := List.pairwise_insertionSort (· ≤ ·) buckets
  refine ⟨?_, fun key => ?_, fun key bound => List.countP_le_length, fun o key hne => ?_⟩
  · obtain ⟨hname, hhelp, hbuckets⟩ := observeAll_frame (create name helpText buckets) observations
    have hholds := holds_observeAll name helpText buckets observations
    have hrender := hholds.render (by rw [hbuckets]; exact hsorted) str
    rw [hname, hhelp, hbuckets] at hrender
    exact ⟨_, Dict.nodup _, fun key => hholds.mem_keys, hrender⟩
  · refine List.Pairwise.map _ (fun bound later hle => ?_) hsorted
    refine List.countP_mono_left fun value _ hvalue => ?_
    exact decide_eq_true ((of_decide_eq_true hvalue).trans hle)
  · rw [observed_append key observations o.1 o.2, if_neg hne, List.append_nil]

end Exposition

end Histogram

end Tmis.Platform.Metrics
