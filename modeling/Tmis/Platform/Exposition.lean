import Tmis.Lib.TextExposition
import Tmis.Platform.Metrics

/-!
# What the exposition of metrics tells

Whether the lines that metrics render can be told apart, and are read as what they were rendered from.
Labels are written as they are: where a value holds a quote, a backslash or a line feed, or a name is none
of the grammar's, the line reads as something else.  The bucket of a histogram replaces a label `le`.

* `Numbers` — how numbers are printed and read;
* `Reading`, `ReadsBack`, `Unambiguous` — what a line tells of a label set, and that it does tell it;
* `Legible` — the names are names, the values need no escapes, and a bucket has a label of its own;
* `readsBack_iff`, `unambiguous_iff` — a line is read as what it was rendered from iff it is legible;
* `exposition_unambiguous_iff` — for each metric, after any recordings.
-/

set_option linter.unusedSectionVars false

namespace Tmis.Platform.Exposition

open Tmis.Lib Tmis.Lib.TextExposition Tmis.Platform.Metrics

/-- How numbers are printed, and how they are read: `float(str(x)) == x`. -/
structure Numbers (F : Type) [NatCast F] where
  str : F → String
  read : String → Option F
  isNumeral_str : ∀ x, isNumeral (str x) = true
  read_str : ∀ x, read (str x) = some x
  read_nat : ∀ n : ℕ, read (toString n) = some (n : F)

/-- What a line tells of a label set. -/
inductive Reading (F : Type) where
  | value (x : F)
  /-- Without a bound, all observations. -/
  | bucket (bound : Option F) (count : ℕ)
  | sum (x : F)
  | count (n : ℕ)

section Lines

variable {F : Type} [NatCast F] (numbers : Numbers F) (name : String) (labels : Dict String String)

namespace Reading

def suffix : Reading F → String
  | .value _ => ""
  | .bucket _ _ => "_bucket"
  | .sum _ => "_sum"
  | .count _ => "_count"

/-- The label `le` of a bucket. -/
def le : Reading F → Option String
  | .bucket bound _ => some (bound.elim "+Inf" numbers.str)
  | _ => none

def number : Reading F → F
  | .value x => x
  | .bucket _ n => n
  | .sum x => x
  | .count n => n

/-- The line that a metric renders. -/
def line : Reading F → String
  | .value x => sampleLine name (labelKey labels) (numbers.str x)
  | .bucket bound n => bucketLine name (labelKey labels) (bound.elim "+Inf" numbers.str) n
  | .sum x => sampleLine (name ++ "_sum") (labelKey labels) (numbers.str x)
  | .count n => sampleLine (name ++ "_count") (labelKey labels) (toString n)

end Reading

/-- The line is read as what it was rendered from: its name and number, the `le` of a bucket, and apart from
that the label set. -/
def ReadsBack (reading : Reading F) : Prop :=
  ∃ sample, readSample numbers.read (reading.line numbers name labels) = some sample ∧
    sample.name = name ++ reading.suffix ∧ sample.value = reading.number ∧
    match reading.le numbers with
    | none => ∀ label, sample.labels.get label = labels.get label
    | some le => sample.labels.get "le" = some le ∧ ∀ label, (sample.labels.pop "le").get label = labels.get label

/-- Every line is read as what it was rendered from, and those of different label sets differ. -/
def Unambiguous (samples : List (Dict String String × Reading F)) : Prop :=
  (∀ s ∈ samples, ReadsBack numbers name s.1 s.2) ∧
  ∀ s ∈ samples, ∀ t ∈ samples, (∃ label, s.1.get label ≠ t.1.get label) →
    s.2.line numbers name s.1 ≠ t.2.line numbers name t.1

/-- The names of the labels are names, and their values need no escapes. -/
def PlainLabels : Prop := ∀ label ∈ labels.entries, isLabelName label.1 = true ∧ isPlain label.2 = true

/-- The names are names, the values need no escapes, and a bucket has the label `le` for itself. -/
structure Legible (reading : Reading F) : Prop where
  isName : isMetricName (name ++ reading.suffix) = true
  plain : PlainLabels labels
  free : ∀ le, reading.le numbers = some le → labels.get "le" = none

/-! ### One line -/

lemma toList_formatLabels {key : LabelKey} (hne : key ≠ []) (rest : List Char) :
    (formatLabels key).toList ++ rest = '{' :: plainLabels key rest := by
  have hmore : ∀ (label : String × String) (key : LabelKey),
      (",".intercalate ((label :: key).map fun label => label.1 ++ "=\"" ++ label.2 ++ "\"")).toList ++ '}' :: rest =
        plainLabel label (plainMore key rest) := by
    intro label key
    rw [String.toList_intercalate]
    induction key generalizing label with
    | nil => simp [plainLabel, plainMore]
    | cons next key ih =>
      have ih := ih next
      simp only [List.map_cons, List.map_map] at ih ⊢
      rw [List.intercalate_cons_cons]
      simp only [List.append_assoc]
      rw [ih]
      simp [plainLabel, plainMore]
  cases key with
  | nil => exact absurd rfl hne
  | cons label key =>
    rw [formatLabels, if_neg hne, plainLabels, ← hmore label key]
    simp

/-- The line of a sample is written as it is. -/
lemma sampleLine_eq (key : LabelKey) (value : String) :
    sampleLine name key value = String.ofList (plainLine name key value) := by
  refine String.toList_injective ?_
  rw [String.toList_ofList, sampleLine, plainLine]
  by_cases hnil : key = []
  · subst hnil
    simp [formatLabels]
  · rw [if_neg hnil, ← toList_formatLabels hnil]
    simp

/-- What the line of a reading is made of: its labels, with the `le` of a bucket among them, and its number. -/
def Reading.written : Reading F → Dict String String
  | .bucket bound _ => labels.set "le" (bound.elim "+Inf" numbers.str)
  | _ => labels

def Reading.text : Reading F → String
  | .value x => numbers.str x
  | .bucket _ n => toString n
  | .sum x => numbers.str x
  | .count n => toString n

variable {numbers name labels}

lemma get_ofEntries_labelKey (label : String) :
    (Dict.ofEntries (labelKey labels)).get label = labels.get label := by
  ext value
  rw [← Dict.mem_entries_iff, Dict.entries_ofEntries nodup_labelKey, mem_labelKey]

lemma bucketKey_labelKey (le : String) : bucketKey (labelKey labels) le = labelKey (labels.set "le" le) := by
  refine labelKey_eq_iff.mpr fun label => ?_
  rw [Dict.get_set, Dict.get_set, get_ofEntries_labelKey]

lemma perm_labelKey_iff {read : Dict String String} :
    read.entries.Perm (labelKey labels) ↔ ∀ label, read.get label = labels.get label := by
  constructor
  · intro hperm label
    ext value
    rw [← Dict.mem_entries_iff, hperm.mem_iff, mem_labelKey]
  · intro h
    rw [← labelKey_eq_iff] at h
    exact (perm_labelKey read).symm.trans (h ▸ List.Perm.refl _)

lemma Reading.line_eq (reading : Reading F) : reading.line numbers name labels =
    sampleLine (name ++ reading.suffix) (labelKey (reading.written numbers labels)) (reading.text numbers) := by
  cases reading with
  | value x => exact congrArg (sampleLine · (labelKey labels) (numbers.str x)) String.append_empty.symm
  | bucket bound n => exact congrArg (sampleLine (name ++ "_bucket") · (toString n)) (bucketKey_labelKey _)
  | sum x => rfl
  | count n => rfl

lemma isNumeral_toString (n : ℕ) : isNumeral (toString n) = true := by
  rw [isNumeral, List.all_eq_true]
  intro c hc
  rw [Char.isAlphanum, isDigit_of_mem_toString hc]
  simp

lemma Reading.isNumeral_text (reading : Reading F) : isNumeral (reading.text numbers) = true := by
  cases reading with
  | value x => exact numbers.isNumeral_str x
  | bucket bound n => exact isNumeral_toString n
  | sum x => exact numbers.isNumeral_str x
  | count n => exact isNumeral_toString n

lemma Reading.read_text (reading : Reading F) : numbers.read (reading.text numbers) = some reading.number := by
  cases reading with
  | value x => exact numbers.read_str x
  | bucket bound n => exact numbers.read_nat n
  | sum x => exact numbers.read_str x
  | count n => exact numbers.read_nat n

lemma isPlain_bound (bound : Option F) : isPlain (bound.elim "+Inf" numbers.str) = true := by
  cases bound with
  | none =>
    show isPlain "+Inf" = true
    decide
  | some x => exact isPlain_of_isNumeral (numbers.isNumeral_str x)

variable (numbers name labels) in
/-- When a line is read as the labels that are written on it. -/
lemma readSample_line_iff (reading : Reading F) :
    (∃ sample, readSample numbers.read (reading.line numbers name labels) = some sample ∧
      sample.name = name ++ reading.suffix ∧ sample.value = reading.number ∧
      ∀ label, sample.labels.get label = (reading.written numbers labels).get label) ↔
    isMetricName (name ++ reading.suffix) = true ∧
      ∀ label ∈ (reading.written numbers labels).entries, isLabelName label.1 = true ∧ isPlain label.2 = true := by
  have hnodup : ((labelKey (reading.written numbers labels)).map Prod.fst).Nodup := nodup_labelKey
  have hplain := readSample_plainLine_iff (name ++ reading.suffix) hnodup reading.isNumeral_text
    (reading.read_text : numbers.read (reading.text numbers) = _)
  rw [← sampleLine_eq, ← reading.line_eq] at hplain
  simp only [perm_labelKey_iff, (perm_labelKey _).mem_iff] at hplain
  rw [← hplain]
  refine exists_congr fun sample => ?_
  tauto

/-- The labels of a bucket, where the label set leaves `le` to it, are legible iff the label set is. -/
lemma forall_mem_set_iff {bound : Option F} (hfree : labels.get "le" = none) :
    (∀ label ∈ (labels.set "le" (bound.elim "+Inf" numbers.str)).entries,
      isLabelName label.1 = true ∧ isPlain label.2 = true) ↔
    ∀ label ∈ labels.entries, isLabelName label.1 = true ∧ isPlain label.2 = true := by
  rw [Dict.entries_set_new hfree, List.forall_mem_append, List.forall_mem_singleton]
  exact and_iff_left ⟨(by decide : isLabelName "le" = true), isPlain_bound bound⟩

/-- The label set is got back from the labels of a bucket iff it leaves `le` to it. -/
lemma get_pop_le_iff {read : Dict String String} {le : String} :
    (read.get "le" = some le ∧ ∀ label, (read.pop "le").get label = labels.get label) ↔
      labels.get "le" = none ∧ ∀ label, read.get label = (labels.set "le" le).get label := by
  constructor
  · rintro ⟨hle, hpop⟩
    refine ⟨by rw [← hpop, Dict.get_pop_self], fun label => ?_⟩
    by_cases hlabel : label = "le"
    · rw [hlabel, hle, Dict.get_set_self]
    · rw [Dict.get_set_of_ne _ _ hlabel, ← hpop, Dict.get_pop_of_ne _ hlabel]
  · rintro ⟨hfree, hread⟩
    refine ⟨by rw [hread, Dict.get_set_self], fun label => ?_⟩
    by_cases hlabel : label = "le"
    · rw [hlabel, Dict.get_pop_self, hfree]
    · rw [Dict.get_pop_of_ne _ hlabel, hread, Dict.get_set_of_ne _ _ hlabel]

/-- **A line is read as what it was rendered from iff it is legible.** -/
theorem readsBack_iff (reading : Reading F) :
    ReadsBack numbers name labels reading ↔ Legible numbers name labels reading := by
  have hline := readSample_line_iff numbers name labels reading
  have hlegible : Legible numbers name labels reading ↔ (isMetricName (name ++ reading.suffix) = true ∧
      ∀ label ∈ labels.entries, isLabelName label.1 = true ∧ isPlain label.2 = true) ∧
        ∀ le, reading.le numbers = some le → labels.get "le" = none :=
    ⟨fun h => ⟨⟨h.isName, h.plain⟩, h.free⟩, fun h => ⟨h.1.1, h.1.2, h.2⟩⟩
  cases reading with
  | bucket bound n =>
    rw [hlegible, ReadsBack]
    simp only [Reading.le, Option.some.injEq, forall_eq', get_pop_le_iff]
    constructor
    · rintro ⟨sample, hread, hname, hvalue, hfree, hlabels⟩
      exact ⟨(hline.mp ⟨sample, hread, hname, hvalue, hlabels⟩).imp_right (forall_mem_set_iff hfree).mp, hfree⟩
    · rintro ⟨hplain, hfree⟩
      obtain ⟨sample, hread, hname, hvalue, hlabels⟩ := hline.mpr (hplain.imp_right (forall_mem_set_iff hfree).mpr)
      exact ⟨sample, hread, hname, hvalue, hfree, hlabels⟩
  | value x => exact hline.trans (hlegible.trans (and_iff_left fun le h => nomatch h)).symm
  | sum x => exact hline.trans (hlegible.trans (and_iff_left fun le h => nomatch h)).symm
  | count n => exact hline.trans (hlegible.trans (and_iff_left fun le h => nomatch h)).symm

/-- The label set is known from the sample that is read. -/
lemma ReadsBack.get_eq {reading : Reading F} (h : ReadsBack numbers name labels reading) :
    ∃ sample, readSample numbers.read (reading.line numbers name labels) = some sample ∧
      sample.name = name ++ reading.suffix ∧ ∀ label, labels.get label =
        if reading.suffix = "_bucket" then (sample.labels.pop "le").get label else sample.labels.get label := by
  obtain ⟨sample, hread, hname, -, hlabels⟩ := h
  refine ⟨sample, hread, hname, fun label => ?_⟩
  cases reading with
  | bucket bound n => exact (hlabels.2 label).symm
  | value x =>
    have hne : ¬ ("" : String) = "_bucket" := by decide
    exact (hlabels label).symm.trans (if_neg hne).symm
  | sum x =>
    have hne : ¬ "_sum" = "_bucket" := by decide
    exact (hlabels label).symm.trans (if_neg hne).symm
  | count n =>
    have hne : ¬ "_count" = "_bucket" := by decide
    exact (hlabels label).symm.trans (if_neg hne).symm

/-- Lines that are read as what they were rendered from are those of one label set if they are the same. -/
lemma get_eq_of_line_eq {labels' : Dict String String} {reading reading' : Reading F}
    (h : ReadsBack numbers name labels reading) (h' : ReadsBack numbers name labels' reading')
    (hline : reading.line numbers name labels = reading'.line numbers name labels') (label : String) :
    labels.get label = labels'.get label := by
  obtain ⟨sample, hread, hname, hlabels⟩ := h.get_eq
  obtain ⟨sample', hread', hname', hlabels'⟩ := h'.get_eq
  rw [hline, hread'] at hread
  obtain rfl := Option.some.inj hread
  have hsuffix : reading.suffix = reading'.suffix := (String.append_right_inj name).mp (hname.symm.trans hname')
  rw [hlabels, hlabels', hsuffix]

/-- **Lines are unambiguous iff each of them is legible.** -/
theorem unambiguous_iff {samples : List (Dict String String × Reading F)} :
    Unambiguous numbers name samples ↔ ∀ s ∈ samples, Legible numbers name s.1 s.2 := by
  constructor
  · exact fun h s hs => (readsBack_iff s.2).mp (h.1 s hs)
  · intro h
    have hreads : ∀ s ∈ samples, ReadsBack numbers name s.1 s.2 := fun s hs => (readsBack_iff s.2).mpr (h s hs)
    refine ⟨hreads, fun s hs t ht ⟨label, hne⟩ hline => hne ?_⟩
    exact get_eq_of_line_eq (hreads s hs) (hreads t ht) hline label

lemma PlainLabels.congr {labels' : Dict String String} (h : PlainLabels labels)
    (hlabels : ∀ label, labels'.get label = labels.get label) : PlainLabels labels' := by
  intro label hlabel
  rw [Dict.mem_entries_iff, hlabels, ← Dict.mem_entries_iff] at hlabel
  exact h label hlabel

end Lines

/-! ### The samples of a metric -/

section Samples

variable {F : Type} [NatCast F]

/-- What a counter or a gauge has to tell. -/
def valueSamples (values : Dict LabelKey F) : List (Dict String String × Reading F) :=
  values.entries.map fun entry => (Dict.ofEntries entry.1, Reading.value entry.2)

/-- The counts of the buckets, cumulated. -/
def cumulated (cumulative : ℕ) : List (F × ℕ) → List (F × ℕ)
  | [] => []
  | (bound, n) :: rest => (bound, cumulative + n) :: cumulated (cumulative + n) rest

/-- What a histogram has to tell of a label set. -/
def keyReadings [Zero F] (histogram : Histogram F) (key : LabelKey) (counts : List ℕ) : List (Reading F) :=
  (cumulated 0 (histogram.buckets.zip counts)).map (fun p => Reading.bucket (some p.1) p.2) ++
    [Reading.bucket none ((histogram.counts.get key).getD 0), Reading.sum ((histogram.sums.get key).getD 0),
      Reading.count ((histogram.counts.get key).getD 0)]

def histogramSamples [Zero F] (histogram : Histogram F) : List (Dict String String × Reading F) :=
  histogram.bucketCounts.entries.flatMap fun entry =>
    (keyReadings histogram entry.1 entry.2).map (Dict.ofEntries entry.1, ·)

/-- The keys of a dictionary are those of label sets. -/
def KeysOf {V : Type} (d : Dict LabelKey V) (recorded : List (Dict String String)) : Prop :=
  ∀ key, key ∈ d.keys ↔ ∃ labels ∈ recorded, labelKey labels = key

lemma KeysOf.set {V : Type} {d : Dict LabelKey V} {recorded : List (Dict String String)} (h : KeysOf d recorded)
    (labels : Dict String String) (v : V) : KeysOf (d.set (labelKey labels) v) (recorded ++ [labels]) := by
  intro key
  have hkey : key ∈ (d.set (labelKey labels) v).keys ↔ key = labelKey labels ∨ key ∈ d.keys :=
    Dict.mem_keys_setEntries
  rw [hkey, h key]
  simp only [List.mem_append, List.mem_singleton, or_and_right, exists_or, exists_eq_left]
  rw [or_comm, eq_comm]

lemma keysOf_empty {V : Type} : KeysOf (∅ : Dict LabelKey V) [] := by
  intro key
  exact ⟨fun h => (nomatch h), fun ⟨_, h, _⟩ => absurd h List.not_mem_nil⟩

variable (numbers : Numbers F) (name : String)

/-- The lines of values are those of their samples. -/
lemma map_sampleLine {values : Dict LabelKey F} {recorded : List (Dict String String)}
    (hkeys : KeysOf values recorded) :
    (values.entries.map fun entry => sampleLine name entry.1 (numbers.str entry.2)) =
      (valueSamples values).map fun s => s.2.line numbers name s.1 := by
  rw [valueSamples, List.map_map]
  refine List.map_congr_left fun entry hentry => ?_
  obtain ⟨labels, -, hlabels⟩ := (hkeys entry.1).mp (List.mem_map_of_mem hentry)
  show _ = sampleLine name (labelKey (Dict.ofEntries entry.1)) (numbers.str entry.2)
  rw [← hlabels, labelKey_eq_iff.mpr get_ofEntries_labelKey]

variable {numbers name}

/-- What holds of a label set whatever the order of its labels holds of those of the keys iff it holds of those
recorded. -/
lemma KeysOf.forall_iff {V : Type} {d : Dict LabelKey V} {recorded : List (Dict String String)}
    (hkeys : KeysOf d recorded) {P : Dict String String → Prop}
    (hP : ∀ labels labels', (∀ label, labels'.get label = labels.get label) → P labels → P labels') :
    (∀ entry ∈ d.entries, P (Dict.ofEntries entry.1)) ↔ ∀ labels ∈ recorded, P labels := by
  constructor
  · intro h labels hlabels
    obtain ⟨entry, hentry, hkey⟩ := List.mem_map.mp ((hkeys _).mpr ⟨labels, hlabels, rfl⟩)
    refine hP _ _ (fun label => ?_) (h entry hentry)
    rw [hkey, get_ofEntries_labelKey]
  · intro h entry hentry
    obtain ⟨labels, hlabels, hkey⟩ := (hkeys entry.1).mp (List.mem_map_of_mem hentry)
    refine hP labels _ (fun label => ?_) (h labels hlabels)
    rw [← hkey, get_ofEntries_labelKey]

/-- Values are unambiguous iff the names and the label sets are plain. -/
lemma unambiguous_values_iff {values : Dict LabelKey F} {recorded : List (Dict String String)}
    (hkeys : KeysOf values recorded) : Unambiguous numbers name (valueSamples values) ↔
      ∀ labels ∈ recorded, isMetricName name = true ∧ PlainLabels labels := by
  have hlegible : ∀ labels x, Legible numbers name labels (Reading.value x) ↔
      isMetricName name = true ∧ PlainLabels labels := by
    intro labels x
    have hname : name ++ (Reading.value x).suffix = name := String.append_empty
    constructor
    · exact fun h => ⟨hname ▸ h.isName, h.plain⟩
    · exact fun h => ⟨hname.symm ▸ h.1, h.2, fun le hle => nomatch hle⟩
  rw [unambiguous_iff, valueSamples, List.forall_mem_map]
  simp only [hlegible]
  exact hkeys.forall_iff (P := fun labels => isMetricName name = true ∧ PlainLabels labels)
    fun labels labels' hget h => ⟨h.1, h.2.congr hget⟩

/-- A histogram is unambiguous iff its names and the label sets are plain, and these leave `le` to it. -/
lemma unambiguous_histogram_iff [Zero F] {histogram : Histogram F} {recorded : List (Dict String String)}
    (hkeys : KeysOf histogram.bucketCounts recorded) : Unambiguous numbers name (histogramSamples histogram) ↔
      ∀ labels ∈ recorded, (∀ suffix ∈ ["_bucket", "_sum", "_count"], isMetricName (name ++ suffix) = true) ∧
        PlainLabels labels ∧ labels.get "le" = none := by
  have hlegible : ∀ key counts labels, (∀ reading ∈ keyReadings histogram key counts,
      Legible numbers name labels reading) ↔
        (∀ suffix ∈ ["_bucket", "_sum", "_count"], isMetricName (name ++ suffix) = true) ∧
          PlainLabels labels ∧ labels.get "le" = none := by
    intro key counts labels
    constructor
    · intro h
      have hinf := h (Reading.bucket none ((histogram.counts.get key).getD 0)) (by simp [keyReadings])
      have hsum := h (Reading.sum ((histogram.sums.get key).getD 0)) (by simp [keyReadings])
      have hcount := h (Reading.count ((histogram.counts.get key).getD 0)) (by simp [keyReadings])
      refine ⟨?_, hinf.plain, hinf.free _ rfl⟩
      intro suffix hsuffix
      simp only [List.mem_cons, List.not_mem_nil, or_false] at hsuffix
      rcases hsuffix with rfl | rfl | rfl
      · exact hinf.isName
      · exact hsum.isName
      · exact hcount.isName
    · rintro ⟨hnames, hplain, hfree⟩ reading hreading
      cases reading with
      | value x => simp [keyReadings] at hreading
      | bucket bound n => exact ⟨hnames "_bucket" (by simp), hplain, fun _ _ => hfree⟩
      | sum x => exact ⟨hnames "_sum" (by simp), hplain, fun _ _ => hfree⟩
      | count n => exact ⟨hnames "_count" (by simp), hplain, fun _ _ => hfree⟩
  rw [unambiguous_iff, histogramSamples, List.forall_mem_flatMap]
  simp only [List.forall_mem_map, hlegible]
  exact hkeys.forall_iff (P := fun labels =>
    (∀ suffix ∈ ["_bucket", "_sum", "_count"], isMetricName (name ++ suffix) = true) ∧
      PlainLabels labels ∧ labels.get "le" = none)
    fun labels labels' hget h => ⟨h.1, h.2.1.congr hget, (hget "le").trans h.2.2⟩

end Samples

/-! ### Metrics after any recordings -/

section Metrics

variable {F : Type} [NatCast F] [Zero F] [Add F] [Sub F] [LE F] [DecidableLE F]

/-- A call of a gauge. -/
inductive GaugeCall where
  | set | inc | dec

def GaugeCall.apply : GaugeCall → Gauge F → F → Dict String String → Gauge F
  | .set => Gauge.set
  | .inc => Gauge.inc
  | .dec => Gauge.dec

def Counter.record (counter : Counter F) (recorded : List (F × Dict String String)) : Counter F :=
  recorded.foldl (fun counter r => counter.inc r.1 r.2) counter

def Gauge.record (gauge : Gauge F) (recorded : List (GaugeCall × F × Dict String String)) : Gauge F :=
  recorded.foldl (fun gauge r => r.1.apply gauge r.2.1 r.2.2) gauge

variable {numbers : Numbers F} {recorded : List (Dict String String)}

lemma keysOf_counter (counter : Counter F) (calls : List (F × Dict String String))
    (h : KeysOf counter.values recorded) :
    KeysOf (Counter.record counter calls).values (recorded ++ calls.map Prod.snd) := by
  induction calls generalizing counter recorded with
  | nil => rwa [List.map_nil, List.append_nil]
  | cons call calls ih =>
    rw [List.map_cons, List.append_cons]
    exact ih (counter.inc call.1 call.2) (h.set call.2 _)

lemma keysOf_gauge (gauge : Gauge F) (calls : List (GaugeCall × F × Dict String String))
    (h : KeysOf gauge.values recorded) :
    KeysOf (Gauge.record gauge calls).values (recorded ++ calls.map fun call => call.2.2) := by
  induction calls generalizing gauge recorded with
  | nil => rwa [List.map_nil, List.append_nil]
  | cons call calls ih =>
    rw [List.map_cons, List.append_cons]
    refine ih (call.1.apply gauge call.2.1 call.2.2) ?_
    cases call.1 with
    | set => exact h.set call.2.2 _
    | inc => exact h.set call.2.2 _
    | dec => exact h.set call.2.2 _

lemma length_countFirst (value : F) : ∀ (bounds : List F) (counts : List ℕ),
    (Histogram.countFirst value bounds counts).length = counts.length
  | [], _ => by rw [Histogram.countFirst.eq_def]
  | _ :: _, [] => rfl
  | bound :: bounds, n :: counts => by
      rw [Histogram.countFirst]
      split
      · rfl
      · exact congrArg (· + 1) (length_countFirst value bounds counts)

/-- A histogram has a count for each bucket, under each label set that was recorded. -/
structure Wide (histogram : Histogram F) (recorded : List (Dict String String)) : Prop where
  keys : KeysOf histogram.bucketCounts recorded
  length : ∀ key counts, histogram.bucketCounts.get key = some counts →
    counts.length = histogram.buckets.length

lemma Wide.observe {histogram : Histogram F} (h : Wide histogram recorded) (value : F)
    (labels : Dict String String) : Wide (histogram.observe value labels) (recorded ++ [labels]) := by
  refine ⟨h.keys.set labels _, fun key counts hget => ?_⟩
  change (histogram.bucketCounts.set _ _).get key = some counts at hget
  show counts.length = histogram.buckets.length
  rw [Dict.get_set] at hget
  split at hget
  · rw [← Option.some.inj hget, length_countFirst]
    cases hold : histogram.bucketCounts.get (labelKey labels) with
    | none => exact List.length_replicate
    | some old => exact h.length _ old hold
  · exact h.length key counts hget

lemma Wide.observeAll (histogram : Histogram F) (calls : List (F × Dict String String))
    (h : Wide histogram recorded) : Wide (histogram.observeAll calls) (recorded ++ calls.map Prod.snd) := by
  induction calls generalizing histogram recorded with
  | nil => rwa [List.map_nil, List.append_nil]
  | cons call calls ih =>
    rw [List.map_cons, List.append_cons]
    exact ih (histogram.observe call.1 call.2) (h.observe call.1 call.2)

lemma bucketLines_eq (str : F → String) (name : String) (key : LabelKey) : ∀ cumulative pairs,
    Histogram.bucketLines str name key cumulative pairs =
      (cumulated cumulative pairs).map fun p => bucketLine name key (str p.1) p.2
  | _, [] => rfl
  | cumulative, (_, n) :: rest => congrArg (_ :: ·) (bucketLines_eq str name key (cumulative + n) rest)

/-- The lines of a histogram are those of its samples. -/
lemma Wide.render {histogram : Histogram F} (h : Wide histogram recorded) :
    histogram.render numbers.str = .ok ("\n".intercalate (
      headerLines histogram.name histogram.helpText "histogram" ++
        (histogramSamples histogram).map fun s => s.2.line numbers histogram.name s.1)) := by
  have hblocks : histogram.bucketCounts.entries.mapM (fun entry =>
      histogram.keyLines numbers.str entry.1 entry.2) =
        .ok (histogram.bucketCounts.entries.map fun entry => (keyReadings histogram entry.1 entry.2).map
          fun reading => reading.line numbers histogram.name (Dict.ofEntries entry.1)) := by
    refine mapM_eq_ok.mpr (List.forall₂_map_right_iff.mpr (List.forall₂_same.mpr fun entry hentry => ?_))
    obtain ⟨labels, -, hlabels⟩ := (h.keys entry.1).mp (List.mem_map_of_mem hentry)
    have hkey : labelKey (Dict.ofEntries entry.1) = entry.1 := by
      rw [← hlabels]
      exact labelKey_eq_iff.mpr get_ofEntries_labelKey
    have hlength := h.length _ _ (Dict.mem_entries_iff.mp hentry)
    rw [Histogram.keyLines, zipStrict, if_pos hlength.symm, keyReadings, List.map_append, List.map_map]
    show Except.ok (Histogram.bucketLines _ _ _ 0 _ ++ _) = _
    rw [bucketLines_eq]
    simp only [Function.comp_def, Reading.line, hkey, List.map_cons, List.map_nil, Option.elim_some,
      Option.elim_none]
  rw [Histogram.render, hblocks, histogramSamples, List.map_flatMap]
  simp only [List.map_map]
  rfl

lemma record_frame_counter (counter : Counter F) (calls : List (F × Dict String String)) :
    (Counter.record counter calls).name = counter.name ∧
      (Counter.record counter calls).helpText = counter.helpText := by
  induction calls generalizing counter with
  | nil => exact ⟨rfl, rfl⟩
  | cons call calls ih => exact ih (counter.inc call.1 call.2)

lemma record_frame_gauge (gauge : Gauge F) (calls : List (GaugeCall × F × Dict String String)) :
    (Gauge.record gauge calls).name = gauge.name ∧ (Gauge.record gauge calls).helpText = gauge.helpText := by
  induction calls generalizing gauge with
  | nil => exact ⟨rfl, rfl⟩
  | cons call calls ih =>
    have hcall : ((call.1.apply gauge call.2.1 call.2.2).name = gauge.name) ∧
        (call.1.apply gauge call.2.1 call.2.2).helpText = gauge.helpText := by
      cases call.1 <;> exact ⟨rfl, rfl⟩
    have hrest := ih (call.1.apply gauge call.2.1 call.2.2)
    exact ⟨hrest.1.trans hcall.1, hrest.2.trans hcall.2⟩

/-- **What the exposition of metrics tells.**  Whatever is recorded in a counter, a gauge or a histogram, the
lines are those of its samples; and they are unambiguous iff the metric and the labels have names of the
grammar, no value holds a quote, a backslash or a line feed, and no label set of a histogram has an `le`. -/
theorem exposition_unambiguous_iff (numbers : Numbers F) (name helpText : String) (buckets : List F)
    (calls : List (F × Dict String String)) (gaugeCalls : List (GaugeCall × F × Dict String String)) :
    (∃ counter, counter = Counter.record ⟨name, helpText, ∅⟩ calls ∧
      counter.render numbers.str = "\n".intercalate (headerLines name helpText "counter" ++
        (valueSamples counter.values).map fun s => s.2.line numbers name s.1) ∧
      (Unambiguous numbers name (valueSamples counter.values) ↔
        ∀ call ∈ calls, isMetricName name = true ∧ PlainLabels call.2)) ∧
    (∃ gauge, gauge = Gauge.record ⟨name, helpText, ∅⟩ gaugeCalls ∧
      gauge.render numbers.str = "\n".intercalate (headerLines name helpText "gauge" ++
        (valueSamples gauge.values).map fun s => s.2.line numbers name s.1) ∧
      (Unambiguous numbers name (valueSamples gauge.values) ↔
        ∀ call ∈ gaugeCalls, isMetricName name = true ∧ PlainLabels call.2.2)) ∧
    ∃ histogram, histogram = (Histogram.create name helpText buckets).observeAll calls ∧
      histogram.render numbers.str = .ok ("\n".intercalate (headerLines name helpText "histogram" ++
        (histogramSamples histogram).map fun s => s.2.line numbers name s.1)) ∧
      (Unambiguous numbers name (histogramSamples histogram) ↔ ∀ call ∈ calls,
        (∀ suffix ∈ ["_bucket", "_sum", "_count"], isMetricName (name ++ suffix) = true) ∧
          PlainLabels call.2 ∧ call.2.get "le" = none) := by
  refine ⟨⟨_, rfl, ?_, ?_⟩, ⟨_, rfl, ?_, ?_⟩, ⟨_, rfl, ?_, ?_⟩⟩
  · obtain ⟨hname, hhelp⟩ := record_frame_counter ⟨name, helpText, ∅⟩ calls
    rw [Counter.render, Counter.sampleLines, hname, hhelp,
      map_sampleLine numbers name (keysOf_counter ⟨name, helpText, ∅⟩ calls keysOf_empty)]
  · rw [unambiguous_values_iff (keysOf_counter ⟨name, helpText, ∅⟩ calls keysOf_empty), List.nil_append,
      List.forall_mem_map]
  · obtain ⟨hname, hhelp⟩ := record_frame_gauge ⟨name, helpText, ∅⟩ gaugeCalls
    rw [Gauge.render, Gauge.sampleLines, hname, hhelp,
      map_sampleLine numbers name (keysOf_gauge ⟨name, helpText, ∅⟩ gaugeCalls keysOf_empty)]
  · rw [unambiguous_values_iff (keysOf_gauge ⟨name, helpText, ∅⟩ gaugeCalls keysOf_empty), List.nil_append,
      List.forall_mem_map]
  · obtain ⟨hname, hhelp, -⟩ := Histogram.observeAll_frame (Histogram.create name helpText buckets) calls
    have hwide := Wide.observeAll (Histogram.create name helpText buckets) calls
      ⟨keysOf_empty, fun key counts hget => nomatch hget⟩
    rw [hwide.render, hname, hhelp]
    rfl
  · have hwide := Wide.observeAll (Histogram.create name helpText buckets) calls
      ⟨keysOf_empty, fun key counts hget => nomatch hget⟩
    rw [unambiguous_histogram_iff hwide.keys, List.nil_append, List.forall_mem_map]

end Metrics

/-! ### Whole numbers -/

/-- The digits that a text begins with. -/
def readWhole (s : String) : Option ℕ :=
  if s.toList.head?.any Char.isDigit then some (Nat.ofDigitChars 10 (s.toList.takeWhile Char.isDigit) 0) else none

lemma readWhole_append (n : ℕ) {rest : List Char} (hrest : ∀ c ∈ rest.head?, c.isDigit = false) :
    readWhole (String.ofList ((toString n).toList ++ rest)) = some n := by
  have hdigits : ∀ c ∈ (toString n).toList, c.isDigit = true := fun c hc => isDigit_of_mem_toString hc
  have htake : ((toString n).toList ++ rest).takeWhile Char.isDigit = (toString n).toList := by
    rw [List.takeWhile_append_of_pos hdigits]
    cases rest with
    | nil => exact List.append_nil _
    | cons c rest =>
      rw [List.takeWhile_cons_of_neg (by simp [hrest c rfl]), List.append_nil]
  have hlist : (toString n).toList = Nat.toDigits 10 n := Nat.toList_repr
  have hhead : ((toString n).toList ++ rest).head?.any Char.isDigit = true := by
    cases hcases : (toString n).toList with
    | nil => exact absurd (hlist.symm.trans hcases) (by simp)
    | cons c cs =>
      rw [List.cons_append, List.head?_cons, Option.any_some]
      exact hdigits c (by rw [hcases]; exact List.mem_cons_self)
  rw [readWhole, String.toList_ofList, if_pos hhead, htake, hlist]
  simp

lemma readWhole_float (n : ℕ) : readWhole (toString n ++ ".0") = some n := by
  have happend : toString n ++ ".0" = String.ofList ((toString n).toList ++ ['.', '0']) := by
    have hpoint : ".0".toList = ['.', '0'] := by decide
    refine String.toList_injective ?_
    rw [String.toList_append, hpoint, String.toList_ofList]
  rw [happend]
  refine readWhole_append n ?_
  rintro c ⟨⟩
  decide

lemma readWhole_int (n : ℕ) : readWhole (toString n) = some n := by
  have hread := @readWhole_append n [] (fun c hc => nomatch hc)
  rwa [List.append_nil, String.ofList_toList] at hread

/-- Whole numbers, as `float` prints them. -/
def wholeNumbers : Numbers ℕ where
  str n := toString n ++ ".0"
  read := readWhole
  isNumeral_str n := by
    rw [isNumeral, String.toList_append, List.all_append]
    exact Bool.and_eq_true_iff.mpr ⟨isNumeral_toString n, by decide⟩
  read_str := readWhole_float
  read_nat := readWhole_int

/-- A value that holds a quote is taken for two labels. -/
theorem exposition_ambiguous :
    ∃ quoted two : Dict String String, quoted.get "b" ≠ two.get "b" ∧
      (Reading.value 1).line wholeNumbers "requests" quoted = (Reading.value 1).line wholeNumbers "requests" two ∧
      ¬ Unambiguous wholeNumbers "requests" (valueSamples
        (Counter.record ⟨"requests", "", ∅⟩ [(1, quoted), (1, two)]).values) := by
  have hline : (Reading.value 1).line wholeNumbers "requests" (Dict.ofEntries [("a", "x\",b=\"y")]) =
      (Reading.value 1).line wholeNumbers "requests" (Dict.ofEntries [("a", "x"), ("b", "y")]) := by
    decide
  refine ⟨Dict.ofEntries [("a", "x\",b=\"y")], Dict.ofEntries [("a", "x"), ("b", "y")], by decide, hline, ?_⟩
  intro h
  refine h.2 (Dict.ofEntries [("a", "x\",b=\"y")], .value 1) ?_ (Dict.ofEntries [("a", "x"), ("b", "y")], .value 1) ?_
    ⟨"b", by decide⟩ hline
  · exact List.mem_cons_self
  · exact List.mem_cons_of_mem _ List.mem_cons_self

end Tmis.Platform.Exposition
