import Mathlib.Data.List.Induction
import Mathlib.Data.List.Sort
import Tmis.Lib.Dict

/-!
# The first of a stable sort, and the newest of each kind

A list sorted by a total preorder, and its head: the element that a queue with priorities hands out.  And of the
elements of each kind the one that is kept, where a newer one takes the place of an older one.

* `Ahead r l x y` — in the list `l` sorted by `r`, the element `x` stands in front of `y`;
* `head?_insertionSort_iff` — the head of the sorted list is the element ahead of all others;
* `ahead_filter_iff` — leaving other elements out does not change which of two is ahead;
* `keepNewest`, `Newest` — one element is kept of each kind, and none of this kind is newer;
* `newest_foldl`, `Newest.perm` — over a list, and over the same list in another order.
-/

namespace Tmis.Lib

variable {α : Type*} {r : α → α → Prop}

/-- `x` goes before `y`, or they are equal in the order and `x` comes first in the list. -/
def Ahead (r : α → α → Prop) (l : List α) (x y : α) : Prop :=
  ¬ r y x ∨ (r x y ∧ [x, y].Sublist l)

lemma pair_sublist_or {l : List α} {x y : α} (hx : x ∈ l) (hy : y ∈ l) (hne : x ≠ y) :
    [x, y].Sublist l ∨ [y, x].Sublist l := by
  induction l with
  | nil => cases hx
  | cons a l ih =>
    rcases List.mem_cons.mp hx with rfl | hxl
    · have hyl : y ∈ l := (List.mem_cons.mp hy).resolve_left hne.symm
      exact Or.inl (List.cons_sublist_cons.mpr (List.singleton_sublist.mpr hyl))
    · rcases List.mem_cons.mp hy with rfl | hyl
      · exact Or.inr (List.cons_sublist_cons.mpr (List.singleton_sublist.mpr hxl))
      · exact (ih hxl hyl).imp (fun h => h.cons a) (fun h => h.cons a)

/-- In a list without repetitions, two elements come in one order only. -/
lemma pair_sublist_asymm {l : List α} {x y : α} (hl : l.Nodup) (h : [x, y].Sublist l) :
    ¬ [y, x].Sublist l := by
  intro h'
  induction l with
  | nil => simp at h
  | cons a l ih =>
    obtain ⟨ha, hl⟩ := List.nodup_cons.mp hl
    cases h with
    | cons _ h =>
      cases h' with
      | cons _ h' => exact ih hl h h'
      | cons_cons _ h' => exact ha (h.subset (by simp))
    | cons_cons _ h =>
      cases h' with
      | cons _ h' => exact ha (h'.subset (by simp))
      | cons_cons _ h' => exact ha (h'.subset (by simp))

lemma Ahead.asymm [Std.Total r] {l : List α} {x y : α} (hl : l.Nodup) (h : Ahead r l x y) :
    ¬ Ahead r l y x := by
  rintro (hxy | ⟨hyx, hsub'⟩)
  · rcases h with hyx | ⟨h, -⟩
    · exact (Std.Total.total (r := r) x y).elim hxy hyx
    · exact hxy h
  · rcases h with h | ⟨-, hsub⟩
    · exact h hyx
    · exact pair_sublist_asymm hl hsub hsub'

lemma Ahead.rel [Std.Total r] {l : List α} {x y : α} (h : Ahead r l x y) : r x y := by
  rcases h with h | h
  · exact (Std.Total.total (r := r) x y).resolve_right h
  · exact h.1

/-- Which of two elements is ahead does not depend on the elements left out. -/
lemma ahead_filter_iff {p : α → Bool} {l : List α} {x y : α} (hx : p x = true) (hy : p y = true) :
    Ahead r (l.filter p) x y ↔ Ahead r l x y := by
  have hsub : [x, y].Sublist (l.filter p) ↔ [x, y].Sublist l := by
    constructor
    · intro h
      exact h.trans List.filter_sublist
    · intro h
      have := h.filter p
      simpa [hx, hy] using this
  rw [Ahead, Ahead, hsub]

section Head

variable [DecidableRel r]

@[simp] lemma head?_insertionSort_eq_none {l : List α} :
    (l.insertionSort r).head? = none ↔ l = [] := by
  rw [List.head?_eq_none_iff, ← List.length_eq_zero_iff, List.length_insertionSort,
    List.length_eq_zero_iff]

lemma mem_of_head?_insertionSort {l : List α} {x : α} (h : (l.insertionSort r).head? = some x) :
    x ∈ l :=
  (List.mem_insertionSort r).mp (List.mem_of_mem_head? (Option.mem_def.mpr h))

/-- No element that may go before the head of the sorted list comes before it in the list. -/
lemma not_pair_sublist_head? {l : List α} (hl : l.Nodup) {x y : α}
    (h : (l.insertionSort r).head? = some x) (hne : y ≠ x) (hyx : r y x) : ¬ [y, x].Sublist l := by
  intro hsub
  have hpair := List.pair_sublist_insertionSort hyx hsub
  have hnodup := (List.perm_insertionSort r l).nodup_iff.mpr hl
  cases hs : l.insertionSort r with
  | nil => simp [hs] at h
  | cons a t =>
    rw [hs] at h hpair hnodup
    obtain rfl : a = x := by simpa using h
    have hyt : y ∈ t := (List.mem_cons.mp (hpair.subset (by simp))).resolve_left hne
    exact pair_sublist_asymm hnodup (List.cons_sublist_cons.mpr (List.singleton_sublist.mpr hyt)) hpair

variable [Std.Total r] [IsTrans α r]

/-- No element goes before the head of the sorted list. -/
lemma head?_insertionSort_le {l : List α} {x : α} (h : (l.insertionSort r).head? = some x) :
    ∀ y ∈ l, r x y := by
  intro y hy
  obtain ⟨t, ht⟩ : ∃ t, l.insertionSort r = x :: t := by
    cases hs : l.insertionSort r with
    | nil => simp [hs] at h
    | cons a t => simp_all
  have hsorted := List.pairwise_insertionSort r l
  have hyt : y ∈ l.insertionSort r := (List.mem_insertionSort r).mpr hy
  rw [ht] at hsorted hyt
  rcases List.mem_cons.mp hyt with rfl | hyt
  · exact (Std.Total.total (r := r) y y).elim id id
  · exact (List.pairwise_cons.mp hsorted).1 y hyt

/-- **The head of the sorted list** is the element ahead of all others. -/
theorem head?_insertionSort_iff {l : List α} (hl : l.Nodup) {x : α} :
    (l.insertionSort r).head? = some x ↔ x ∈ l ∧ ∀ y ∈ l, y ≠ x → Ahead r l x y := by
  constructor
  · intro h
    have hx := mem_of_head?_insertionSort h
    refine ⟨hx, fun y hy hne => ?_⟩
    by_cases hyx : r y x
    · refine Or.inr ⟨head?_insertionSort_le h y hy, ?_⟩
      exact (pair_sublist_or hx hy hne.symm).resolve_right (not_pair_sublist_head? hl h hne hyx)
    · exact Or.inl hyx
  · rintro ⟨hx, hall⟩
    cases hhead : (l.insertionSort r).head? with
    | none =>
      rw [head?_insertionSort_eq_none.mp hhead] at hx
      cases hx
    | some z =>
      have hz := mem_of_head?_insertionSort hhead
      by_contra hne
      have hzx : z ≠ x := fun e => hne (by rw [e])
      rcases hall z hz hzx with hnot | ⟨hxz, hsub⟩
      · exact hnot (head?_insertionSort_le hhead x hx)
      · exact not_pair_sublist_head? hl hhead hzx.symm hxz hsub

end Head

/-! ### The newest of each kind -/

section Newest

variable {K R : Type*} [DecidableEq K] [LinearOrder R] (key : α → K) (rank : α → R)

/-- Keep `x`, unless what is kept of its kind is as new. -/
def keepNewest (kept : Dict K α) (x : α) : Dict K α :=
  match kept.get (key x) with
  | none => kept.set (key x) x
  | some y => if rank y < rank x then kept.set (key x) x else kept

/-- Of each kind that there is in the list one element is kept, and none of this kind is newer. -/
structure Newest (l : List α) (kept : Dict K α) : Prop where
  mem : ∀ {k x}, kept.get k = some x → x ∈ l ∧ key x = k
  newest : ∀ {k x}, kept.get k = some x → ∀ y ∈ l, key y = k → rank y ≤ rank x
  total : ∀ x ∈ l, ∃ y, kept.get (key x) = some y

variable {key rank} {l l' : List α} {kept kept' : Dict K α}

lemma newest_nil : Newest key rank [] ∅ where
  mem h := by cases h
  newest h := by cases h
  total x hx := absurd hx List.not_mem_nil

/-- Where `x` is kept: nothing of its kind is newer. -/
lemma Newest.set (h : Newest key rank l kept) {x : α} (hx : ∀ y ∈ l, key y = key x → rank y ≤ rank x) :
    Newest key rank (l ++ [x]) (kept.set (key x) x) where
  mem := by
    intro k y hk
    rw [Dict.get_set] at hk
    split_ifs at hk with heq
    · cases hk
      exact ⟨List.mem_append_right _ (List.mem_singleton_self _), heq.symm⟩
    · exact (h.mem hk).imp_left fun hy => List.mem_append_left _ hy
  newest := by
    intro k y hk z hz hkey
    rw [Dict.get_set] at hk
    rcases List.mem_append.mp hz with hz | hz
    · split_ifs at hk with heq
      · cases hk
        exact hx z hz (hkey.trans heq)
      · exact h.newest hk z hz hkey
    · rw [List.mem_singleton.mp hz] at hkey ⊢
      rw [if_pos hkey.symm] at hk
      cases hk
      exact le_refl _
  total := by
    intro y hy
    rcases List.mem_append.mp hy with hy | hy
    · rw [Dict.get_set]
      split_ifs
      · exact ⟨x, rfl⟩
      · exact h.total y hy
    · rw [List.mem_singleton.mp hy]
      exact ⟨x, Dict.get_set_self ..⟩

/-- Where something as new as `x` is kept already. -/
lemma Newest.skip (h : Newest key rank l kept) {x y : α} (hy : kept.get (key x) = some y) (hle : rank x ≤ rank y) :
    Newest key rank (l ++ [x]) kept where
  mem hk := (h.mem hk).imp_left fun hmem => List.mem_append_left _ hmem
  newest := by
    intro k z hk w hw hkey
    rcases List.mem_append.mp hw with hw | hw
    · exact h.newest hk w hw hkey
    · rw [List.mem_singleton.mp hw] at hkey ⊢
      rw [← hkey, hy] at hk
      cases hk
      exact hle
  total := by
    intro z hz
    rcases List.mem_append.mp hz with hz | hz
    · exact h.total z hz
    · rw [List.mem_singleton.mp hz]
      exact ⟨y, hy⟩

lemma Newest.keep (h : Newest key rank l kept) (x : α) : Newest key rank (l ++ [x]) (keepNewest key rank kept x) := by
  unfold keepNewest
  cases hget : kept.get (key x) with
  | none =>
    refine h.set fun y hy hkey => ?_
    obtain ⟨z, hz⟩ := h.total y hy
    rw [hkey, hget] at hz
    cases hz
  | some y =>
    dsimp only
    split_ifs with hlt
    · exact h.set fun z hz hkey => (h.newest hget z hz hkey).trans hlt.le
    · exact h.skip hget (not_lt.mp hlt)

/-- **Over a list** the newest of each kind is kept. -/
theorem newest_foldl (l : List α) : Newest key rank l (l.foldl (keepNewest key rank) ∅) := by
  induction l using List.reverseRecOn with
  | nil => exact newest_nil
  | append_singleton l x ih =>
    rw [List.foldl_append]
    exact ih.keep x

lemma Newest.rank_eq (h : Newest key rank l kept) (h' : Newest key rank l' kept') (hperm : l.Perm l') {k : K} {x : α}
    (hx : kept.get k = some x) : ∃ x', kept'.get k = some x' ∧ rank x' = rank x := by
  obtain ⟨hmem, hkey⟩ := h.mem hx
  obtain ⟨x', hx'⟩ := h'.total x (hperm.mem_iff.mp hmem)
  rw [hkey] at hx'
  obtain ⟨hmem', hkey'⟩ := h'.mem hx'
  exact ⟨x', hx', le_antisymm (h.newest hx x' (hperm.mem_iff.mpr hmem') hkey')
    (h'.newest hx' x (hperm.mem_iff.mp hmem) hkey)⟩

/-- **In another order** elements of the same kinds are kept, each as new as the other. -/
theorem Newest.perm (h : Newest key rank l kept) (h' : Newest key rank l' kept') (hperm : l.Perm l') (k : K) (r : R) :
    (∃ x, kept.get k = some x ∧ rank x = r) ↔ ∃ x, kept'.get k = some x ∧ rank x = r := by
  constructor
  · rintro ⟨x, hx, rfl⟩
    exact h.rank_eq h' hperm hx
  · rintro ⟨x, hx, rfl⟩
    exact h'.rank_eq h hperm.symm hx

end Newest

end Tmis.Lib
