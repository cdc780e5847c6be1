import Mathlib.Data.List.Chain
import Mathlib.Data.List.Perm.Subperm
import Mathlib.Logic.Function.Basic
import Mathlib.Logic.Relation
import Tmis.Lib.PySet

/-!
# Lineages

Things that are made anew or out of one another: `link k` is `none` if there is no `k`, `some none` if
`k` was made anew, and `some (some p)` if it was made out of `p`.

* `Descends` — `k` goes back to `o`;
* `descends_update_new`, `descends_update_child` — who descends from whom once something more is made;
* `walk` — the loop that goes back from one thing to the next and stops where there is none, or at one it has
  met;
* `Walked`, `walk_walked`, `exists_walk` — what it collects, and that it ends where only finitely many things
  were made out of others, in a circle or not.
-/

namespace Tmis.Lib

variable {K : Type*}

/-- `k` goes back to `o`, which was made anew. -/
inductive Descends (link : K → Option (Option K)) (o : K) : K → Prop where
  | origin (h : link o = some none) : Descends link o o
  | child {p k : K} (h : Descends link o p) (hk : link k = some (some p)) : Descends link o k

namespace Descends

variable {link : K → Option (Option K)} {o p k n : K}

lemma link_origin (h : Descends link o k) : link o = some none := by
  induction h with
  | origin h => exact h
  | child _ _ ih => exact ih

/-- What descends from something is there. -/
lemma isSome (h : Descends link o k) : ∃ q, link k = some q := by
  cases h with
  | origin h => exact ⟨none, h⟩
  | child _ hk => exact ⟨_, hk⟩

/-- What was made anew goes back to itself only. -/
lemma eq_of_anew (h : Descends link o k) (hk : link k = some none) : k = o := by
  cases h with
  | origin _ => rfl
  | child _ hk' =>
    rw [hk] at hk'
    cases hk'

end Descends

section Update

variable [DecidableEq K] {link : K → Option (Option K)} {o p k n : K} {q : Option K}

/-- Nothing is there under `n`, and nothing is made out of it. -/
structure Unused (link : K → Option (Option K)) (n : K) : Prop where
  absent : link n = none
  childless : ∀ k, link k ≠ some (some n)

/-- What is made later changes nothing for what is there. -/
lemma descends_update_of_ne (h : Unused link n) (hk : k ≠ n) :
    Descends (Function.update link n (some q)) o k ↔ Descends link o k := by
  have hne : ∀ {k}, Descends link o k → k ≠ n := by
    rintro k hdesc rfl
    obtain ⟨q, hq⟩ := hdesc.isSome
    rw [h.absent] at hq
    cases hq
  constructor
  · intro hdesc
    induction hdesc with
    | origin ho =>
      rw [Function.update_of_ne hk] at ho
      exact .origin ho
    | @child p k _ hlink ih =>
      rw [Function.update_of_ne hk] at hlink
      refine .child (ih ?_) hlink
      rintro rfl
      exact h.childless _ hlink
  · intro hdesc
    induction hdesc with
    | origin ho => exact .origin ((Function.update_of_ne hk ..).trans ho)
    | child hdesc hlink ih =>
      exact .child (ih (hne hdesc)) ((Function.update_of_ne hk ..).trans hlink)

/-- Something is made anew: it is a lineage of its own. -/
theorem descends_update_new (h : Unused link n) :
    Descends (Function.update link n (some none)) o k ↔ Descends link o k ∨ (o = n ∧ k = n) := by
  by_cases hk : k = n
  · subst hk
    constructor
    · intro hdesc
      exact Or.inr ⟨(hdesc.eq_of_anew (Function.update_self ..)).symm, rfl⟩
    · rintro (hdesc | ⟨rfl, -⟩)
      · obtain ⟨q, hq⟩ := hdesc.isSome
        rw [h.absent] at hq
        cases hq
      · exact .origin (Function.update_self ..)
  · rw [descends_update_of_ne h hk]
    exact (or_iff_left fun hboth => hk hboth.2).symm

/-- Something is made out of `p`: it joins the lineage of `p`. -/
theorem descends_update_child (h : Unused link n) (hp : p ≠ n) :
    Descends (Function.update link n (some (some p))) o k ↔
      Descends link o k ∨ (k = n ∧ Descends link o p) := by
  by_cases hk : k = n
  · subst hk
    constructor
    · intro hdesc
      cases hdesc with
      | origin ho =>
        rw [Function.update_self] at ho
        cases ho
      | child hdesc hlink =>
        rw [Function.update_self] at hlink
        cases hlink
        exact Or.inr ⟨rfl, (descends_update_of_ne h hp).mp hdesc⟩
    · rintro (hdesc | ⟨-, hdesc⟩)
      · obtain ⟨q, hq⟩ := hdesc.isSome
        rw [h.absent] at hq
        cases hq
      · exact .child ((descends_update_of_ne h hp).mpr hdesc) (Function.update_self ..)
  · rw [descends_update_of_ne h hk]
    exact (or_iff_left fun hboth => hk hboth.1).symm

end Update

/-! ### Walking back -/

section Walk

variable {parent : K → Option K} {start k p : K} {chain : List K}

/-- `chain` goes back from `start` as far as there is something new. -/
structure Walked (parent : K → Option K) (start : K) (chain : List K) : Prop where
  head : chain.head? = some start
  nodup : chain.Nodup
  linked : chain.IsChain fun k p => parent k = some p
  ended : ∀ k ∈ chain.getLast?, ∀ p, parent k = some p → p ∈ chain

namespace Walked

lemma start_mem (h : Walked parent start chain) : start ∈ chain := List.mem_of_head? h.head

/-- What a thing in the chain was made out of is in the chain. -/
lemma mem_of_parent (h : Walked parent start chain) (hk : k ∈ chain) (hp : parent k = some p) : p ∈ chain := by
  obtain ⟨before, after, rfl⟩ := List.append_of_mem hk
  cases after with
  | nil => exact h.ended k List.getLast?_concat p hp
  | cons q after =>
    have hlinked := (List.isChain_append.mp h.linked).2.1
    have hq : parent k = some q := (List.isChain_cons_cons.mp hlinked).1
    obtain rfl : p = q := Option.some.inj (hp.symm.trans hq)
    simp

/-- **All that the start goes back to**, and nothing else, is in the chain. -/
theorem mem_iff (h : Walked parent start chain) :
    k ∈ chain ↔ Relation.ReflTransGen (fun k p => parent k = some p) start k := by
  constructor
  · intro hk
    obtain ⟨hhead, -, hlinked, -⟩ := h
    induction chain generalizing start with
    | nil => cases hk
    | cons x chain ih =>
      cases hhead
      rcases List.mem_cons.mp hk with rfl | hk
      · exact .refl
      · cases chain with
        | nil => cases hk
        | cons y chain =>
          obtain ⟨hxy, hlinked⟩ := List.isChain_cons_cons.mp hlinked
          exact (ih hk rfl hlinked).head hxy
  · intro hreach
    induction hreach with
    | refl => exact h.start_mem
    | tail _ hp ih => exact h.mem_of_parent ih hp

end Walked

/-- Where the loop stands: the chain is what was visited, and `current` is what comes after it. -/
structure Walking (parent : K → Option K) (start : K) (current : Option K) (visited : PySet K)
    (chain : List K) : Prop where
  elems : visited.elems = chain
  linked : chain.IsChain fun k p => parent k = some p
  first : (chain ++ current.toList).head? = some start
  next : ∀ k ∈ chain.getLast?, parent k = current

lemma walking_start (parent : K → Option K) (start : K) : Walking parent start (some start) ∅ [] where
  elems := rfl
  linked := .nil
  first := rfl
  next := nofun

/-- Where there is nothing new to go to, the chain is the whole of it. -/
lemma Walking.walked {current : Option K} {visited : PySet K} (h : Walking parent start current visited chain)
    (hstop : ∀ k, current = some k → k ∈ visited) : Walked parent start chain where
  head := by
    have hfirst := h.first
    cases current with
    | none => rwa [Option.toList_none, List.append_nil] at hfirst
    | some k =>
      have hmem : k ∈ visited.elems := hstop k rfl
      rw [h.elems] at hmem
      rwa [List.head?_append_of_ne_nil _ (List.ne_nil_of_mem hmem)] at hfirst
  nodup := h.elems ▸ visited.nodup
  linked := h.linked
  ended := by
    intro k hk p hp
    rw [h.next k hk] at hp
    have hmem : p ∈ visited.elems := hstop p hp
    rwa [h.elems] at hmem

variable [DecidableEq K]

/-- `while current is not None and current not in visited`: the chain that `current`, what it was made out of,
and so on are appended to, in `fuel` rounds at most. -/
def walk (parent : K → Option K) : ℕ → Option K → PySet K → List K → Option (List K)
  | _, none, _, chain => some chain
  | 0, some _, _, _ => none
  | fuel + 1, some current, visited, chain =>
      if current ∈ visited then some chain
      else walk parent fuel (parent current) (visited.add current) (chain ++ [current])

/-- One more round. -/
lemma Walking.round {visited : PySet K} (h : Walking parent start (some k) visited chain) (hk : k ∉ visited) :
    Walking parent start (parent k) (visited.add k) (chain ++ [k]) where
  elems := by
    rw [PySet.elems_add_of_notMem hk, h.elems]
  linked := by
    refine List.isChain_append.mpr ⟨h.linked, .singleton k, fun x hx y hy => ?_⟩
    cases hy
    exact h.next x hx
  first := by
    have hfirst : (chain ++ [k]).head? = some start := h.first
    rw [List.head?_append, hfirst]
    rfl
  next := by
    intro x hx
    rw [List.getLast?_concat] at hx
    cases hx
    rfl

lemma Walking.of_walk {fuel : ℕ} {current : Option K} {visited : PySet K} {walked : List K}
    (h : Walking parent start current visited chain) (hwalk : walk parent fuel current visited chain = some walked) :
    Walked parent start walked := by
  induction fuel generalizing current visited chain with
  | zero =>
    cases current with
    | none =>
      cases hwalk
      exact h.walked nofun
    | some k => cases hwalk
  | succ fuel ih =>
    cases current with
    | none =>
      cases hwalk
      exact h.walked nofun
    | some k =>
      rw [walk] at hwalk
      split at hwalk
      · rename_i hk
        cases hwalk
        exact h.walked fun p hp => Option.some.inj hp ▸ hk
      · rename_i hk
        exact ih (h.round hk) hwalk

/-- **What the loop collects** goes back from where it starts as far as there is something new. -/
theorem walk_walked {fuel : ℕ} (h : walk parent fuel (some start) ∅ [] = some chain) : Walked parent start chain :=
  (walking_start parent start).of_walk h

/-- What is left to visit is among the things made out of others, and becomes less with every round. -/
lemma exists_walk_of_subset {keys : List K} (hkeys : ∀ k p, parent k = some p → k ∈ keys) {fuel : ℕ}
    {current : Option K} {visited : PySet K} (chain : List K) (hvisited : visited.elems ⊆ keys)
    (hfuel : keys.length < fuel + visited.elems.length) :
    ∃ walked, walk parent fuel current visited chain = some walked := by
  induction fuel generalizing current visited chain with
  | zero =>
    have hle : visited.elems.length ≤ keys.length := (visited.nodup.subperm hvisited).length_le
    omega
  | succ fuel ih =>
    cases current with
    | none => exact ⟨chain, rfl⟩
    | some k =>
      rw [walk]
      split
      · exact ⟨chain, rfl⟩
      · rename_i hk
        cases hp : parent k with
        | none => exact ⟨chain ++ [k], by cases fuel <;> rfl⟩
        | some p =>
          have helems := PySet.elems_add_of_notMem hk
          refine ih (chain ++ [k]) ?_ ?_
          · rw [helems]
            exact List.append_subset.mpr ⟨hvisited, by simpa using hkeys k p hp⟩
          · rw [helems, List.length_append, List.length_singleton]
            omega

/-- **The loop ends**, in a round more than things were made out of others. -/
theorem exists_walk {keys : List K} (hkeys : ∀ k p, parent k = some p → k ∈ keys) {fuel : ℕ}
    (hfuel : keys.length < fuel) (start : K) : ∃ chain, walk parent fuel (some start) ∅ [] = some chain :=
  exists_walk_of_subset hkeys [] (List.nil_subset keys) hfuel

end Walk

end Tmis.Lib
