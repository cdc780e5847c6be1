import Mathlib.Data.List.Induction
import Tmis.Lib.Dict

/-!
# Layers of a dictionary

A dictionary kept in layers, each with the entries that changed since the one below it.

* `overlay` — the layers put on top of each other, the oldest first;
* `get_overlay` — a key reads as in the newest layer that has it;
* `overlay_concat_eq_iff` — when the newest layer hides the others;
* `Chain` — the layers under a key, each of which names the one below it;
* `Chain.unique`, `Chain.mono` — there is one chain, and adding layers under new keys keeps it.
-/

namespace Tmis.Lib

variable {K V : Type*} [DecidableEq K]

/-! ### Layers on top of each other -/

/-- Layers put on top of each other, the oldest first. -/
def overlay (layers : List (Dict K V)) : Dict K V := layers.foldl Dict.update ∅

@[simp] lemma overlay_nil : overlay ([] : List (Dict K V)) = ∅ := rfl

lemma overlay_concat (layers : List (Dict K V)) (top : Dict K V) :
    overlay (layers ++ [top]) = (overlay layers).update top := by
  simp [overlay]

lemma get_overlay_concat (layers : List (Dict K V)) (top : Dict K V) (k : K) :
    (overlay (layers ++ [top])).get k = (top.get k).or ((overlay layers).get k) := by
  rw [overlay_concat, Dict.get_update]

/-- **A key reads as in the newest layer that has it.** -/
theorem get_overlay (layers : List (Dict K V)) (k : K) :
    (overlay layers).get k = layers.reverse.findSome? (·.get k) := by
  induction layers using List.reverseRecOn with
  | nil => rfl
  | append_singleton layers top ih =>
    rw [get_overlay_concat, ih, List.reverse_append, List.reverse_singleton, List.singleton_append,
      List.findSome?_cons]
    cases top.get k <;> rfl

/-- The top layer hides the others iff it has every key of theirs. -/
theorem overlay_concat_eq_iff (layers : List (Dict K V)) (top : Dict K V) :
    (∀ k, (overlay (layers ++ [top])).get k = top.get k) ↔ ∀ d ∈ layers, d.keys ⊆ top.keys := by
  constructor
  · intro h d hd k hk
    obtain ⟨v, hv⟩ := Dict.mem_keys_iff.mp hk
    have hsome : ∃ w, (overlay layers).get k = some w := by
      rw [get_overlay, ← Option.isSome_iff_exists, List.findSome?_isSome_iff]
      exact ⟨d, List.mem_reverse.mpr hd, by rw [hv]; rfl⟩
    obtain ⟨w, hw⟩ := hsome
    have hk := h k
    rw [get_overlay_concat, hw] at hk
    cases htop : top.get k with
    | none => rw [htop] at hk; cases hk
    | some x => exact Dict.mem_keys_iff.mpr ⟨x, htop⟩
  · intro h k
    rw [get_overlay_concat]
    cases htop : top.get k with
    | some x => rfl
    | none =>
      rw [Option.none_or, get_overlay, List.findSome?_eq_none_iff]
      intro d hd
      rw [Option.eq_none_iff_forall_ne_some]
      intro v hv
      obtain ⟨x, hx⟩ := Dict.mem_keys_iff.mp
        (h d (List.mem_reverse.mp hd) (Dict.mem_keys_iff.mpr ⟨v, hv⟩))
      rw [htop] at hx
      cases hx

/-! ### Chains of layers -/

section Chain

variable {I N : Type*} {find find' : I → Option N} {base : N → Option I}

/-- The layers under a key, the oldest first: each names the key of the one below it, and the lowest
names none. -/
inductive Chain (find : I → Option N) (base : N → Option I) : I → List N → Prop
  | lowest {i : I} {n : N} (hfind : find i = some n) (hbase : base n = none) :
      Chain find base i [n]
  | above {i j : I} {n : N} {ns : List N} (hfind : find i = some n) (hbase : base n = some j)
      (hbelow : Chain find base j ns) : Chain find base i (ns ++ [n])

/-- The top of a chain is what its key stands for. -/
lemma Chain.getLast? {i : I} {ns : List N} (h : Chain find base i ns) : ns.getLast? = find i := by
  cases h with
  | lowest hfind hbase => rw [hfind]; rfl
  | above hfind hbase hbelow => rw [hfind, List.getLast?_concat]

/-- There is at most one chain under a key. -/
theorem Chain.unique {i : I} {ns ms : List N} (h : Chain find base i ns) (h' : Chain find base i ms) :
    ns = ms := by
  induction h generalizing ms with
  | lowest hfind hbase =>
    cases h' with
    | lowest hfind' hbase' => rw [Option.some.inj (hfind.symm.trans hfind')]
    | above hfind' hbase' hbelow' =>
      obtain rfl := Option.some.inj (hfind.symm.trans hfind')
      rw [hbase] at hbase'
      cases hbase'
  | above hfind hbase hbelow ih =>
    cases h' with
    | lowest hfind' hbase' =>
      obtain rfl := Option.some.inj (hfind.symm.trans hfind')
      rw [hbase] at hbase'
      cases hbase'
    | above hfind' hbase' hbelow' =>
      obtain rfl := Option.some.inj (hfind.symm.trans hfind')
      obtain rfl := Option.some.inj (hbase.symm.trans hbase')
      rw [ih hbelow']

/-- Layers that stay where they are keep their chains. -/
theorem Chain.mono {i : I} {ns : List N} (h : Chain find base i ns)
    (hkeep : ∀ j n, find j = some n → find' j = some n) : Chain find' base i ns := by
  induction h with
  | lowest hfind hbase => exact .lowest (hkeep _ _ hfind) hbase
  | above hfind hbase hbelow ih => exact .above (hkeep _ _ hfind) hbase ih

end Chain

end Tmis.Lib
