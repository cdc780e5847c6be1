import Mathlib.Data.List.Nodup
import Mathlib.Data.List.Perm.Basic

/-!
# Derived indexes

Entries that are built from items and kept beside them: each entry carries the key of the item it was built
from.  When an item is replaced, its entries go and those of the new one are added.

* `Keyed` — the entries of an item carry its key;
* `Keyed.perm_replace` — an index that is maintained in this way is the one built anew, up to order.
-/

namespace Tmis.Lib

variable {α β κ : Type*} {build : α → List β} {itemKey : α → κ} {entryKey : β → κ}

/-- The entries of an item carry its key. -/
def Keyed (build : α → List β) (itemKey : α → κ) (entryKey : β → κ) : Prop :=
  ∀ a, ∀ b ∈ build a, entryKey b = itemKey a

namespace Keyed

variable [DecidableEq κ]

lemma filter_build (h : Keyed build itemKey entryKey) (k : κ) (a : α) :
    (build a).filter (entryKey · ≠ k) = if itemKey a = k then [] else build a := by
  split
  · rename_i hk
    refine List.filter_eq_nil_iff.mpr fun b hb => ?_
    simp [h a b hb, hk]
  · rename_i hk
    refine List.filter_eq_self.mpr fun b hb => ?_
    simp [h a b hb, hk]

/-- The entries that are left are those of the items with other keys. -/
lemma filter_flatMap (h : Keyed build itemKey entryKey) {k : κ} {items : List α}
    (hne : ∀ a ∈ items, itemKey a ≠ k) : (items.flatMap build).filter (entryKey · ≠ k) = items.flatMap build := by
  refine List.filter_eq_self.mpr fun b hb => ?_
  obtain ⟨a, ha, hb⟩ := List.mem_flatMap.mp hb
  simpa [h a b hb] using hne a ha

/-- **An item is replaced**: without the entries of its key, and with those of the new item, the index is the
one that is built from the items as they are now. -/
lemma perm_replace (h : Keyed build itemKey entryKey) {pre post : List α} {a a' : α} {index : List β}
    (hnodup : ((pre ++ a :: post).map itemKey).Nodup) (hindex : index.Perm ((pre ++ a :: post).flatMap build)) :
    (index.filter (entryKey · ≠ itemKey a) ++ build a').Perm ((pre ++ a' :: post).flatMap build) := by
  rw [List.map_append, List.map_cons, List.nodup_middle, List.nodup_cons, List.mem_append, not_or] at hnodup
  have hpre : ∀ b ∈ pre, itemKey b ≠ itemKey a := fun b hb heq => hnodup.1.1 (List.mem_map.mpr ⟨b, hb, heq⟩)
  have hpost : ∀ b ∈ post, itemKey b ≠ itemKey a := fun b hb heq => hnodup.1.2 (List.mem_map.mpr ⟨b, hb, heq⟩)
  have hkept : (index.filter (entryKey · ≠ itemKey a)).Perm (pre.flatMap build ++ post.flatMap build) := by
    refine (hindex.filter _).trans (List.Perm.of_eq ?_)
    rw [List.flatMap_append, List.flatMap_cons, List.filter_append, List.filter_append, h.filter_build,
      if_pos rfl, List.nil_append, h.filter_flatMap hpre, h.filter_flatMap hpost]
  rw [List.flatMap_append, List.flatMap_cons]
  refine (hkept.append_right _).trans ?_
  rw [List.append_assoc]
  exact List.perm_append_comm.append_left _

end Keyed

end Tmis.Lib
