import Mathlib.Data.List.Basic
import Mathlib.Data.List.Nodup

/-!
# Sets of the interpreter

A `set`: its elements, none twice, in the order in which they were added.  In which order it is iterated
depends on the hashes; the order is a parameter, the same as long as nothing is added.

* `PySet.add`, `PySet.union`, `PySet.discard` — `s.add(x)`, `s |= t` and `s.discard(x)`;
* `mem_add`, `add_of_mem` — what is in a set afterwards; adding what is there changes nothing;
* `SetOrder` — an order of iteration.
-/

namespace Tmis.Lib

/-- A set: elements, none twice. -/
structure PySet (α : Type*) where
  elems : List α
  nodup : elems.Nodup
  deriving DecidableEq

namespace PySet

variable {α : Type*} {s t : PySet α} {x y : α}

instance : EmptyCollection (PySet α) := ⟨⟨[], List.nodup_nil⟩⟩
instance : Singleton α (PySet α) := ⟨fun x => ⟨[x], List.nodup_singleton x⟩⟩
instance : Membership α (PySet α) := ⟨fun s x => x ∈ s.elems⟩

instance [DecidableEq α] (x : α) (s : PySet α) : Decidable (x ∈ s) :=
  inferInstanceAs (Decidable (x ∈ s.elems))

@[simp] lemma mem_elems : x ∈ s.elems ↔ x ∈ s := Iff.rfl

@[simp] lemma not_mem_empty : x ∉ (∅ : PySet α) := List.not_mem_nil

@[simp] lemma mem_singleton : x ∈ ({y} : PySet α) ↔ x = y := List.mem_singleton

variable [DecidableEq α]

/-- `s.add(x)`. -/
def add (s : PySet α) (x : α) : PySet α :=
  if h : x ∈ s.elems then s
  else
    ⟨s.elems ++ [x], s.nodup.append (List.nodup_singleton x) fun _ hy hyx =>
      h (List.mem_singleton.mp hyx ▸ hy)⟩

/-- `s |= t`. -/
def union (s t : PySet α) : PySet α := t.elems.foldl add s

/-- `s.discard(x)`. -/
def discard (s : PySet α) (x : α) : PySet α := ⟨s.elems.filter (· ≠ x), s.nodup.filter _⟩

/-- Adding what is there changes nothing. -/
lemma add_of_mem (h : x ∈ s) : s.add x = s := dif_pos h

/-- What is new stands at the end. -/
lemma elems_add_of_notMem (h : x ∉ s) : (s.add x).elems = s.elems ++ [x] :=
  congrArg PySet.elems (dif_neg h)

@[simp] lemma mem_add : y ∈ s.add x ↔ y ∈ s ∨ y = x := by
  unfold add
  split
  · rename_i h
    refine ⟨Or.inl, ?_⟩
    rintro (hy | rfl)
    · exact hy
    · exact h
  · exact List.mem_append.trans (or_congr_right List.mem_singleton)

@[simp] lemma mem_union : y ∈ s.union t ↔ y ∈ s ∨ y ∈ t := by
  obtain ⟨elems, hnodup⟩ := t
  change y ∈ elems.foldl add s ↔ y ∈ s ∨ y ∈ elems
  clear hnodup
  induction elems generalizing s with
  | nil => simp
  | cons x elems ih => rw [List.foldl_cons, ih, mem_add, List.mem_cons, or_assoc]

@[simp] lemma mem_discard : y ∈ s.discard x ↔ y ∈ s ∧ y ≠ x :=
  List.mem_filter.trans (and_congr_right fun _ => decide_eq_true_iff)

lemma mem_add_self (s : PySet α) (x : α) : x ∈ s.add x := mem_add.mpr (Or.inr rfl)

lemma mem_add_of_mem (h : y ∈ s) (x : α) : y ∈ s.add x := mem_add.mpr (Or.inl h)

end PySet

/-- The order in which a set is iterated, given the order in which its elements were added. -/
structure SetOrder where
  iterate : List String → List String
  perm : ∀ elems, (iterate elems).Perm elems

namespace SetOrder

/-- The elements of a set as they are iterated. -/
def list (order : SetOrder) (s : PySet String) : List String := order.iterate s.elems

lemma mem_list {order : SetOrder} {s : PySet String} {x : String} : x ∈ order.list s ↔ x ∈ s :=
  (order.perm s.elems).mem_iff

lemma list_eq_nil {order : SetOrder} {s : PySet String} : order.list s = [] ↔ s.elems = [] := by
  rw [← List.length_eq_zero_iff, ← List.length_eq_zero_iff, list, (order.perm s.elems).length_eq]

/-- Elements are iterated in the order in which they were added. -/
def insertion : SetOrder := ⟨id, List.Perm.refl⟩

end SetOrder

end Tmis.Lib
