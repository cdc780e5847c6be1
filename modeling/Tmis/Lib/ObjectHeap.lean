import Mathlib.Data.List.Basic
import Mathlib.Data.List.Forall2
import Mathlib.Order.Lattice
import Mathlib.Algebra.Order.Ring.Nat

/-!
# Objects that refer to each other

A heap of mutable objects, a client that reaches some of them, and copies that share nothing with what they are
copies of.

* `Client`, `Client.act` — what code can do with the objects it has been given: it reads what they refer to,
  makes objects and writes to them;
* `Separated` — no reference leads from a part of the heap to the rest, or back;
* `Confined.act` — a client that was given nothing of a part neither changes it nor ever gets to it;
* `FreshFrom`, `Separated.extend_live`, `Separated.extend_frozen` — a copy may join either side;
* `CopyOf`, `copyAll_copied`, `of_copyAll` — copies of objects, and of lists of them.
-/

namespace Tmis.Lib

/-- Objects, each under its address. -/
abbrev Heap (O : Type*) := List O

inductive HeapAction (O : Type*) where
  | load (r : ℕ)
  | alloc (o : O)
  | store (r : ℕ) (o : O)

/-- A heap, and the addresses that a client knows. -/
structure Client (O : Type*) where
  heap : Heap O
  known : List ℕ

variable {O V : Type*} (refs : O → List ℕ)

/-- A client reads, makes and writes objects.  It writes to objects that it knows, and only what it knows. -/
def Client.act (c : Client O) : HeapAction O → Client O
  | .load r =>
    match c.heap[r]? with
    | some o => if r ∈ c.known then { c with known := c.known ++ refs o } else c
    | none => c
  | .alloc o =>
    if ∀ r ∈ refs o, r ∈ c.known then ⟨c.heap ++ [o], c.known ++ [c.heap.length]⟩ else c
  | .store r o =>
    if r ∈ c.known ∧ ∀ r ∈ refs o, r ∈ c.known then { c with heap := c.heap.set r o } else c

/-! ### Two parts of a heap -/

/-- References stay on the side of the part on which they stand, and lead to objects. -/
structure Separated (heap : Heap O) (F : ℕ → Prop) : Prop where
  edges : ∀ r o, heap[r]? = some o → ∀ r' ∈ refs o, r' < heap.length ∧ (F r' ↔ F r)
  bounded : ∀ r, F r → r < heap.length

/-- The objects of a part are what they were. -/
def Keeps (F : ℕ → Prop) (heap heap' : Heap O) : Prop := ∀ r, F r → heap'[r]? = heap[r]?

/-- The client knows objects, but none of the part. -/
structure Client.Confined (F : ℕ → Prop) (c : Client O) : Prop where
  separated : Separated refs c.heap F
  known : ∀ r ∈ c.known, r < c.heap.length ∧ ¬ F r

section Separation

variable {refs} {F G : ℕ → Prop} {heap heap' : Heap O} {c : Client O}

lemma keeps_refl : Keeps F heap heap := fun _ _ => rfl

lemma Keeps.trans {heap'' : Heap O} (h : Keeps F heap heap') (h' : Keeps F heap' heap'') : Keeps F heap heap'' :=
  fun r hr => (h' r hr).trans (h r hr)

lemma Keeps.mono (h : Keeps G heap heap') (hFG : ∀ r, F r → G r) : Keeps F heap heap' := fun r hr => h r (hFG r hr)

lemma getElem?_of_isPrefix {r : ℕ} {o : O} (h : heap <+: heap') (hr : heap[r]? = some o) : heap'[r]? = some o := by
  obtain ⟨block, rfl⟩ := h
  exact (List.getElem?_append_left (List.getElem?_eq_some_iff.mp hr).1).trans hr

lemma Separated.keeps_of_isPrefix (h : Separated refs heap F) (hprefixed : heap <+: heap') : Keeps F heap heap' := by
  intro r hr
  rw [getElem?_of_isPrefix hprefixed (List.getElem?_eq_getElem (h.bounded r hr)),
    List.getElem?_eq_getElem (h.bounded r hr)]

/-- An object outside of the part is written, with references to such objects. -/
lemma Separated.set (h : Separated refs heap F) {r : ℕ} {o : O} (hr : ¬ F r)
    (ho : ∀ r' ∈ refs o, r' < heap.length ∧ ¬ F r') : Separated refs (heap.set r o) F where
  edges r₁ o₁ hget r' hr' := by
    rw [List.length_set]
    rw [List.getElem?_set] at hget
    split at hget
    · rename_i heq
      split at hget
      · cases hget
        rw [← heq]
        exact ⟨(ho r' hr').1, iff_of_false (ho r' hr').2 hr⟩
      · cases hget
    · exact h.edges r₁ o₁ hget r' hr'
  bounded r₁ hF := by
    rw [List.length_set]
    exact h.bounded r₁ hF

lemma keeps_set {r : ℕ} {o : O} (hr : ¬ F r) : Keeps F heap (heap.set r o) := by
  intro r' hr'
  have hne : r ≠ r' := fun heq => hr (heq ▸ hr')
  rw [List.getElem?_set_ne hne]

/-! ### New objects -/

variable (refs) in
/-- What was made since the heap had this length refers to nothing else. -/
def FreshFrom (base : ℕ) (heap : Heap O) : Prop :=
  ∀ r o, base ≤ r → heap[r]? = some o → ∀ r' ∈ refs o, base ≤ r' ∧ r' < heap.length

lemma freshFrom_length (heap : Heap O) : FreshFrom refs heap.length heap := by
  intro r o hr hget
  exact absurd (List.getElem?_eq_some_iff.mp hget).1 (not_lt.mpr hr)

lemma FreshFrom.alloc {base : ℕ} (h : FreshFrom refs base heap) {o : O}
    (ho : ∀ r ∈ refs o, base ≤ r ∧ r < heap.length) : FreshFrom refs base (heap ++ [o]) := by
  intro r o' hr hget r' hr'
  rw [List.length_append, List.length_singleton]
  rcases lt_or_ge r heap.length with hlt | hge
  · rw [List.getElem?_append_left hlt] at hget
    have hbounds := h r o' hr hget r' hr'
    omega
  · rw [List.getElem?_append_right hge, List.getElem?_singleton] at hget
    split at hget
    · cases hget
      have hbounds := ho r' hr'
      omega
    · cases hget

lemma getElem?_prefix_cases (h : heap <+: heap') {r : ℕ} {o : O} (hget : heap'[r]? = some o) :
    heap[r]? = some o ∨ heap.length ≤ r := by
  rcases lt_or_ge r heap.length with hlt | hge
  · obtain ⟨block, rfl⟩ := h
    rw [List.getElem?_append_left hlt] at hget
    exact Or.inl hget
  · exact Or.inr hge

/-- What is new stays outside of the part. -/
lemma Separated.extend_live (h : Separated refs heap F) (hprefixed : heap <+: heap')
    (hfresh : FreshFrom refs heap.length heap') : Separated refs heap' F where
  edges r o hget r' hr' := by
    rcases getElem?_prefix_cases hprefixed hget with hold | hnew
    · obtain ⟨hlt, hiff⟩ := h.edges r o hold r' hr'
      exact ⟨hlt.trans_le hprefixed.length_le, hiff⟩
    · obtain ⟨hge, hlt⟩ := hfresh r o hnew hget r' hr'
      exact ⟨hlt, iff_of_false (fun hF => absurd (h.bounded r' hF) (not_lt.mpr hge))
        fun hF => absurd (h.bounded r hF) (not_lt.mpr hnew)⟩
  bounded r hF := (h.bounded r hF).trans_le hprefixed.length_le

/-- What is new joins the part. -/
lemma Separated.extend_frozen (h : Separated refs heap F) (hprefixed : heap <+: heap')
    (hfresh : FreshFrom refs heap.length heap') :
    Separated refs heap' fun r => F r ∨ (heap.length ≤ r ∧ r < heap'.length) where
  edges r o hget r' hr' := by
    have hr := (List.getElem?_eq_some_iff.mp hget).1
    rcases getElem?_prefix_cases hprefixed hget with hold | hnew
    · obtain ⟨hlt, hiff⟩ := h.edges r o hold r' hr'
      have hr := (List.getElem?_eq_some_iff.mp hold).1
      exact ⟨hlt.trans_le hprefixed.length_le, or_congr hiff (iff_of_false (by omega) (by omega))⟩
    · obtain ⟨hge, hlt⟩ := hfresh r o hnew hget r' hr'
      exact ⟨hlt, iff_of_true (Or.inr ⟨hge, hlt⟩) (Or.inr ⟨hnew, hr⟩)⟩
  bounded r hr := by
    rcases hr with hF | ⟨-, hlt⟩
    · exact (h.bounded r hF).trans_le hprefixed.length_le
    · exact hlt

/-! ### A client outside of the part -/

/-- **The frame rule**: a client that knows nothing of a part of the heap leaves it as it is, and does not get to
know anything of it. -/
theorem Client.Confined.act (h : c.Confined refs F) (a : HeapAction O) :
    (c.act refs a).Confined refs F ∧ Keeps F c.heap (c.act refs a).heap := by
  cases a with
  | load r =>
    rw [Client.act]
    split
    · rename_i o hget
      split_ifs with hr
      · refine ⟨⟨h.separated, List.forall_mem_append.mpr ⟨h.known, fun r' hr' => ?_⟩⟩, keeps_refl⟩
        obtain ⟨hlt, hiff⟩ := h.separated.edges r o hget r' hr'
        exact ⟨hlt, fun hF => (h.known r hr).2 (hiff.mp hF)⟩
      · exact ⟨h, keeps_refl⟩
    · exact ⟨h, keeps_refl⟩
  | alloc o =>
    rw [Client.act]
    split_ifs with ho
    · have hprefixed : c.heap <+: c.heap ++ [o] := List.prefix_append ..
      refine ⟨⟨⟨fun r o' hget r' hr' => ?_, fun r hF => ?_⟩, ?_⟩, h.separated.keeps_of_isPrefix hprefixed⟩
      · rcases getElem?_prefix_cases hprefixed hget with hold | hnew
        · obtain ⟨hlt, hiff⟩ := h.separated.edges r o' hold r' hr'
          exact ⟨hlt.trans_le hprefixed.length_le, hiff⟩
        · rw [List.getElem?_append_right hnew, List.getElem?_singleton] at hget
          split at hget
          · cases hget
            obtain ⟨hlt, hF⟩ := h.known r' (ho r' hr')
            exact ⟨hlt.trans_le hprefixed.length_le,
              iff_of_false hF fun hF => absurd (h.separated.bounded r hF) (not_lt.mpr hnew)⟩
          · cases hget
      · exact (h.separated.bounded r hF).trans_le hprefixed.length_le
      · refine List.forall_mem_append.mpr ⟨fun r hr => ?_, List.forall_mem_singleton.mpr ⟨by simp, fun hF => ?_⟩⟩
        · exact ⟨(h.known r hr).1.trans_le hprefixed.length_le, (h.known r hr).2⟩
        · exact absurd (h.separated.bounded _ hF) (lt_irrefl _)
    · exact ⟨h, keeps_refl⟩
  | store r o =>
    rw [Client.act]
    split_ifs with hr
    · obtain ⟨hr, ho⟩ := hr
      refine ⟨⟨h.separated.set (h.known r hr).2 fun r' hr' => h.known r' (ho r' hr'), fun r' hr' => ?_⟩,
        keeps_set (h.known r hr).2⟩
      rw [List.length_set]
      exact h.known r' hr'
    · exact ⟨h, keeps_refl⟩

/-- The frame rule for a program. -/
theorem Client.Confined.run (h : c.Confined refs F) (program : List (HeapAction O)) :
    (program.foldl (Client.act refs) c).Confined refs F ∧
      Keeps F c.heap (program.foldl (Client.act refs) c).heap := by
  induction program generalizing c with
  | nil => exact ⟨h, keeps_refl⟩
  | cons a program ih =>
    obtain ⟨hact, hkeeps⟩ := h.act a
    obtain ⟨hrun, hkeeps'⟩ := ih hact
    exact ⟨hrun, hkeeps.trans hkeeps'⟩

end Separation

/-! ### Copies -/

/-- No reference leads out of the part. -/
def Closed (heap : Heap O) (G : ℕ → Prop) : Prop := ∀ r o, G r → heap[r]? = some o → ∀ r' ∈ refs o, G r'

/-- No reference leads to nothing. -/
abbrev Valid (heap : Heap O) : Prop := Closed refs heap (· < heap.length)

/-- What is read at an address depends only on what can be reached from it. -/
def LocalView (view : Heap O → ℕ → Option V) : Prop :=
  ∀ G heap heap' r, Closed refs heap G → Keeps G heap heap' → G r → view heap' r = view heap r

/-- The heap has grown by objects that refer to new ones only. -/
structure Grown (base : ℕ) (heap heap' : Heap O) : Prop where
  isPrefix : heap <+: heap'
  valid : Valid refs heap'
  fresh : FreshFrom refs base heap'

/-- `copy` makes new objects, which are read as what they are copies of; it fails where nothing can be read. -/
structure CopyOf (view : Heap O → ℕ → Option V) (copy : Heap O → ℕ → Option (Heap O × ℕ)) : Prop where
  isLocal : LocalView refs view
  copied : ∀ base heap r v, base ≤ heap.length → Valid refs heap → FreshFrom refs base heap → r < heap.length →
    view heap r = some v → ∃ heap' r', copy heap r = some (heap', r') ∧ Grown refs base heap heap' ∧
      (base ≤ r' ∧ r' < heap'.length) ∧ view heap' r' = some v
  failed : ∀ heap r, Valid refs heap → view heap r = none → copy heap r = none

/-- Copies of the objects of a list, one after the other. -/
def copyAll (copy : Heap O → ℕ → Option (Heap O × ℕ)) : Heap O → List ℕ → Option (Heap O × List ℕ)
  | heap, [] => some (heap, [])
  | heap, r :: rs =>
    match copy heap r with
    | none => none
    | some (heap', r') => (copyAll copy heap' rs).map fun p => (p.1, r' :: p.2)

section Copies

variable {refs} {base : ℕ} {heap heap' heap'' : Heap O} {view : Heap O → ℕ → Option V}
  {copy : Heap O → ℕ → Option (Heap O × ℕ)}

lemma Separated.valid {F : ℕ → Prop} (h : Separated refs heap F) : Valid refs heap :=
  fun r o _ hget r' hr' => (h.edges r o hget r' hr').1

lemma Separated.closed {F : ℕ → Prop} (h : Separated refs heap F) : Closed refs heap F :=
  fun r o hr hget r' hr' => (h.edges r o hget r' hr').2.mpr hr

lemma Grown.trans (h : Grown refs base heap heap') (h' : Grown refs base heap' heap'') :
    Grown refs base heap heap'' := ⟨h.isPrefix.trans h'.isPrefix, h'.valid, h'.fresh⟩

lemma keeps_isPrefix (h : heap <+: heap') : Keeps (· < heap.length) heap heap' := by
  intro r hr
  rw [getElem?_of_isPrefix h (List.getElem?_eq_getElem hr), List.getElem?_eq_getElem hr]

/-- What is read of an object is read of it later. -/
lemma LocalView.of_isPrefix (hlocal : LocalView refs view) (hvalid : Valid refs heap) (hprefixed : heap <+: heap')
    {r : ℕ} (hr : r < heap.length) : view heap' r = view heap r :=
  hlocal _ heap heap' r hvalid (keeps_isPrefix hprefixed) hr

/-- One more new object. -/
lemma grown_alloc (hvalid : Valid refs heap) (hfresh : FreshFrom refs base heap) {o : O}
    (ho : ∀ r ∈ refs o, base ≤ r ∧ r < heap.length) : Grown refs base heap (heap ++ [o]) := by
  refine ⟨List.prefix_append .., fun r o' _ hget r' hr' => ?_, hfresh.alloc ho⟩
  rw [List.length_append]
  rcases getElem?_prefix_cases (List.prefix_append heap [o]) hget with hold | hnew
  · exact Nat.lt_add_right _ (hvalid r o' (List.getElem?_eq_some_iff.mp hold).1 hold r' hr')
  · rw [List.getElem?_append_right hnew, List.getElem?_singleton] at hget
    split at hget
    · cases hget
      exact Nat.lt_add_right _ (ho r' hr').2
    · cases hget

lemma mapM_eq_some_iff {X Y : Type*} {f : X → Option Y} {xs : List X} {ys : List Y} :
    xs.mapM f = some ys ↔ List.Forall₂ (fun x y => f x = some y) xs ys := by
  induction xs generalizing ys with
  | nil =>
    rw [List.mapM_nil, List.forall₂_nil_left_iff]
    exact ⟨fun h => (Option.some_inj.mp h).symm, fun h => congrArg some h.symm⟩
  | cons x xs ih =>
    rw [List.mapM_cons, List.forall₂_cons_left_iff]
    constructor
    · intro h
      obtain ⟨y, hy, h⟩ := Option.bind_eq_some_iff.mp h
      obtain ⟨ys', hys, h⟩ := Option.bind_eq_some_iff.mp h
      exact ⟨y, ys', hy, ih.mp hys, (Option.some_inj.mp h).symm⟩
    · rintro ⟨y, ys', hy, hys, rfl⟩
      rw [hy, ih.mpr hys]
      rfl

/-- What can be read of each can be read of all. -/
lemma exists_mapM {X Y : Type*} {f : X → Option Y} {xs : List X} (h : ∀ x ∈ xs, ∃ y, f x = some y) :
    ∃ ys, xs.mapM f = some ys := by
  induction xs with
  | nil => exact ⟨[], rfl⟩
  | cons x xs ih =>
    obtain ⟨⟨y, hy⟩, hxs⟩ := List.forall_mem_cons.mp h
    obtain ⟨ys, hys⟩ := ih hxs
    refine ⟨y :: ys, ?_⟩
    rw [List.mapM_cons, hy, hys]
    rfl

/-- What was read was read of something, and what was read of something is there. -/
lemma forall_mem_mapM {X Y : Type*} {f : X → Option Y} {xs : List X} {ys : List Y} (h : xs.mapM f = some ys) :
    (∀ y ∈ ys, ∃ x ∈ xs, f x = some y) ∧ ∀ x ∈ xs, ∃ y ∈ ys, f x = some y := by
  have hall := mapM_eq_some_iff.mp h
  clear h
  induction hall with
  | nil => exact ⟨fun y hy => absurd hy List.not_mem_nil, fun x hx => absurd hx List.not_mem_nil⟩
  | cons hxy _ ih =>
    obtain ⟨ihy, ihx⟩ := ih
    refine ⟨List.forall_mem_cons.mpr ⟨⟨_, List.mem_cons_self, hxy⟩, fun y hy => ?_⟩,
      List.forall_mem_cons.mpr ⟨⟨_, List.mem_cons_self, hxy⟩, fun x hx => ?_⟩⟩
    · obtain ⟨x, hx, hxy⟩ := ihy y hy
      exact ⟨x, List.mem_cons_of_mem _ hx, hxy⟩
    · obtain ⟨y, hy, hxy⟩ := ihx x hx
      exact ⟨y, List.mem_cons_of_mem _ hy, hxy⟩

lemma mapM_congr_mem {X Y : Type*} {f g : X → Option Y} {xs : List X} (h : ∀ x ∈ xs, f x = g x) :
    xs.mapM f = xs.mapM g := by
  induction xs with
  | nil => rfl
  | cons x xs ih =>
    obtain ⟨hx, hxs⟩ := List.forall_mem_cons.mp h
    rw [List.mapM_cons, List.mapM_cons, hx, ih hxs]

/-- **Copies of a list**: new objects that are read as those in the list. -/
theorem copyAll_copied (h : CopyOf refs view copy) {rs : List ℕ} {vs : List V} (hbase : base ≤ heap.length)
    (hvalid : Valid refs heap) (hfresh : FreshFrom refs base heap) (hrs : ∀ r ∈ rs, r < heap.length)
    (hview : rs.mapM (view heap) = some vs) :
    ∃ heap' rs', copyAll copy heap rs = some (heap', rs') ∧ Grown refs base heap heap' ∧
      (∀ r ∈ rs', base ≤ r ∧ r < heap'.length) ∧ rs'.mapM (view heap') = some vs := by
  induction rs generalizing heap vs with
  | nil =>
    cases hview
    exact ⟨heap, [], rfl, ⟨List.prefix_rfl, hvalid, hfresh⟩, fun _ hr => absurd hr List.not_mem_nil, rfl⟩
  | cons r rs ih =>
    obtain ⟨hr, hrs⟩ := List.forall_mem_cons.mp hrs
    rw [List.mapM_cons] at hview
    obtain ⟨v, hv, hview⟩ := Option.bind_eq_some_iff.mp hview
    obtain ⟨vs, hvs, hview⟩ := Option.bind_eq_some_iff.mp hview
    cases hview
    obtain ⟨heap₁, r', hcopy, hgrown, hr', hv'⟩ := h.copied base heap r v hbase hvalid hfresh hr hv
    have hle := hgrown.isPrefix.length_le
    rw [← mapM_congr_mem fun x hx => h.isLocal.of_isPrefix hvalid hgrown.isPrefix (hrs x hx)] at hvs
    obtain ⟨heap₂, rs', hcopies, hgrown', hrs', hvs'⟩ := ih (hbase.trans hle) hgrown.valid hgrown.fresh
      (fun x hx => (hrs x hx).trans_le hle) hvs
    have hle' := hgrown'.isPrefix.length_le
    refine ⟨heap₂, r' :: rs', ?_, hgrown.trans hgrown', ?_, ?_⟩
    · rw [copyAll, hcopy]
      dsimp only
      rw [hcopies, Option.map_some]
    · exact List.forall_mem_cons.mpr ⟨⟨hr'.1, hr'.2.trans_le hle'⟩, hrs'⟩
    · rw [List.mapM_cons, h.isLocal.of_isPrefix hgrown.valid hgrown'.isPrefix hr'.2, hv', hvs']
      rfl

/-- Where one of the objects cannot be read, the copies fail. -/
theorem copyAll_failed (h : CopyOf refs view copy) {rs : List ℕ} (hvalid : Valid refs heap)
    (hrs : ∀ r ∈ rs, r < heap.length) (hview : rs.mapM (view heap) = none) : copyAll copy heap rs = none := by
  induction rs generalizing heap with
  | nil => cases hview
  | cons r rs ih =>
    obtain ⟨hr, hrs⟩ := List.forall_mem_cons.mp hrs
    cases hv : view heap r with
    | none => rw [copyAll, h.failed heap r hvalid hv]
    | some v =>
      obtain ⟨heap₁, r', hcopy, hgrown, -, -⟩ :=
        h.copied heap.length heap r v le_rfl hvalid (freshFrom_length heap) hr hv
      have hle := hgrown.isPrefix.length_le
      have hnone : rs.mapM (view heap) = none := by
        rw [List.mapM_cons, hv] at hview
        cases hrest : rs.mapM (view heap) with
        | none => rfl
        | some vs =>
          rw [hrest] at hview
          cases hview
      rw [← mapM_congr_mem fun x hx => h.isLocal.of_isPrefix hvalid hgrown.isPrefix (hrs x hx)] at hnone
      rw [copyAll, hcopy]
      dsimp only
      rw [ih hgrown.valid (fun x hx => (hrs x hx).trans_le hle) hnone, Option.map_none]

/-- What copies of a list that do not fail are. -/
theorem of_copyAll (h : CopyOf refs view copy) {rs rs' : List ℕ} (hbase : base ≤ heap.length)
    (hvalid : Valid refs heap) (hfresh : FreshFrom refs base heap) (hrs : ∀ r ∈ rs, r < heap.length)
    (hcopies : copyAll copy heap rs = some (heap', rs')) :
    ∃ vs, rs.mapM (view heap) = some vs ∧ Grown refs base heap heap' ∧
      (∀ r ∈ rs', base ≤ r ∧ r < heap'.length) ∧ rs'.mapM (view heap') = some vs := by
  cases hview : rs.mapM (view heap) with
  | none =>
    rw [copyAll_failed h hvalid hrs hview] at hcopies
    cases hcopies
  | some vs =>
    obtain ⟨heap₁, rs₁, hcopies₁, hcopied⟩ := copyAll_copied h hbase hvalid hfresh hrs hview
    rw [hcopies₁] at hcopies
    cases hcopies
    exact ⟨vs, rfl, hcopied⟩

end Copies

end Tmis.Lib
