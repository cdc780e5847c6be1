import Mathlib.Data.List.Forall2
import Mathlib.Data.List.Perm.Subperm
import Tmis.Lib.IsoDatetime
import Tmis.Lib.PyUuid

/-!
# Values of the interpreter

Values that are built from primitives, members of enums, datetimes and UUIDs with containers and
objects of dataclasses.

* `PyValue`, `PyValue.ind` — the values, and induction on them;
* `PyValue.same` — `a is b or a == b`, which is how containers compare; an equivalence;
* `PyValue.unhashable` — the class of what keeps a value from being hashed;
* `pySet` — `set(items)`, and `pySet_eq_ok` what it gives where no two items are equal;
* `Distinct.length_eq_iff` — of two lists without equal items one is all of the other iff it is as long;
* `PyValue.iterate`, `PyValue.item`, `PyValue.getOr` — what a value is read by, and what is raised by the others.
-/

namespace Tmis.Lib

/-! ### Primitives -/

/-- A boolean, a number or a text; of a `float` the bits. -/
inductive Primitive where
  | bool (b : Bool)
  | int (i : ℤ)
  | float (bits : BitVec 64)
  | str (s : String)
  deriving DecidableEq

/-- What two primitives are equal by.  A `float` that is no number is equal to itself only, as it is the
same object. -/
inductive PrimitiveKey where
  | number (q : ℚ)
  | infinity (negative : Bool)
  | nan (bits : BitVec 64)
  | text (s : String)
  deriving DecidableEq

/-- The number that the bits of a `float` stand for. -/
def floatKey (bits : BitVec 64) : PrimitiveKey :=
  let negative := bits.msb
  let exponent : ℕ := bits.toNat / 2 ^ 52 % 2 ^ 11
  let fraction : ℕ := bits.toNat % 2 ^ 52
  if exponent = 2047 then (if fraction = 0 then .infinity negative else .nan bits)
  else
    let magnitude : ℚ :=
      if exponent = 0 then fraction / 2 ^ 1074 else (2 ^ 52 + fraction) * 2 ^ exponent / 2 ^ 1075
    .number (if negative then -magnitude else magnitude)

def Primitive.key : Primitive → PrimitiveKey
  | .bool b => .number (if b then 1 else 0)
  | .int i => .number i
  | .float bits => floatKey bits
  | .str s => .text s

def Primitive.className : Primitive → String
  | .bool _ => "bool"
  | .int _ => "int"
  | .float _ => "float"
  | .str _ => "str"

/-! ### Values -/

inductive SeqKind where
  | list
  | tuple
  deriving DecidableEq

inductive SetKind where
  | set
  | frozenset
  deriving DecidableEq

/-- A value.  The elements of a set are listed in no particular order, and an object has its fields in
the order of its class. -/
inductive PyValue where
  | none
  | primitive (p : Primitive)
  | enum (className member : String) (value : Primitive)
  | datetime (d : Datetime)
  | uuid (n : BitVec 128)
  | seq (kind : SeqKind) (items : List PyValue)
  | set (kind : SetKind) (items : List PyValue)
  | dict (entries : List (String × PyValue))
  | object (className : String) (fields : List (String × PyValue))

namespace PyValue

/-- Induction on a value: on what is in it. -/
theorem ind {P : PyValue → Prop} (hnone : P .none) (hprimitive : ∀ p, P (.primitive p))
    (henum : ∀ c m p, P (.enum c m p)) (hdatetime : ∀ d, P (.datetime d)) (huuid : ∀ n, P (.uuid n))
    (hseq : ∀ kind items, (∀ x ∈ items, P x) → P (.seq kind items))
    (hset : ∀ kind items, (∀ x ∈ items, P x) → P (.set kind items))
    (hdict : ∀ entries, (∀ e ∈ entries, P e.2) → P (.dict entries))
    (hobject : ∀ c fields, (∀ e ∈ fields, P e.2) → P (.object c fields)) (v : PyValue) : P v :=
  @PyValue.rec P (fun items => ∀ x ∈ items, P x) (fun entries => ∀ e ∈ entries, P e.2) (fun e => P e.2)
    hnone hprimitive henum hdatetime huuid hseq hset hdict hobject
    (fun _ h => absurd h List.not_mem_nil) (fun _ _ hx hxs => List.forall_mem_cons.mpr ⟨hx, hxs⟩)
    (fun _ h => absurd h List.not_mem_nil) (fun _ _ he hes => List.forall_mem_cons.mpr ⟨he, hes⟩)
    (fun _ _ h => h) v

/-! ### Equality -/

mutual

/-- `a is b or a == b`. -/
def same : PyValue → PyValue → Bool
  | .none, .none => true
  | .primitive p, .primitive q => p.key = q.key
  | .enum c m _, .enum c' m' _ => c = c' && m = m'
  | .datetime d, .datetime e => d.key = e.key
  | .uuid m, .uuid n => m = n
  | .seq kind xs, .seq kind' ys => kind = kind' && sameItems xs ys
  | .set _ xs, .set _ ys => allIn xs ys && ys.all fun y => anySame xs y
  | .dict xs, .dict ys => entriesIn xs ys && ys.all fun y => anyEntry xs y
  | .object c xs, .object c' ys => c = c' && sameFields xs ys
  | _, _ => false

def sameItems : List PyValue → List PyValue → Bool
  | [], [] => true
  | x :: xs, y :: ys => same x y && sameItems xs ys
  | _, _ => false

def allIn : List PyValue → List PyValue → Bool
  | [], _ => true
  | x :: xs, ys => (ys.any fun y => same x y) && allIn xs ys

def anySame : List PyValue → PyValue → Bool
  | [], _ => false
  | x :: xs, y => same x y || anySame xs y

def sameFields : List (String × PyValue) → List (String × PyValue) → Bool
  | [], [] => true
  | (name, x) :: xs, (name', y) :: ys => name = name' && same x y && sameFields xs ys
  | _, _ => false

def entriesIn : List (String × PyValue) → List (String × PyValue) → Bool
  | [], _ => true
  | (key, x) :: xs, ys => (ys.any fun y => key = y.1 && same x y.2) && entriesIn xs ys

def anyEntry : List (String × PyValue) → String × PyValue → Bool
  | [], _ => false
  | (key, x) :: xs, y => key = y.1 && same x y.2 || anyEntry xs y

end

lemma sameItems_iff : ∀ {xs ys}, sameItems xs ys = true ↔ List.Forall₂ (fun x y => same x y = true) xs ys
  | [], [] => by simp [sameItems]
  | [], _ :: _ => by simp [sameItems]
  | _ :: _, [] => by simp [sameItems]
  | x :: xs, y :: ys => by simp [sameItems, sameItems_iff]

lemma allIn_iff {ys} : ∀ {xs}, allIn xs ys = true ↔ ∀ x ∈ xs, ∃ y ∈ ys, same x y = true
  | [] => by simp [allIn]
  | x :: xs => by simp [allIn, allIn_iff]

lemma anySame_iff {y} : ∀ {xs}, anySame xs y = true ↔ ∃ x ∈ xs, same x y = true
  | [] => by simp [anySame]
  | x :: xs => by simp [anySame, anySame_iff]

/-- Two entries have one key and one value. -/
def SameEntry (x y : String × PyValue) : Prop := x.1 = y.1 ∧ same x.2 y.2 = true

lemma sameFields_iff : ∀ {xs ys}, sameFields xs ys = true ↔ List.Forall₂ SameEntry xs ys
  | [], [] => by simp [sameFields]
  | [], _ :: _ => by simp [sameFields]
  | _ :: _, [] => by simp [sameFields]
  | (_, _) :: xs, (_, _) :: ys => by simp [sameFields, sameFields_iff, SameEntry]

lemma entriesIn_iff {ys} : ∀ {xs}, entriesIn xs ys = true ↔ ∀ x ∈ xs, ∃ y ∈ ys, SameEntry x y
  | [] => by simp [entriesIn]
  | (_, _) :: xs => by simp [entriesIn, entriesIn_iff, SameEntry]

lemma anyEntry_iff {y} : ∀ {xs}, anyEntry xs y = true ↔ ∃ x ∈ xs, SameEntry x y
  | [] => by simp [anyEntry]
  | (_, _) :: xs => by simp [anyEntry, anyEntry_iff, SameEntry]

/-- Each of the elements is among the others, and each of these among the elements. -/
def Within {α : Type*} (R : α → α → Prop) (xs ys : List α) : Prop :=
  (∀ x ∈ xs, ∃ y ∈ ys, R x y) ∧ ∀ y ∈ ys, ∃ x ∈ xs, R x y

/-! What is equal to a value of each kind. -/

section Kinds

variable {v : PyValue}

lemma same_none : same .none v = true ↔ v = .none := by cases v <;> simp [same]

lemma same_primitive {p} : same (.primitive p) v = true ↔ ∃ q, v = .primitive q ∧ p.key = q.key := by
  cases v <;> simp [same]

lemma same_enum {c m p} : same (.enum c m p) v = true ↔ ∃ q, v = .enum c m q := by
  cases v <;> simp [same, @eq_comm _ c, @eq_comm _ m]

lemma same_datetime {d} : same (.datetime d) v = true ↔ ∃ e, v = .datetime e ∧ d.key = e.key := by
  cases v <;> simp [same]

lemma same_uuid {n} : same (.uuid n) v = true ↔ v = .uuid n := by
  cases v <;> simp [same, @eq_comm _ n]

lemma same_seq {kind xs} : same (.seq kind xs) v = true ↔
    ∃ ys, v = .seq kind ys ∧ List.Forall₂ (fun x y => same x y = true) xs ys := by
  cases v <;> simp [same, sameItems_iff, @eq_comm _ kind]

lemma same_set {kind xs} : same (.set kind xs) v = true ↔
    ∃ kind' ys, v = .set kind' ys ∧ Within (fun x y => same x y = true) xs ys := by
  cases v <;> simp [same, allIn_iff, anySame_iff, Within]

lemma same_dict {xs} : same (.dict xs) v = true ↔ ∃ ys, v = .dict ys ∧ Within SameEntry xs ys := by
  cases v <;> simp [same, entriesIn_iff, anyEntry_iff, Within]

lemma same_object {c xs} : same (.object c xs) v = true ↔
    ∃ ys, v = .object c ys ∧ List.Forall₂ SameEntry xs ys := by
  cases v <;> simp [same, sameFields_iff, @eq_comm _ c]

end Kinds

/-! It is an equivalence. -/

section Within

variable {α : Type*} {R : α → α → Prop} {xs ys zs : List α}

lemma Within.refl (h : ∀ x ∈ xs, R x x) : Within R xs xs :=
  ⟨fun x hx => ⟨x, hx, h x hx⟩, fun x hx => ⟨x, hx, h x hx⟩⟩

lemma Within.symm (hsymm : ∀ x ∈ xs, ∀ y, R x y → R y x) (h : Within R xs ys) : Within R ys xs := by
  refine ⟨fun y hy => ?_, fun x hx => ?_⟩
  · obtain ⟨x, hx, hR⟩ := h.2 y hy
    exact ⟨x, hx, hsymm x hx y hR⟩
  · obtain ⟨y, hy, hR⟩ := h.1 x hx
    exact ⟨y, hy, hsymm x hx y hR⟩

lemma Within.trans (htrans : ∀ x ∈ xs, ∀ y z, R x y → R y z → R x z) (h : Within R xs ys)
    (h' : Within R ys zs) : Within R xs zs := by
  refine ⟨fun x hx => ?_, fun z hz => ?_⟩
  · obtain ⟨y, hy, hR⟩ := h.1 x hx
    obtain ⟨z, hz, hR'⟩ := h'.1 y hy
    exact ⟨z, hz, htrans x hx y z hR hR'⟩
  · obtain ⟨y, hy, hR'⟩ := h'.2 z hz
    obtain ⟨x, hx, hR⟩ := h.2 y hy
    exact ⟨x, hx, htrans x hx y z hR hR'⟩

lemma Within.of_forall₂ : ∀ {xs ys : List α}, List.Forall₂ R xs ys → Within R xs ys
  | _, _, .nil => ⟨fun _ h => absurd h List.not_mem_nil, fun _ h => absurd h List.not_mem_nil⟩
  | x :: _, y :: _, .cons hxy htail => by
      obtain ⟨hleft, hright⟩ := Within.of_forall₂ htail
      refine ⟨List.forall_mem_cons.mpr ⟨⟨y, List.mem_cons_self, hxy⟩, fun x' hx' => ?_⟩,
        List.forall_mem_cons.mpr ⟨⟨x, List.mem_cons_self, hxy⟩, fun y' hy' => ?_⟩⟩
      · obtain ⟨y', hy', hR⟩ := hleft x' hx'
        exact ⟨y', List.mem_cons_of_mem y hy', hR⟩
      · obtain ⟨x', hx', hR⟩ := hright y' hy'
        exact ⟨x', List.mem_cons_of_mem x hx', hR⟩

lemma forall₂_symm : ∀ {xs ys : List α}, (∀ x ∈ xs, ∀ y, R x y → R y x) → List.Forall₂ R xs ys →
    List.Forall₂ R ys xs
  | _, _, _, .nil => .nil
  | x :: _, _, hsymm, .cons hxy htail =>
      .cons (hsymm x List.mem_cons_self _ hxy)
        (forall₂_symm (fun x hx => hsymm x (List.mem_cons_of_mem _ hx)) htail)

lemma forall₂_trans : ∀ {xs ys zs : List α}, (∀ x ∈ xs, ∀ y z, R x y → R y z → R x z) →
    List.Forall₂ R xs ys → List.Forall₂ R ys zs → List.Forall₂ R xs zs
  | _, _, _, _, .nil, .nil => .nil
  | x :: _, _, _, htrans, .cons hxy htail, .cons hyz htail' =>
      .cons (htrans x List.mem_cons_self _ _ hxy hyz)
        (forall₂_trans (fun x hx => htrans x (List.mem_cons_of_mem _ hx)) htail htail')

end Within

lemma same_refl (v : PyValue) : same v v = true := by
  induction v using ind with
  | hnone => exact same_none.mpr rfl
  | hprimitive p => exact same_primitive.mpr ⟨p, rfl, rfl⟩
  | henum c m p => exact same_enum.mpr ⟨p, rfl⟩
  | hdatetime d => exact same_datetime.mpr ⟨d, rfl, rfl⟩
  | huuid n => exact same_uuid.mpr rfl
  | hseq kind items ih => exact same_seq.mpr ⟨items, rfl, List.forall₂_same.mpr ih⟩
  | hset kind items ih => exact same_set.mpr ⟨kind, items, rfl, Within.refl ih⟩
  | hdict entries ih => exact same_dict.mpr ⟨entries, rfl, Within.refl fun e he => ⟨rfl, ih e he⟩⟩
  | hobject c fields ih =>
      exact same_object.mpr ⟨fields, rfl, List.forall₂_same.mpr fun e he => ⟨rfl, ih e he⟩⟩

lemma same_symm {v w : PyValue} (h : same v w = true) : same w v = true := by
  induction v using ind generalizing w with
  | hnone =>
      obtain rfl := same_none.mp h
      exact h
  | hprimitive p =>
      obtain ⟨q, rfl, hkey⟩ := same_primitive.mp h
      exact same_primitive.mpr ⟨p, rfl, hkey.symm⟩
  | henum c m p =>
      obtain ⟨q, rfl⟩ := same_enum.mp h
      exact same_enum.mpr ⟨p, rfl⟩
  | hdatetime d =>
      obtain ⟨e, rfl, hkey⟩ := same_datetime.mp h
      exact same_datetime.mpr ⟨d, rfl, hkey.symm⟩
  | huuid n =>
      obtain rfl := same_uuid.mp h
      exact h
  | hseq kind items ih =>
      obtain ⟨ys, rfl, hys⟩ := same_seq.mp h
      exact same_seq.mpr ⟨items, rfl, forall₂_symm (fun x hx _ => ih x hx) hys⟩
  | hset kind items ih =>
      obtain ⟨kind', ys, rfl, hys⟩ := same_set.mp h
      exact same_set.mpr ⟨kind, items, rfl, hys.symm fun x hx _ => ih x hx⟩
  | hdict entries ih =>
      obtain ⟨ys, rfl, hys⟩ := same_dict.mp h
      exact same_dict.mpr ⟨entries, rfl, hys.symm fun e he _ h => ⟨h.1.symm, ih e he h.2⟩⟩
  | hobject c fields ih =>
      obtain ⟨ys, rfl, hys⟩ := same_object.mp h
      exact same_object.mpr ⟨fields, rfl, forall₂_symm (fun e he _ h => ⟨h.1.symm, ih e he h.2⟩) hys⟩

lemma same_trans {u v w : PyValue} (h : same u v = true) (h' : same v w = true) : same u w = true := by
  induction u using ind generalizing v w with
  | hnone => rwa [same_none.mp h] at h'
  | hprimitive p =>
      obtain ⟨q, rfl, hkey⟩ := same_primitive.mp h
      obtain ⟨r, rfl, hkey'⟩ := same_primitive.mp h'
      exact same_primitive.mpr ⟨r, rfl, hkey.trans hkey'⟩
  | henum c m p =>
      obtain ⟨q, rfl⟩ := same_enum.mp h
      obtain ⟨r, rfl⟩ := same_enum.mp h'
      exact same_enum.mpr ⟨r, rfl⟩
  | hdatetime d =>
      obtain ⟨e, rfl, hkey⟩ := same_datetime.mp h
      obtain ⟨f, rfl, hkey'⟩ := same_datetime.mp h'
      exact same_datetime.mpr ⟨f, rfl, hkey.trans hkey'⟩
  | huuid n => rwa [same_uuid.mp h] at h'
  | hseq kind items ih =>
      obtain ⟨ys, rfl, hys⟩ := same_seq.mp h
      obtain ⟨zs, rfl, hzs⟩ := same_seq.mp h'
      exact same_seq.mpr ⟨zs, rfl, forall₂_trans (fun x hx _ _ => ih x hx) hys hzs⟩
  | hset kind items ih =>
      obtain ⟨_, ys, rfl, hys⟩ := same_set.mp h
      obtain ⟨kind', zs, rfl, hzs⟩ := same_set.mp h'
      exact same_set.mpr ⟨kind', zs, rfl, hys.trans (fun x hx _ _ => ih x hx) hzs⟩
  | hdict entries ih =>
      obtain ⟨ys, rfl, hys⟩ := same_dict.mp h
      obtain ⟨zs, rfl, hzs⟩ := same_dict.mp h'
      exact same_dict.mpr ⟨zs, rfl, hys.trans
        (fun e he _ _ h h' => ⟨h.1.trans h'.1, ih e he h.2 h'.2⟩) hzs⟩
  | hobject c fields ih =>
      obtain ⟨ys, rfl, hys⟩ := same_object.mp h
      obtain ⟨zs, rfl, hzs⟩ := same_object.mp h'
      exact same_object.mpr ⟨zs, rfl, forall₂_trans
        (fun e he _ _ h h' => ⟨h.1.trans h'.1, ih e he h.2 h'.2⟩) hys hzs⟩

example : same (.primitive (.bool true)) (.primitive (.float 0x3ff0000000000000)) = true := by decide +kernel

/-! ### Sets

`isFrozen` tells the dataclasses whose objects have a hash: it is that of their fields. -/

section Hash

variable (isFrozen : String → Bool)

mutual

/-- The class of the first thing in a value that has no hash. -/
def unhashable : PyValue → Option String
  | .seq .list _ => some "list"
  | .seq .tuple items => unhashableItem items
  | .set .set _ => some "set"
  | .dict _ => some "dict"
  | .object c fields => if isFrozen c then unhashableField fields else some c
  | _ => .none

def unhashableItem : List PyValue → Option String
  | [] => .none
  | x :: xs => (unhashable x).or (unhashableItem xs)

def unhashableField : List (String × PyValue) → Option String
  | [] => .none
  | (_, x) :: xs => (unhashable x).or (unhashableField xs)

end

lemma unhashableItem_congr : ∀ {xs ys : List PyValue},
    List.Forall₂ (fun x y => unhashable isFrozen x = unhashable isFrozen y) xs ys →
    unhashableItem isFrozen xs = unhashableItem isFrozen ys
  | _, _, .nil => rfl
  | _, _, .cons hxy htail => by rw [unhashableItem, unhashableItem, hxy, unhashableItem_congr htail]

lemma unhashableField_congr : ∀ {xs ys : List (String × PyValue)},
    List.Forall₂ (fun x y => unhashable isFrozen x.2 = unhashable isFrozen y.2) xs ys →
    unhashableField isFrozen xs = unhashableField isFrozen ys
  | _, _, .nil => rfl
  | (_, _) :: _, (_, _) :: _, .cons hxy htail => by
      rw [unhashableField, unhashableField, hxy, unhashableField_congr htail]

/-- `items.add(x)`. -/
def addItem (items : List PyValue) (x : PyValue) : List PyValue :=
  if items.any fun y => same y x then items else items ++ [x]

/-- `set(items)`. -/
def pySet (items : List PyValue) : Except PyException (List PyValue) :=
  match unhashableItem isFrozen items with
  | some c => .error (typeError ("unhashable type: " ++ pyRepr c))
  | .none => .ok (items.foldl addItem [])

/-- Items no two of which are equal are the elements of a set. -/
def Distinct (items : List PyValue) : Prop := items.Pairwise fun x y => ¬ same x y = true

lemma Distinct.perm {xs ys : List PyValue} (h : Distinct xs) (hperm : xs.Perm ys) : Distinct ys :=
  (hperm.pairwise_iff fun hxy hyx => hxy (same_symm hyx)).mp h

/-- Items that are equal to distinct ones are distinct. -/
lemma Distinct.of_forall₂ {xs ys : List PyValue} (h : Distinct ys)
    (hsame : List.Forall₂ (fun x y => same x y = true) xs ys) : Distinct xs := by
  induction hsame with
  | nil => exact h
  | @cons x y xs ys hxy htail ih =>
      obtain ⟨hy, hys⟩ := List.pairwise_cons.mp h
      refine List.pairwise_cons.mpr ⟨fun x' hx' hsame => ?_, ih hys⟩
      obtain ⟨y', hy', hxy'⟩ := (Within.of_forall₂ htail).1 x' hx'
      exact hy y' hy' (same_trans (same_symm hxy) (same_trans hsame hxy'))

lemma foldl_addItem : ∀ {items added : List PyValue}, Distinct (added ++ items) →
    items.foldl addItem added = added ++ items
  | [], added, _ => (List.append_nil added).symm
  | x :: items, added, h => by
      have hnew : ¬ (added.any fun y => same y x) = true := fun hany => by
        obtain ⟨y, hy, hsame⟩ := List.any_eq_true.mp hany
        exact (List.pairwise_append.mp h).2.2 y hy x List.mem_cons_self hsame
      have happend : added ++ x :: items = (added ++ [x]) ++ items := by simp
      rw [happend] at h ⊢
      rw [List.foldl_cons, addItem, if_neg hnew, foldl_addItem h]

/-- All the items are elements where no two are equal. -/
lemma pySet_eq_ok {items : List PyValue} (hhash : unhashableItem isFrozen items = .none)
    (hdistinct : Distinct items) : pySet isFrozen items = .ok items := by
  rw [pySet, hhash]
  exact congrArg Except.ok (foldl_addItem hdistinct)

/-- The set of items no two of which are equal is these items. -/
lemma eq_of_pySet {items elems : List PyValue} (hdistinct : Distinct items) (h : pySet isFrozen items = .ok elems) :
    elems = items := by
  unfold pySet at h
  split at h
  · cases h
  · obtain rfl := Except.ok.inj h
    exact foldl_addItem hdistinct

end Hash

/-! ### Counting

Values that are equal are one class; of distinct items the classes are distinct. -/

def setoid : Setoid PyValue where
  r x y := same x y = true
  iseqv := ⟨same_refl, same_symm, same_trans⟩

def classes (items : List PyValue) : List (Quotient setoid) := items.map (Quotient.mk setoid)

section Count

variable {xs ys : List PyValue}

lemma Distinct.nodup_classes (h : Distinct xs) : (classes xs).Nodup := by
  refine List.pairwise_map.mpr (List.Pairwise.imp ?_ h)
  intro x y hne heq
  exact hne (Quotient.exact heq)

lemma classes_subset_iff : classes xs ⊆ classes ys ↔ ∀ x ∈ xs, ∃ y ∈ ys, same x y = true := by
  constructor
  · intro h x hx
    obtain ⟨y, hy, heq⟩ := List.mem_map.mp (h (List.mem_map_of_mem hx))
    exact ⟨y, hy, same_symm (Quotient.exact heq)⟩
  · intro h c hc
    obtain ⟨x, hx, rfl⟩ := List.mem_map.mp hc
    obtain ⟨y, hy, hsame⟩ := h x hx
    exact List.mem_map.mpr ⟨y, hy, Quotient.sound (same_symm hsame)⟩

/-- Distinct items that are all among others are not more than these. -/
lemma Distinct.length_le (hxs : Distinct xs) (h : ∀ x ∈ xs, ∃ y ∈ ys, same x y = true) : xs.length ≤ ys.length := by
  have hle := (List.subperm_of_subset hxs.nodup_classes (classes_subset_iff.mpr h)).length_le
  simpa only [classes, List.length_map] using hle

/-- They are as many iff the others, no two equal, are all among them. -/
lemma Distinct.length_eq_iff (hxs : Distinct xs) (hys : Distinct ys) (h : ∀ x ∈ xs, ∃ y ∈ ys, same x y = true) :
    xs.length = ys.length ↔ ∀ y ∈ ys, ∃ x ∈ xs, same y x = true := by
  constructor
  · intro hlength
    have hperm := (List.subperm_of_subset hxs.nodup_classes (classes_subset_iff.mpr h)).perm_of_length_le
      (by simp only [classes, List.length_map, hlength, le_refl])
    exact classes_subset_iff.mp hperm.symm.subset
  · exact fun hback => le_antisymm (hxs.length_le h) (hys.length_le hback)

end Count

/-! ### Reading

A member of an enum is read like any other object. -/

/-- The name of the type of a value, as messages give it. -/
def typeName : PyValue → String
  | .none => "NoneType"
  | .primitive p => p.className
  | .enum c _ _ => c
  | .datetime _ => "datetime.datetime"
  | .uuid _ => "UUID"
  | .seq .list _ => "list"
  | .seq .tuple _ => "tuple"
  | .set .set _ => "set"
  | .set .frozenset _ => "frozenset"
  | .dict _ => "dict"
  | .object c _ => c

/-- The items of an iterable, as `tuple(v)` takes them. -/
def iterate : PyValue → Except PyException (List PyValue)
  | .seq _ items => .ok items
  | .set _ items => .ok items
  | .dict entries => .ok (entries.map fun e => .primitive (.str e.1))
  | .primitive (.str s) => .ok (s.toList.map fun c => .primitive (.str (String.ofList [c])))
  | v => .error (typeError ("'" ++ v.typeName ++ "' object is not iterable"))

/-- `v[key]`, where `key` is a text. -/
def item (v : PyValue) (key : String) : Except PyException PyValue :=
  match v with
  | .dict entries =>
    match entries.lookup key with
    | some x => .ok x
    | .none => .error (keyError key)
  | .seq .list _ => .error (typeError "list indices must be integers or slices, not str")
  | .seq .tuple _ => .error (typeError "tuple indices must be integers or slices, not str")
  | .primitive (.str _) => .error (typeError "string indices must be integers, not 'str'")
  | v => .error (typeError ("'" ++ v.typeName ++ "' object is not subscriptable"))

/-- `v.get(key, default)`. -/
def getOr (v : PyValue) (key : String) (default : PyValue) : Except PyException PyValue :=
  match v with
  | .dict entries => .ok ((entries.lookup key).getD default)
  | v => .error ⟨"AttributeError", "'" ++ v.typeName ++ "' object has no attribute 'get'"⟩

end PyValue

end Tmis.Lib
