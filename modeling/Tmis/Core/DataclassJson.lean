import Mathlib.Data.List.Sort
import Tmis.Lib.PyValue

/-!
# The codec between dataclasses and JSON

Encoding follows the value and decoding follows the type.  A type annotation is one that the stores use:
primitives, enums over primitives, datetimes, UUIDs, dataclasses all of whose fields are passed to the
constructor, containers of these, and `X | None`.  Classes are known by their names.

* `toJson`, `fromJson` — the two calls;
* `HasType` — the values of a type;
* `fromJson_toJson` — what was encoded is JSON, and is decoded to an equal value.
-/

namespace Tmis.Core.DataclassJson

open Tmis.Lib PyValue

/-! ### Types -/

inductive PrimitiveType where
  | bool
  | int
  | float
  | str
  deriving DecidableEq

/-- A type annotation; an enum or a dataclass by its name. -/
inductive PyType where
  | primitive (t : PrimitiveType)
  | enum (name : String)
  | datetime
  | uuid
  | seq (kind : SeqKind) (item : PyType)
  | set (kind : SetKind) (item : PyType)
  | dict (value : PyType)
  | optional (inner : PyType)
  | dataclass (name : String)
  deriving DecidableEq

/-- An enum: its members with their values, no two of which are equal. -/
structure EnumClass where
  members : List (String × Primitive)
  distinct : members.Pairwise fun a b => a.2.key ≠ b.2.key

/-- A field of a dataclass, with what it is set to where no argument is passed. -/
structure Field where
  name : String
  type : PyType
  default : Option PyValue := Option.none

structure Dataclass where
  fields : List Field
  isFrozen : Bool
  distinct : (fields.map Field.name).Nodup

/-- The classes by their names. -/
structure Schema where
  enums : String → EnumClass
  dataclasses : String → Dataclass

def Schema.isFrozen (S : Schema) (name : String) : Bool := (S.dataclasses name).isFrozen

/-- The printed forms of values, and the tables of the characters. -/
structure Interpreter where
  str : PyValue → String
  repr : PyValue → String
  tables : CharTables

/-! ### JSON -/

/-- A value of the types that JSON has. -/
inductive Json where
  | null
  | primitive (p : Primitive)
  | array (items : List Json)
  | object (entries : List (String × Json))

mutual

def Json.value : Json → PyValue
  | .null => .none
  | .primitive p => .primitive p
  | .array items => .seq .list (valueItems items)
  | .object entries => .dict (valueEntries entries)

def valueItems : List Json → List PyValue
  | [] => []
  | x :: xs => x.value :: valueItems xs

def valueEntries : List (String × Json) → List (String × PyValue)
  | [] => []
  | (key, x) :: xs => (key, x.value) :: valueEntries xs

end

/-! ### Encoding -/

section Encoding

variable (I : Interpreter)

/-- `sorted(items, key=str)`. -/
def sortedByStr (items : List PyValue) : List PyValue := items.insertionSort fun a b => I.str a ≤ I.str b

mutual

/-- `to_json`. -/
def toJson : PyValue → PyValue
  | .object _ fields => .dict (toJsonEntries fields)
  | .enum _ _ value => .primitive value
  | .datetime d => .primitive (.str (isoformat d))
  | .uuid n => .primitive (.str (uuidText n.toNat))
  | .set _ items => .seq .list (sortedByStr I (toJsonItems items))
  | .seq _ items => .seq .list (toJsonItems items)
  | .dict entries => .dict (toJsonEntries entries)
  | value => value

def toJsonItems : List PyValue → List PyValue
  | [] => []
  | x :: xs => toJson x :: toJsonItems xs

def toJsonEntries : List (String × PyValue) → List (String × PyValue)
  | [] => []
  | (name, x) :: xs => (name, toJson x) :: toJsonEntries xs

end

end Encoding

/-! ### Decoding -/

/-- The type that is left when `| None` is taken off (`_optional_inner`). -/
def PyType.inner : PyType → PyType
  | .optional T => T.inner
  | T => T

/-- A list of words, as they are listed in an error. -/
def listed : List String → String
  | [] => ""
  | [a] => a
  | [a, b] => a ++ " and " ++ b
  | names => ", ".intercalate names.dropLast ++ ", and " ++ (names.getLast?).getD ""

/-- `tp(**kwargs)`, where `tp` is a dataclass. -/
def Dataclass.construct (cls : Dataclass) (name : String) (kwargs : List (String × PyValue)) :
    Except PyException PyValue :=
  let missing := cls.fields.filter fun f => (kwargs.lookup f.name).isNone && f.default.isNone
  if missing = [] then
    .ok (.object name (cls.fields.filterMap fun f =>
      ((kwargs.lookup f.name).or f.default).map fun x => (f.name, x)))
  else
    .error (typeError (name ++ ".__init__() missing " ++ toString missing.length ++
      " required positional argument" ++ (if missing.length = 1 then "" else "s") ++ ": " ++
      listed (missing.map fun f => pyRepr f.name)))

/-- `'…' object is not iterable`. -/
def notIterable (p : Primitive) : PyException := typeError ("'" ++ p.className ++ "' object is not iterable")

section Decoding

variable (S : Schema) (I : Interpreter)

/-- `tp(data)`, where `tp` is an enum. -/
def readEnum (name : String) (data : PyValue) : Except PyException PyValue :=
  match (S.enums name).members.find? fun m => same (.primitive m.2) data with
  | some m => .ok (.enum name m.1 m.2)
  | .none => .error (valueError (I.repr data ++ " is not a valid " ++ name))

/-- The container that is made of the items. -/
def collect (kind : SetKind) (items : List PyValue) : Except PyException PyValue :=
  (pySet S.isFrozen items).map (.set kind)

/-- The type of the field of a dataclass with this name, if there is one. -/
def hint (name field : String) : Option PyType :=
  ((S.dataclasses name).fields.find? fun f => f.name = field).map Field.type

/-- `from_json` of a boolean, a number or a text.  A text is iterated by its characters. -/
def fromPrimitive (p : Primitive) : PyType → Except PyException PyValue
  | .primitive _ => .ok (.primitive p)
  | .enum name => readEnum S I name (.primitive p)
  | .datetime =>
      match p with
      | .str s => (fromisoformat s).map .datetime
      | _ => .ok (.primitive p)
  | .uuid =>
      match p with
      | .str s => (pyUuid I.tables s).map fun n => .uuid (BitVec.ofNat 128 n)
      | _ => .ok (.primitive p)
  | .optional T => fromPrimitive p T
  | .seq kind T =>
      match p with
      | .str s => (s.toList.mapM fun c => fromPrimitive (.str (String.singleton c)) T).map (.seq kind)
      | _ => .error (notIterable p)
  | .set kind T =>
      match p with
      | .str s => do
          let items ← s.toList.mapM fun c => fromPrimitive (.str (String.singleton c)) T
          collect S kind items
      | _ => .error (notIterable p)
  | .dict _ =>
      .error ⟨"AttributeError", "'" ++ p.className ++ "' object has no attribute 'items'"⟩
  | .dataclass name =>
      match p with
      | .str s =>
          -- `data[c]` is asked for where a character is the name of a field.
          if s.toList.any fun c => (hint S name (String.singleton c)).isSome then
            .error (typeError "string indices must be integers, not 'str'")
          else (S.dataclasses name).construct name []
      | _ => .error (notIterable p)

/-- What an item of a list does when `data[item]` is asked for where it is the name of a field. -/
def indexError (name : String) : Json → Option PyException
  | .primitive (.str s) =>
      if (hint S name s).isSome then some (typeError "list indices must be integers or slices, not str")
      else .none
  | .array _ => some (typeError "unhashable type: 'list'")
  | .object _ => some (typeError "unhashable type: 'dict'")
  | _ => .none

mutual

/-- `from_json`. -/
def fromJson : Json → PyType → Except PyException PyValue
  | .null, _ => .ok .none
  | .primitive p, T => fromPrimitive S I p T
  | .array items, T =>
      match T.inner with
      | .dataclass name =>
          match items.findSome? (indexError S name) with
          | some e => .error e
          | .none => (S.dataclasses name).construct name []
      | .enum name => readEnum S I name (Json.array items).value
      | .seq kind T => do
          let items ← fromItems items T
          return .seq kind items
      | .set kind T => do
          let items ← fromItems items T
          collect S kind items
      | .dict _ => .error ⟨"AttributeError", "'list' object has no attribute 'items'"⟩
      | _ => .ok (Json.array items).value
  | .object entries, T =>
      match T.inner with
      | .dataclass name => do
          let kwargs ← fromFields name entries
          (S.dataclasses name).construct name kwargs
      | .enum name => readEnum S I name (Json.object entries).value
      | .seq kind T => do
          let items ← entries.mapM fun e => fromPrimitive S I (.str e.1) T
          return .seq kind items
      | .set kind T => do
          let items ← entries.mapM fun e => fromPrimitive S I (.str e.1) T
          collect S kind items
      | .dict T => do
          let entries ← fromEntries entries T
          return .dict entries
      | _ => .ok (Json.object entries).value

def fromItems : List Json → PyType → Except PyException (List PyValue)
  | [], _ => .ok []
  | x :: xs, T => do
      let v ← fromJson x T
      let vs ← fromItems xs T
      return v :: vs

def fromEntries : List (String × Json) → PyType → Except PyException (List (String × PyValue))
  | [], _ => .ok []
  | (key, x) :: xs, T => do
      let v ← fromJson x T
      let vs ← fromEntries xs T
      return (key, v) :: vs

/-- The arguments that are passed to the constructor: what has no field is left out. -/
def fromFields (name : String) : List (String × Json) → Except PyException (List (String × PyValue))
  | [] => .ok []
  | (field, x) :: xs =>
      match hint S name field with
      | some T => do
          let v ← fromJson x T
          let vs ← fromFields name xs
          return (field, v) :: vs
      | .none => fromFields name xs

end

end Decoding

/-! ### The values of a type -/

/-- A primitive is of the type: every boolean is an integer, and every integer may stand for a `float`. -/
def PrimitiveType.Has : PrimitiveType → Primitive → Prop
  | .bool, .bool _ => True
  | .int, .bool _ | .int, .int _ => True
  | .float, .bool _ | .float, .int _ | .float, .float _ => True
  | .str, .str _ => True
  | _, _ => False

/-- A value is of the type.  What is in a set has a hash, and no two elements are equal. -/
inductive HasType (S : Schema) : PyValue → PyType → Prop
  | primitive {p : Primitive} {t : PrimitiveType} : t.Has p → HasType S (.primitive p) (.primitive t)
  | enum {name member : String} {value : Primitive} : (member, value) ∈ (S.enums name).members →
      HasType S (.enum name member value) (.enum name)
  | datetime (d : Datetime) : HasType S (.datetime d) .datetime
  | uuid (n : BitVec 128) : HasType S (.uuid n) .uuid
  | seq {kind : SeqKind} {items : List PyValue} {T : PyType} : (∀ x ∈ items, HasType S x T) →
      HasType S (.seq kind items) (.seq kind T)
  | set {kind : SetKind} {items : List PyValue} {T : PyType} : (∀ x ∈ items, HasType S x T) →
      (∀ x ∈ items, unhashable S.isFrozen x = Option.none) → Distinct items →
      HasType S (.set kind items) (.set kind T)
  | dict {entries : List (String × PyValue)} {T : PyType} : (entries.map Prod.fst).Nodup →
      (∀ e ∈ entries, HasType S e.2 T) → HasType S (.dict entries) (.dict T)
  | none (T : PyType) : HasType S .none (.optional T)
  | some {v : PyValue} {T : PyType} : HasType S v T → HasType S v (.optional T)
  | object {name : String} {fields : List (String × PyValue)} :
      fields.map Prod.fst = (S.dataclasses name).fields.map Field.name →
      (∀ e ∈ fields, ∀ f ∈ (S.dataclasses name).fields, f.name = e.1 → HasType S e.2 f.type) →
      HasType S (.object name fields) (.dataclass name)

/-! ### What was encoded is decoded -/

section RoundTrip

variable {S : Schema} {I : Interpreter}

@[simp] lemma valueItems_eq : ∀ items, valueItems items = items.map Json.value
  | [] => rfl
  | x :: xs => congrArg (x.value :: ·) (valueItems_eq xs)

@[simp] lemma valueEntries_eq : ∀ entries, valueEntries entries = entries.map fun e => (e.1, e.2.value)
  | [] => rfl
  | (key, x) :: xs => congrArg ((key, x.value) :: ·) (valueEntries_eq xs)

@[simp] lemma toJsonItems_eq : ∀ items, toJsonItems I items = items.map (toJson I)
  | [] => rfl
  | x :: xs => congrArg (toJson I x :: ·) (toJsonItems_eq xs)

@[simp] lemma toJsonEntries_eq : ∀ entries,
    toJsonEntries I entries = entries.map fun e => (e.1, toJson I e.2)
  | [] => rfl
  | (name, x) :: xs => congrArg ((name, toJson I x) :: ·) (toJsonEntries_eq xs)

/-- A value that was read is equal to the one that was written, and has a hash if that one has. -/
def Restores (S : Schema) (w v : PyValue) : Prop :=
  same w v = true ∧ unhashable S.isFrozen w = unhashable S.isFrozen v

/-- A value is encoded as JSON, and decoded as the type. -/
def RoundTrip (S : Schema) (I : Interpreter) (v : PyValue) (T : PyType) : Prop :=
  ∃ j : Json, toJson I v = j.value ∧ ∃ w, fromJson S I j T = .ok w ∧ Restores S w v

/-- Nothing but `None` is read in another way for `| None`. -/
lemma fromJson_optional (j : Json) (T : PyType) : fromJson S I j (.optional T) = fromJson S I j T := by
  cases j <;> rfl

/-- The one with its key is found. -/
lemma find?_key {α κ : Type*} [DecidableEq κ] (key : α → κ) : ∀ {l : List α} {a : α},
    l.Pairwise (fun a b => key a ≠ key b) → a ∈ l → l.find? (fun b => key b = key a) = Option.some a
  | b :: l, a, hl, ha => by
      obtain ⟨hb, hl⟩ := List.pairwise_cons.mp hl
      rcases List.mem_cons.mp ha with rfl | ha
      · exact List.find?_cons_of_pos (decide_eq_true rfl)
      · rw [List.find?_cons_of_neg (by simpa using hb a ha)]
        exact find?_key key hl ha

/-- The one with its name is looked up. -/
lemma lookup_of_mem {β : Type*} : ∀ {l : List (String × β)} {e : String × β}, (l.map Prod.fst).Nodup →
    e ∈ l → l.lookup e.1 = Option.some e.2
  | (name, x) :: l, e, hl, he => by
      obtain ⟨hname, hl⟩ := List.nodup_cons.mp hl
      rcases List.mem_cons.mp he with rfl | he
      · exact List.lookup_cons_self
      · have hne : e.1 ≠ name := fun heq => hname (List.mem_map.mpr ⟨e, he, heq⟩)
        rw [List.lookup_cons, beq_false_of_ne hne]
        exact lookup_of_mem hl he

lemma readEnum_of_mem {name member : String} {value : Primitive}
    (h : (member, value) ∈ (S.enums name).members) :
    readEnum S I name (.primitive value) = .ok (.enum name member value) := by
  have hfind : ((S.enums name).members.find? fun m => same (.primitive m.2) (.primitive value)) =
      Option.some (member, value) := by
    simpa only [same] using find?_key (fun m : String × Primitive => m.2.key) (S.enums name).distinct h
  rw [readEnum, hfind]

lemma hint_of_mem {name : String} {f : Field} (h : f ∈ (S.dataclasses name).fields) :
    hint S name f.name = Option.some f.type := by
  rw [hint, find?_key Field.name (List.pairwise_map.mp (S.dataclasses name).distinct) h, Option.map_some]

/-- Where every field has its argument, these are the fields. -/
lemma construct_eq_ok {cls : Dataclass} {name : String} {kwargs : List (String × PyValue)}
    (h : kwargs.map Prod.fst = cls.fields.map Field.name) :
    cls.construct name kwargs = .ok (.object name kwargs) := by
  have hlookup {e : String × PyValue} (he : e ∈ kwargs) : kwargs.lookup e.1 = Option.some e.2 :=
    lookup_of_mem (h ▸ cls.distinct) he
  have hmissing : (cls.fields.filter fun f => (kwargs.lookup f.name).isNone && f.default.isNone) = [] := by
    refine List.filter_eq_nil_iff.mpr fun f hf => ?_
    obtain ⟨e, he, hname⟩ := List.mem_map.mp (h ▸ List.mem_map_of_mem hf)
    rw [← hname, hlookup he]
    simp
  have hfields : ∀ {ks : List (String × PyValue)} {fs : List Field}, (∀ e ∈ ks, e ∈ kwargs) →
      ks.map Prod.fst = fs.map Field.name → (fs.filterMap fun f =>
        ((kwargs.lookup f.name).or f.default).map fun x => (f.name, x)) = ks := by
    intro ks
    induction ks with
    | nil =>
        intro fs _ hfs
        rw [List.map_eq_nil_iff.mp hfs.symm]
        rfl
    | cons e ks ih =>
        rintro (_ | ⟨f, fs⟩) hks hfs
        · cases hfs
        · obtain ⟨hname, htail⟩ := List.cons.inj hfs
          rw [List.filterMap_cons, ← hname, hlookup (hks e List.mem_cons_self),
            ih (fun e' he' => hks e' (List.mem_cons_of_mem e he')) htail]
          rfl
  rw [Dataclass.construct, hmissing, hfields (fun _ => id) h]
  exact if_pos rfl

/-- Items are decoded one by one. -/
lemma fromItems_of_roundTrip {T : PyType} : ∀ {items : List PyValue},
    (∀ x ∈ items, RoundTrip S I x T) → ∃ js : List Json, items.map (toJson I) = js.map Json.value ∧
      ∃ ws, fromItems S I js T = .ok ws ∧ List.Forall₂ (Restores S) ws items
  | [], _ => ⟨[], rfl, [], rfl, .nil⟩
  | x :: items, h => by
      obtain ⟨j, hj, w, hw, hwx⟩ := h x List.mem_cons_self
      obtain ⟨js, hjs, ws, hws, hwsx⟩ := fromItems_of_roundTrip fun y hy => h y (List.mem_cons_of_mem x hy)
      refine ⟨j :: js, ?_, w :: ws, ?_, .cons hwx hwsx⟩
      · rw [List.map_cons, List.map_cons, hj, hjs]
      · simp only [fromItems, hw, hws, bind, Except.bind, pure, Except.pure]

/-- What is read under a name restores what was written under it. -/
def RestoresEntry (S : Schema) (w v : String × PyValue) : Prop := w.1 = v.1 ∧ Restores S w.2 v.2

/-- So are the values of a dictionary. -/
lemma fromEntries_of_roundTrip {T : PyType} : ∀ {entries : List (String × PyValue)},
    (∀ e ∈ entries, RoundTrip S I e.2 T) → ∃ js : List (String × Json),
      entries.map (fun e => (e.1, toJson I e.2)) = js.map (fun e => (e.1, e.2.value)) ∧
      ∃ ws, fromEntries S I js T = .ok ws ∧ List.Forall₂ (RestoresEntry S) ws entries
  | [], _ => ⟨[], rfl, [], rfl, .nil⟩
  | (key, x) :: entries, h => by
      obtain ⟨j, hj, w, hw, hwx⟩ := h (key, x) List.mem_cons_self
      obtain ⟨js, hjs, ws, hws, hwsx⟩ := fromEntries_of_roundTrip fun e he => h e (List.mem_cons_of_mem _ he)
      refine ⟨(key, j) :: js, ?_, (key, w) :: ws, ?_, .cons ⟨rfl, hwx⟩ hwsx⟩
      · rw [List.map_cons, List.map_cons, hj, hjs]
      · simp only [fromEntries, hw, hws, bind, Except.bind, pure, Except.pure]

/-- So are the fields of an object, each as the type of its field. -/
lemma fromFields_of_roundTrip {name : String} : ∀ {fields : List (String × PyValue)},
    (∀ e ∈ fields, ∃ T, hint S name e.1 = Option.some T ∧ RoundTrip S I e.2 T) →
      ∃ js : List (String × Json),
        fields.map (fun e => (e.1, toJson I e.2)) = js.map (fun e => (e.1, e.2.value)) ∧
        ∃ ws, fromFields S I name js = .ok ws ∧ List.Forall₂ (RestoresEntry S) ws fields
  | [], _ => ⟨[], rfl, [], rfl, .nil⟩
  | (field, x) :: fields, h => by
      obtain ⟨T, hhint, j, hj, w, hw, hwx⟩ := h (field, x) List.mem_cons_self
      obtain ⟨js, hjs, ws, hws, hwsx⟩ := fromFields_of_roundTrip fun e he => h e (List.mem_cons_of_mem _ he)
      refine ⟨(field, j) :: js, ?_, (field, w) :: ws, ?_, .cons ⟨rfl, hwx⟩ hwsx⟩
      · rw [List.map_cons, List.map_cons, hj, hjs]
      · simp only [fromFields, hhint, hw, hws, bind, Except.bind, pure, Except.pure]

/-- A value that is decoded to itself is restored. -/
lemma roundTrip_of_eq {v : PyValue} {T : PyType} {j : Json} (hj : toJson I v = j.value)
    (hv : fromJson S I j T = .ok v) : RoundTrip S I v T :=
  ⟨j, hj, v, hv, same_refl v, rfl⟩

/-- Lists and tuples are restored with their items. -/
lemma roundTrip_seq {kind : SeqKind} {items : List PyValue} {T : PyType}
    (h : ∀ x ∈ items, RoundTrip S I x T) : RoundTrip S I (.seq kind items) (.seq kind T) := by
  obtain ⟨js, hjs, ws, hws, hitems⟩ := fromItems_of_roundTrip h
  refine ⟨.array js, ?_, .seq kind ws, ?_, same_seq.mpr ⟨items, rfl, hitems.imp fun _ _ => And.left⟩, ?_⟩
  · rw [toJson, toJsonItems_eq, hjs, Json.value, valueItems_eq]
  · simp only [fromJson, PyType.inner, hws, bind, Except.bind, pure, Except.pure]
  · cases kind with
    | list => rfl
    | tuple => exact unhashableItem_congr _ (hitems.imp fun _ _ => And.right)

lemma unhashableItem_eq_none {isFrozen : String → Bool} : ∀ {items : List PyValue},
    unhashableItem isFrozen items = Option.none ↔ ∀ x ∈ items, unhashable isFrozen x = Option.none
  | [] => by simp [unhashableItem]
  | x :: items => by simp [unhashableItem, unhashableItem_eq_none]

/-- Sets are restored with their elements, in whatever order these were sorted. -/
lemma roundTrip_set {kind : SetKind} {items : List PyValue} {T : PyType}
    (h : ∀ x ∈ items, RoundTrip S I x T) (hhash : ∀ x ∈ items, unhashable S.isFrozen x = Option.none)
    (hdistinct : Distinct items) : RoundTrip S I (.set kind items) (.set kind T) := by
  -- The elements in the order in which their encodings are sorted.
  let sorted := items.insertionSort fun x y => I.str (toJson I x) ≤ I.str (toJson I y)
  have hperm : sorted.Perm items := List.perm_insertionSort _ items
  have hsorted : sorted.map (toJson I) = sortedByStr I (items.map (toJson I)) :=
    List.map_insertionSort _ _ _ _ fun _ _ _ _ => Iff.rfl
  obtain ⟨js, hjs, ws, hws, hitems⟩ := fromItems_of_roundTrip fun x hx => h x (hperm.mem_iff.mp hx)
  have hhash' : unhashableItem S.isFrozen ws = Option.none := by
    rw [unhashableItem_congr _ (hitems.imp fun _ _ => And.right)]
    exact unhashableItem_eq_none.mpr fun x hx => hhash x (hperm.mem_iff.mp hx)
  have hsame := hitems.imp fun _ _ => And.left
  have hset : pySet S.isFrozen ws = .ok ws :=
    pySet_eq_ok _ hhash' ((hdistinct.perm hperm.symm).of_forall₂ hsame)
  refine ⟨.array js, ?_, .set kind ws, ?_, same_set.mpr ⟨kind, items, rfl, ?_⟩, ?_⟩
  · rw [toJson, toJsonItems_eq, ← hsorted, hjs, Json.value, valueItems_eq]
  · simp only [fromJson, PyType.inner, hws, collect, hset, bind, Except.bind, Except.map]
  · obtain ⟨hleft, hright⟩ := Within.of_forall₂ hsame
    exact ⟨fun w hw => (hleft w hw).imp fun x hx => ⟨hperm.mem_iff.mp hx.1, hx.2⟩,
      fun x hx => hright x (hperm.mem_iff.mpr hx)⟩
  · cases kind <;> rfl

/-- Dictionaries are restored with their values. -/
lemma roundTrip_dict {entries : List (String × PyValue)} {T : PyType}
    (h : ∀ e ∈ entries, RoundTrip S I e.2 T) : RoundTrip S I (.dict entries) (.dict T) := by
  obtain ⟨js, hjs, ws, hws, hentries⟩ := fromEntries_of_roundTrip h
  refine ⟨.object js, ?_, .dict ws, ?_, same_dict.mpr ⟨entries, rfl, ?_⟩, rfl⟩
  · rw [toJson, toJsonEntries_eq, hjs, Json.value, valueEntries_eq]
  · simp only [fromJson, PyType.inner, hws, bind, Except.bind, pure, Except.pure]
  · exact Within.of_forall₂ (hentries.imp fun _ _ hw => ⟨hw.1, hw.2.1⟩)

/-- Objects are restored with their fields. -/
lemma roundTrip_object {name : String} {fields : List (String × PyValue)}
    (hnames : fields.map Prod.fst = (S.dataclasses name).fields.map Field.name)
    (h : ∀ e ∈ fields, ∀ f ∈ (S.dataclasses name).fields, f.name = e.1 → RoundTrip S I e.2 f.type) :
    RoundTrip S I (.object name fields) (.dataclass name) := by
  have hhint : ∀ e ∈ fields, ∃ T, hint S name e.1 = Option.some T ∧ RoundTrip S I e.2 T := by
    intro e he
    obtain ⟨f, hf, hname⟩ := List.mem_map.mp (hnames ▸ List.mem_map_of_mem he)
    exact ⟨f.type, hname ▸ hint_of_mem hf, h e he f hf hname⟩
  obtain ⟨js, hjs, ws, hws, hfields⟩ := fromFields_of_roundTrip hhint
  have hnames' : ws.map Prod.fst = (S.dataclasses name).fields.map Field.name := by
    rw [← hnames, ← List.forall₂_eq_eq_eq, List.forall₂_map_left_iff, List.forall₂_map_right_iff]
    exact hfields.imp fun _ _ => And.left
  refine ⟨.object js, ?_, .object name ws, ?_, same_object.mpr ⟨fields, rfl, ?_⟩, ?_⟩
  · rw [toJson, toJsonEntries_eq, hjs, Json.value, valueEntries_eq]
  · simp only [fromJson, PyType.inner, hws, construct_eq_ok hnames', bind, Except.bind]
  · exact hfields.imp fun _ _ hw => ⟨hw.1, hw.2.1⟩
  · have hfield := unhashableField_congr S.isFrozen (hfields.imp fun _ _ hw => hw.2.2)
    simp only [unhashable, hfield]

/-- Every value of a type is encoded as JSON, and decoded as that type. -/
lemma roundTrip_of_hasType {v : PyValue} {T : PyType} (h : HasType S v T) : RoundTrip S I v T := by
  induction h with
  | @primitive p t _ =>
      exact roundTrip_of_eq (j := .primitive p) rfl rfl
  | @enum name member value hmem =>
      exact roundTrip_of_eq (j := .primitive value) rfl (readEnum_of_mem hmem)
  | datetime d =>
      refine roundTrip_of_eq (j := .primitive (.str (isoformat d))) rfl ?_
      rw [fromJson, fromPrimitive, fromisoformat_isoformat, Except.map]
  | uuid n =>
      refine roundTrip_of_eq (j := .primitive (.str (uuidText n.toNat))) rfl ?_
      simp [fromJson, fromPrimitive, pyUuid_uuidText I.tables n.isLt, Except.map]
  | seq _ ih => exact roundTrip_seq ih
  | set _ hhash hdistinct ih => exact roundTrip_set ih hhash hdistinct
  | dict _ _ ih => exact roundTrip_dict ih
  | none T => exact roundTrip_of_eq (j := .null) rfl rfl
  | some _ ih =>
      obtain ⟨j, hj, w, hw, hrestores⟩ := ih
      exact ⟨j, hj, w, (fromJson_optional j _).trans hw, hrestores⟩
  | object hnames _ ih => exact roundTrip_object hnames ih

end RoundTrip

/-- A schema with a state and with notes that have tags. -/
def noteSchema : Schema where
  enums _ := ⟨[("OPEN", .str "open"), ("DONE", .str "done")], by simp [Primitive.key]⟩
  dataclasses _ :=
    ⟨[{ name := "state", type := .enum "State" },
      { name := "tags", type := .set .frozenset (.primitive .str) },
      { name := "due", type := .optional .datetime, default := some .none }], true, by decide⟩

/-- An interpreter that prints texts. -/
def textPrinter : Interpreter where
  str
    | .primitive (.str s) => s
    | _ => ""
  repr
    | .primitive (.str s) => pyRepr s
    | _ => ""
  tables := .ascii

/-- A note with two tags. -/
def note : PyValue :=
  .object "Note" [("state", .enum "State" "DONE" (.str "done")),
    ("tags", .set .frozenset [.primitive (.str "urgent"), .primitive (.str "draft")]), ("due", .none)]

example : same (toJson textPrinter note) (.dict [("state", .primitive (.str "done")),
    ("tags", .seq .list [.primitive (.str "draft"), .primitive (.str "urgent")]), ("due", .none)]) = true := by
  decide +kernel

end Tmis.Core.DataclassJson
