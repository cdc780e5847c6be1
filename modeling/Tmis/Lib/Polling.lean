import Tmis.Lib.Calls
import Tmis.Lib.Run
import Tmis.Lib.Store
import Tmis.Lib.Timedelta

/-!
# Polled schedules

Things that are to be done at some moment, once or every so often.  Nobody is told when the moment has come:
somebody asks what is due, does it, and marks it as done, which moves a thing that recurs to its next moment.

* `Polled` — what is known of such a thing;
* `due`, `markFired` — what is due, and what marking does;
* `PollingEngine`, `Call`, `step` — a store of such things, and the calls on it;
* `FiresOnce` — nothing that is done is due again at the same moment, and nothing that is to be done once at
  any later one;
* `firesOnce_iff`, `along_firesOnce_iff` — it is so iff all that is done recurs after a positive time.
-/

namespace Tmis.Lib

/-- `a + delta`. -/
def PyDatetime.add (a : PyDatetime) (delta : ℤ) : Except PyException PyDatetime :=
  (addTimedelta a.micros delta).map fun micros => { a with micros }

lemma PyDatetime.add_eq_ok {a b : PyDatetime} {delta : ℤ} (h : a.add delta = .ok b) :
    b = { a with micros := a.micros + delta } := by
  unfold PyDatetime.add at h
  obtain ⟨micros, hmicros, rfl⟩ := map_eq_ok.mp h
  unfold addTimedelta at hmicros
  dsimp only at hmicros
  split_ifs at hmicros
  rw [Except.ok.inj hmicros]

lemma PyDatetime.ge_eq_ok {a b : PyDatetime} {result : Bool} :
    a.ge b = .ok result ↔ a.aware = b.aware ∧ decide (b.micros ≤ a.micros) = result := by
  unfold PyDatetime.ge
  by_cases h : a.aware = b.aware <;> simp [h]

/-- A thing that is due at some moment: whose it is, what it is known by, when it is due, after which time it
is due again, if it recurs, and the same thing at another moment. -/
class Polled (S : Type) where
  owner : S → String
  id : S → Uuid
  nextFireAt : S → PyDatetime
  interval : S → Option ℤ
  moved : S → PyDatetime → S
  owner_moved : ∀ s now, owner (moved s now) = owner s
  id_moved : ∀ s now, id (moved s now) = id s
  nextFireAt_moved : ∀ s now, nextFireAt (moved s now) = now

namespace Polling

variable {S : Type} [Polled S]

open Polled (owner nextFireAt interval moved)

/-- What the store keeps a thing under. -/
def key (s : S) : String × Uuid := (owner s, Polled.id s)

/-- The things among these that are due; a moment that cannot be compared raises. -/
def dueAmong (now : PyDatetime) : List S → Except PyException (List S)
  | [] => .ok []
  | s :: rest => do
      let isDue ← now.ge (nextFireAt s)
      let rest ← dueAmong now rest
      return if isDue then s :: rest else rest

/-- `mark_fired`. -/
def markFired (s : S) (now : PyDatetime) : Except PyException S :=
  match interval s with
  | some interval => (now.add interval).map (moved s)
  | none => .ok s

/-- What is due, if all the moments can be compared with this one. -/
lemma dueAmong_eq_ok {now : PyDatetime} {scheduled due : List S} :
    dueAmong now scheduled = .ok due ↔ (∀ s ∈ scheduled, now.aware = (nextFireAt s).aware) ∧
      scheduled.filter (fun s => (nextFireAt s).micros ≤ now.micros) = due := by
  induction scheduled generalizing due with
  | nil => simp [dueAmong]
  | cons s rest ih =>
    simp only [dueAmong, bind_eq_ok, pure_eq_ok, PyDatetime.ge_eq_ok, ih, List.forall_mem_cons]
    constructor
    · rintro ⟨_, ⟨haware, rfl⟩, _, ⟨hrest, rfl⟩, rfl⟩
      exact ⟨⟨haware, hrest⟩, List.filter_cons⟩
    · rintro ⟨⟨haware, hrest⟩, rfl⟩
      refine ⟨_, ⟨haware, rfl⟩, _, ⟨hrest, rfl⟩, ?_⟩
      rw [List.filter_cons]

/-- Marking leaves what is to be done once, and moves what recurs. -/
lemma markFired_eq_ok {s fired : S} {now : PyDatetime} :
    markFired s now = .ok fired ↔ (interval s = none ∧ s = fired) ∨
      ∃ delta next, interval s = some delta ∧ now.add delta = .ok next ∧ moved s next = fired := by
  unfold markFired
  cases hinterval : interval s with
  | none => simp
  | some delta => simp [map_eq_ok]

lemma key_of_markFired {s fired : S} {now : PyDatetime} (h : markFired s now = .ok fired) :
    key fired = key s := by
  rcases markFired_eq_ok.mp h with ⟨-, rfl⟩ | ⟨delta, next, -, -, rfl⟩
  · rfl
  · exact Prod.ext (Polled.owner_moved s next) (Polled.id_moved s next)

end Polling

/-- The engine with its in-memory store; `uuids` counts the identifiers drawn so far. -/
structure PollingEngine (S : Type) [Polled S] where
  store : Store (String × Uuid) S Polling.key := ∅
  uuids : ℕ := 0

/-- What is scheduled, but for its identifier. -/
abbrev Unscheduled (S : Type) [Polled S] := { make : Uuid → S // ∀ uuid, Polled.id (make uuid) = uuid }

namespace PollingEngine

open Polled (owner nextFireAt interval moved)
open Polling

variable {S : Type} [Polled S]

def schedule (engine : PollingEngine S) (unscheduled : Unscheduled S) : S × PollingEngine S :=
  let scheduled := unscheduled.1 engine.uuids
  (scheduled, { store := engine.store.save scheduled, uuids := engine.uuids + 1 })

/-- `list_for_firm`. -/
def listFor (engine : PollingEngine S) (firmId : String) : List S :=
  engine.store.values.filter fun s => owner s = firmId

def due (engine : PollingEngine S) (firmId : String) (now : PyDatetime) : Except PyException (List S) :=
  dueAmong now (engine.listFor firmId)

/-- What is done about one thing: what is due is asked for, and the thing is marked, if it is among that. -/
def fire (engine : PollingEngine S) (firmId : String) (id : Uuid) (now : PyDatetime) :
    Except PyException (PollingEngine S) := do
  let due ← engine.due firmId now
  match due.find? fun s => Polled.id s = id with
  | none => return engine
  | some scheduled =>
    let scheduled ← markFired scheduled now
    return { engine with store := engine.store.save scheduled }

inductive Call (S : Type) [Polled S] where
  | schedule (unscheduled : Unscheduled S)
  | fire (firmId : String) (id : Uuid) (now : PyDatetime)

/-- The engine after a call; one that raises leaves it as it is. -/
def step (engine : PollingEngine S) : Call S → PollingEngine S
  | .schedule unscheduled => (engine.schedule unscheduled).2
  | .fire firmId id now => afterCall engine (engine.fire firmId id now)

/-- The moment of a call. -/
def Call.moment : Call S → Option PyDatetime
  | .schedule _ => none
  | .fire _ _ now => some now

/-! ### What is to hold -/

/-- The thing is due. -/
def IsDue (engine : PollingEngine S) (firmId : String) (id : Uuid) (now : PyDatetime) (s : S) : Prop :=
  ∃ due, engine.due firmId now = .ok due ∧ s ∈ due ∧ Polled.id s = id

/-- The calls are made between these moments, none before an earlier one. -/
def Between (first last : PyDatetime) (calls : List (Call S)) : Prop :=
  (first :: calls.filterMap Call.moment ++ [last]).Pairwise fun a b => a.micros ≤ b.micros

/-- What is marked is not due again at this moment, nor, if it is to be done once, at any later one, whatever
is called in between. -/
def FiresOnce (engine : PollingEngine S) : Call S → Prop
  | .schedule _ => True
  | .fire firmId id now => ∀ s fired, engine.IsDue firmId id now s → markFired s now = .ok fired →
      ∀ calls later, Between now later calls → later = now ∨ interval s = none →
        ∀ x, ¬ (run step (step engine (.fire firmId id now)) calls).IsDue firmId id later x

/-- What is marked recurs, and after a positive time; or the next moment is not in the calendar, and it cannot
be marked. -/
def Recurs (engine : PollingEngine S) : Call S → Prop
  | .schedule _ => True
  | .fire firmId id now => ∀ s, engine.IsDue firmId id now s →
      ∃ delta, interval s = some delta ∧ (0 < delta ∨ ∃ e, now.add delta = .error e)

/-! ### What is due -/

section IsDue

variable {engine : PollingEngine S} {firmId : String} {id : Uuid} {now : PyDatetime} {s fired : S}

lemma mem_listFor : s ∈ engine.listFor firmId ↔ engine.store.get (key s) = some s ∧ owner s = firmId := by
  unfold listFor
  rw [List.mem_filter, Store.mem_values_iff, decide_eq_true_eq]

/-- What is due is there, and its moment is not after this one, with which all the moments can be compared. -/
lemma isDue_iff :
    engine.IsDue firmId id now s ↔ (∀ x ∈ engine.listFor firmId, now.aware = (nextFireAt x).aware) ∧
      engine.store.get (firmId, id) = some s ∧ (nextFireAt s).micros ≤ now.micros := by
  unfold IsDue due
  simp only [dueAmong_eq_ok]
  constructor
  · rintro ⟨_, ⟨haware, rfl⟩, hmem, rfl⟩
    obtain ⟨hmem, hdue⟩ := List.mem_filter.mp hmem
    obtain ⟨hget, rfl⟩ := mem_listFor.mp hmem
    exact ⟨haware, hget, of_decide_eq_true hdue⟩
  · rintro ⟨haware, hget, hdue⟩
    have hkey : key s = (firmId, id) := Store.key_of_get hget
    obtain ⟨rfl, rfl⟩ := Prod.mk.inj hkey
    exact ⟨_, ⟨haware, rfl⟩, List.mem_filter.mpr ⟨mem_listFor.mpr ⟨hget, rfl⟩, decide_eq_true hdue⟩, rfl⟩

/-- There is one thing of an identifier. -/
lemma IsDue.find_eq {due : List S} (hcall : engine.due firmId now = .ok due) (h : engine.IsDue firmId id now s) :
    due.find? (fun x => Polled.id x = id) = some s := by
  obtain ⟨-, hget, -⟩ := isDue_iff.mp h
  obtain ⟨_, hcall', hmem, hid⟩ := h
  obtain rfl := Except.ok.inj (hcall.symm.trans hcall')
  cases hfound : due.find? fun x => Polled.id x = id with
  | none => exact absurd (decide_eq_true hid) (List.find?_eq_none.mp hfound s hmem)
  | some x =>
    have hx : Polled.id x = id := by simpa using List.find?_some hfound
    obtain ⟨-, hget', -⟩ := isDue_iff.mp ⟨due, hcall, List.mem_of_find?_eq_some hfound, hx⟩
    exact hget'.symm.trans hget

/-- Marking what is due. -/
lemma step_fire (h : engine.IsDue firmId id now s) (hfired : markFired s now = .ok fired) :
    step engine (.fire firmId id now) = { engine with store := engine.store.save fired } := by
  have hdue := h
  obtain ⟨due, hcall, -⟩ := hdue
  have hfire : engine.fire firmId id now = .ok { engine with store := engine.store.save fired } := by
    refine bind_eq_ok.mpr ⟨due, hcall, ?_⟩
    simp only [h.find_eq hcall]
    exact bind_eq_ok.mpr ⟨fired, hfired, rfl⟩
  show afterCall engine (engine.fire firmId id now) = _
  rw [hfire, afterCall_ok]

/-- What a call for something leaves: it is due and is marked, or nothing is written. -/
lemma step_fire_cases (engine : PollingEngine S) (firmId : String) (id : Uuid) (now : PyDatetime) :
    (∃ s fired, engine.IsDue firmId id now s ∧ markFired s now = .ok fired) ∨
      step engine (.fire firmId id now) = engine := by
  by_cases h : ∃ s fired, engine.IsDue firmId id now s ∧ markFired s now = .ok fired
  · exact Or.inl h
  right
  rcases afterCall_cases engine (engine.fire firmId id now) with hok | ⟨-, hsame⟩
  · obtain ⟨due, hcall, hrest⟩ := bind_eq_ok.mp hok
    cases hfound : due.find? fun x => Polled.id x = id with
    | none =>
      simp only [hfound] at hrest
      exact (Except.ok.inj hrest).symm
    | some s =>
      simp only [hfound] at hrest
      obtain ⟨fired, hfired, -⟩ := bind_eq_ok.mp hrest
      have hs : Polled.id s = id := by simpa using List.find?_some hfound
      exact absurd ⟨s, fired, ⟨due, hcall, List.mem_of_find?_eq_some hfound, hs⟩, hfired⟩ h
  · exact hsame

/-- What is marked is found under its key. -/
lemma get_fire (h : engine.IsDue firmId id now s) (hfired : markFired s now = .ok fired) :
    (step engine (.fire firmId id now)).store.get (firmId, id) = some fired := by
  obtain ⟨-, hget, -⟩ := isDue_iff.mp h
  have hkey : key fired = (firmId, id) := (key_of_markFired hfired).trans (Store.key_of_get hget)
  rw [step_fire h hfired, ← hkey]
  exact Store.get_save_self _ _

/-- What is marked is due again, if its moment is not after this one. -/
lemma isDue_fire (h : engine.IsDue firmId id now s) (hfired : markFired s now = .ok fired)
    (hle : (nextFireAt fired).micros ≤ now.micros) :
    (step engine (.fire firmId id now)).IsDue firmId id now fired := by
  refine isDue_iff.mpr ⟨?_, get_fire h hfired, hle⟩
  obtain ⟨haware, hget, -⟩ := isDue_iff.mp h
  rw [step_fire h hfired]
  intro x hx
  obtain ⟨hget', howner⟩ := mem_listFor.mp hx
  rcases Store.of_get_save hget' with rfl | hold
  · rcases markFired_eq_ok.mp hfired with ⟨-, rfl⟩ | ⟨delta, next, -, hnext, rfl⟩
    · exact haware _ (mem_listFor.mpr ⟨(Store.key_of_get hget).symm ▸ hget, howner⟩)
    · rw [Polled.nextFireAt_moved, PyDatetime.add_eq_ok hnext]
  · exact haware x (mem_listFor.mpr ⟨hold, howner⟩)

end IsDue

/-! ### Runs -/

/-- The identifiers that are drawn are new ones. -/
def Fresh (engine : PollingEngine S) : Prop := ∀ k s, engine.store.get k = some s → k.2 < engine.uuids

lemma fresh_empty : Fresh ({} : PollingEngine S) := by
  intro k s h
  cases h

lemma fresh_step {engine : PollingEngine S} (h : engine.Fresh) (call : Call S) : (step engine call).Fresh := by
  cases call with
  | schedule unscheduled =>
    intro k s hget
    rcases Store.get_save_cases hget with ⟨rfl, -⟩ | ⟨-, hold⟩
    · exact (unscheduled.2 engine.uuids).trans_lt (Nat.lt_succ_self _)
    · exact (h k s hold).trans (Nat.lt_succ_self _)
  | fire firmId id now =>
    rcases step_fire_cases engine firmId id now with ⟨s, fired, hdue, hfired⟩ | hsame
    · obtain ⟨-, hfound, -⟩ := isDue_iff.mp hdue
      have hkey : key fired = (firmId, id) := (key_of_markFired hfired).trans (Store.key_of_get hfound)
      rw [step_fire hdue hfired]
      intro k x hget
      rcases Store.get_save_cases hget with ⟨rfl, -⟩ | ⟨-, hold⟩
      · rw [hkey]
        exact h _ s hfound
      · exact h k x hold
    · rw [hsame]
      exact h

/-- There is this thing, and it is not due yet. -/
def Waits (firmId : String) (id : Uuid) (now : PyDatetime) (engine : PollingEngine S) : Prop :=
  ∃ s, engine.store.get (firmId, id) = some s ∧ now.micros < (nextFireAt s).micros

lemma Waits.not_isDue {engine : PollingEngine S} {firmId : String} {id : Uuid} {now later : PyDatetime}
    (h : Waits firmId id now engine) (hle : later.micros ≤ now.micros) (x : S) :
    ¬ engine.IsDue firmId id later x := by
  intro hdue
  obtain ⟨s, hget, hlt⟩ := h
  obtain ⟨-, hget', hle'⟩ := isDue_iff.mp hdue
  obtain rfl : s = x := Option.some.inj (hget.symm.trans hget')
  omega

/-- What is not due yet is left alone. -/
lemma waits_step {engine : PollingEngine S} {firmId : String} {id : Uuid} {now : PyDatetime} {call : Call S}
    (hfresh : engine.Fresh) (h : Waits firmId id now engine)
    (hmoment : ∀ moment ∈ call.moment, moment.micros ≤ now.micros) : Waits firmId id now (step engine call) := by
  have hwaits := h
  obtain ⟨s, hget, hlt⟩ := hwaits
  cases call with
  | schedule unscheduled =>
    refine ⟨s, ?_, hlt⟩
    show (engine.store.save (unscheduled.1 engine.uuids)).get (firmId, id) = some s
    rw [Store.get_save, if_neg, hget]
    intro hkey
    have hnew : id = engine.uuids := (congrArg Prod.snd hkey).trans (unscheduled.2 engine.uuids)
    exact absurd (hfresh _ s hget) (by simp [hnew])
  | fire firmId' id' later =>
    rcases step_fire_cases engine firmId' id' later with ⟨x, fired, hdue, hfired⟩ | hsame
    · obtain ⟨-, hfound, -⟩ := isDue_iff.mp hdue
      have hkey : key fired = (firmId', id') := (key_of_markFired hfired).trans (Store.key_of_get hfound)
      refine ⟨s, ?_, hlt⟩
      rw [step_fire hdue hfired]
      show (engine.store.save fired).get (firmId, id) = some s
      rw [Store.get_save, if_neg, hget]
      rw [hkey]
      rintro ⟨⟩
      exact h.not_isDue (hmoment later rfl) x hdue
    · rw [hsame]
      exact h

lemma Between.le_last {first last : PyDatetime} {calls : List (Call S)} (h : Between first last calls) :
    ∀ call ∈ calls, ∀ moment ∈ call.moment, moment.micros ≤ last.micros := by
  intro call hcall moment hmoment
  refine (List.pairwise_append.mp h).2.2 moment (List.mem_cons_of_mem _ ?_) last (List.mem_singleton.mpr rfl)
  exact List.mem_filterMap.mpr ⟨call, hcall, hmoment⟩

/-- What is not due yet is not due before its time, whatever is called. -/
lemma Waits.run {engine : PollingEngine S} {firmId : String} {id : Uuid} {now : PyDatetime} {calls : List (Call S)}
    (hfresh : engine.Fresh) (h : Waits firmId id now engine)
    (hcalls : ∀ call ∈ calls, ∀ moment ∈ call.moment, moment.micros ≤ now.micros) :
    Waits firmId id now (run step engine calls) := by
  refine ((along_of_forall hcalls engine).inv (I := fun engine => engine.Fresh ∧ Waits firmId id now engine)
    ⟨hfresh, h⟩ ?_).2
  intro engine call hinv hmoment
  exact ⟨fresh_step hinv.1 call, waits_step hinv.1 hinv.2 hmoment⟩

/-! ### What is done once -/

/-- **What is done is not due again** iff it recurs after a positive time. -/
theorem firesOnce_iff {engine : PollingEngine S} (hfresh : engine.Fresh) (call : Call S) :
    FiresOnce engine call ↔ Recurs engine call := by
  cases call with
  | schedule unscheduled => exact Iff.rfl
  | fire firmId id now =>
    constructor
    · intro h s hdue
      have honce : ∀ fired, markFired s now = .ok fired → now.micros < (nextFireAt fired).micros := by
        intro fired hfired
        by_contra hle
        refine h s fired hdue hfired [] now ?_ (Or.inl rfl) fired (isDue_fire hdue hfired (not_lt.mp hle))
        simp [Between]
      obtain ⟨-, -, hle⟩ := isDue_iff.mp hdue
      cases hinterval : interval s with
      | none =>
        -- What is to be done once stands there as it did.
        exact absurd (honce s (markFired_eq_ok.mpr (Or.inl ⟨hinterval, rfl⟩))) (not_lt.mpr hle)
      | some delta =>
        refine ⟨delta, rfl, ?_⟩
        cases hnext : now.add delta with
        | error e => exact Or.inr ⟨e, rfl⟩
        | ok next =>
          have hlt := honce _ (markFired_eq_ok.mpr (Or.inr ⟨delta, next, hinterval, hnext, rfl⟩))
          rw [Polled.nextFireAt_moved, PyDatetime.add_eq_ok hnext] at hlt
          exact Or.inl (pos_of_lt_add_right hlt)
    · intro h s fired hdue hfired calls later hbetween hlater x
      obtain ⟨delta, hinterval, hpos⟩ := h s hdue
      obtain ⟨next, hnext, rfl⟩ : ∃ next, now.add delta = .ok next ∧ moved s next = fired := by
        rcases markFired_eq_ok.mp hfired with ⟨hnone, -⟩ | ⟨delta', next, hsome, hnext, hmoved⟩
        · rw [hnone] at hinterval
          cases hinterval
        · obtain rfl : delta = delta' := Option.some.inj (hinterval.symm.trans hsome)
          exact ⟨next, hnext, hmoved⟩
      replace hpos : 0 < delta := by
        rcases hpos with hpos | ⟨e, he⟩
        · exact hpos
        · rw [hnext] at he
          cases he
      obtain rfl : later = now := by
        rcases hlater with hlater | hnone
        · exact hlater
        · rw [hnone] at hinterval
          cases hinterval
      have hwaits : Waits firmId id later (step engine (.fire firmId id later)) := by
        refine ⟨_, get_fire hdue hfired, ?_⟩
        rw [Polled.nextFireAt_moved, PyDatetime.add_eq_ok hnext]
        exact lt_add_of_pos_right _ hpos
      exact (hwaits.run (fresh_step hfresh _) hbetween.le_last).not_isDue le_rfl x

/-- **Nothing that is done in a run is due again** iff all of it recurs after a positive time. -/
theorem along_firesOnce_iff (calls : List (Call S)) :
    Along step FiresOnce ({} : PollingEngine S) calls ↔ Along step Recurs {} calls :=
  along_congr fresh_empty (fun _ call hfresh _ => fresh_step hfresh call) fun _ call hfresh =>
    firesOnce_iff hfresh call

end PollingEngine

end Tmis.Lib
