import Tmis.Lib.Dict
import Tmis.Lib.Journal
import Tmis.Lib.PySet
import Tmis.Lib.Python
import Tmis.Lib.Run

/-!
# Event streaming

`runtime_platform.event_streaming`: an engine in front of an event bus that numbers what it publishes and
leaves out what was published before under the same idempotency key.  A call of `publish` is cut where it
awaits the bus; other calls go on meanwhile.

* `EventStreamingEngine`, `seen`, `record`, `replay`, `archive` — the engine;
* `Streaming`, `Op`, `step` — the engine with its bus and the calls on their way;
* `AtMostOnce`, `Settled` — what the keys are for, and the discipline that it takes;
* `along_atMostOnce_iff` — the bus receives no key twice iff the calls keep the discipline;
* `replay_eq` — what is replayed.
-/

namespace Tmis.RuntimePlatform

open Tmis.Lib

structure EventEnvelope (E : Type) where
  sequence : ℕ
  event : E
  eventType : String
  version : ℤ
  idempotencyKey : Option String
  recordedAt : ℚ
  archived : Bool := false

structure EventStreamingEngine (E : Type) where
  schemaVersion : ℤ := 1
  envelopes : List (EventEnvelope E) := []
  seenIdempotencyKeys : PySet String := ∅
  nextSequence : ℕ := 1

namespace EventStreamingEngine

variable {E : Type}

/-- `publish` up to the bus: a key that was seen ends the call. -/
def seen (e : EventStreamingEngine E) : Option String → Bool
  | some key => key ∈ e.seenIdempotencyKeys
  | none => false

/-- `publish` from the bus on; `typeName` is the name of an event's class. -/
def record (typeName : E → String) (e : EventStreamingEngine E) (event : E)
    (idempotencyKey : Option String) (now : ℚ) : EventEnvelope E × EventStreamingEngine E :=
  let envelope : EventEnvelope E := {
    sequence := e.nextSequence
    event
    eventType := typeName event
    version := e.schemaVersion
    idempotencyKey
    recordedAt := now }
  (envelope, { e with
    nextSequence := e.nextSequence + 1
    envelopes := e.envelopes ++ [envelope]
    seenIdempotencyKeys := match idempotencyKey with
      | some key => e.seenIdempotencyKeys.add key
      | none => e.seenIdempotencyKeys })

/-- The envelopes after a number that are not archived. -/
def replay (e : EventStreamingEngine E) (fromSequence : ℕ := 0) : List (EventEnvelope E) :=
  e.envelopes.filter fun envelope => fromSequence < envelope.sequence ∧ ¬ envelope.archived

/-- `archive`: how many envelopes were marked, and the engine. -/
def archive (e : EventStreamingEngine E) (beforeSequence : ℕ) : ℕ × EventStreamingEngine E :=
  (e.envelopes.countP fun envelope => envelope.sequence < beforeSequence ∧ ¬ envelope.archived,
    { e with envelopes := e.envelopes.map fun envelope =>
        if envelope.sequence < beforeSequence then { envelope with archived := true } else envelope })

end EventStreamingEngine

/-! ### Calls on their way -/

/-- An event that was handed to the bus and is not recorded: the call awaits the bus, or the bus raised. -/
structure Publication (E : Type) where
  event : E
  idempotencyKey : Option String
  raised : Bool := false

/-- The engine, what its bus has received with the keys it was published under, and the calls that have
handed an event to the bus and not recorded it. -/
structure Streaming (E : Type) where
  engine : EventStreamingEngine E := {}
  bus : List (E × Option String) := []
  unrecorded : Dict ℕ (Publication E) := ∅

namespace Streaming

variable {E : Type}

/-- What may happen: `r` is the call it happens to. -/
inductive Op (E : Type) where
  | publish (r : ℕ) (event : E) (idempotencyKey : Option String)
  | delivered (r : ℕ) (now : ℚ)
  | raises (r : ℕ)
  | archive (beforeSequence : ℕ)

/-- What happens next.  A call whose number is taken does nothing, and neither does one that is not at
the point where it may do it. -/
def step (typeName : E → String) (s : Streaming E) : Op E → Streaming E
  | .publish r event idempotencyKey =>
      if s.unrecorded.contains r ∨ s.engine.seen idempotencyKey then s
      else
        { s with
          bus := s.bus ++ [(event, idempotencyKey)]
          unrecorded := s.unrecorded.set r { event, idempotencyKey } }
  | .delivered r now =>
      match s.unrecorded.get r with
      | some publication =>
          if publication.raised then s
          else
            { s with
              engine := (s.engine.record typeName publication.event publication.idempotencyKey now).2
              unrecorded := s.unrecorded.pop r }
      | none => s
  | .raises r =>
      match s.unrecorded.get r with
      | some publication =>
          { s with unrecorded := s.unrecorded.set r { publication with raised := true } }
      | none => s
  | .archive beforeSequence => { s with engine := (s.engine.archive beforeSequence).2 }

/-- The keys of the events that the bus has received. -/
def received (s : Streaming E) : List String := s.bus.filterMap Prod.snd

/-- The bus received no two events under one key. -/
def AtMostOnce (s : Streaming E) : Prop := s.received.Nodup

instance (s : Streaming E) : Decidable s.AtMostOnce := by unfold AtMostOnce; infer_instance

/-- The discipline: an event with a key that was not seen is published only while no event with that key
is on its way to the bus, and after none that the bus raised on. -/
def Settled (s : Streaming E) : Op E → Prop
  | .publish r _ (some key) => ¬ s.unrecorded.contains r → ¬ s.engine.seen (some key) →
      ∀ publication ∈ s.unrecorded.values, publication.idempotencyKey ≠ some key
  | _ => True

instance (s : Streaming E) (op : Op E) : Decidable (s.Settled op) := by
  unfold Settled
  split <;> infer_instance

/-! ### The invariant -/

section Invariant

variable {typeName : E → String} {s : Streaming E}

/-- An event with the key is on its way, or the bus raised on one. -/
def Unrecorded (s : Streaming E) (key : String) : Prop :=
  ∃ r publication, s.unrecorded.get r = some publication ∧ publication.idempotencyKey = some key

lemma unrecorded_iff {key : String} : s.Unrecorded key ↔
    ∃ publication ∈ s.unrecorded.values, publication.idempotencyKey = some key := by
  constructor
  · rintro ⟨r, publication, hget, hkey⟩
    exact ⟨publication, Dict.mem_values_iff.mpr ⟨r, hget⟩, hkey⟩
  · rintro ⟨publication, hmem, hkey⟩
    obtain ⟨r, hget⟩ := Dict.mem_values_iff.mp hmem
    exact ⟨r, publication, hget, hkey⟩

/-- The bus received no key twice, and the keys it received are recorded or unrecorded. -/
structure Inv (s : Streaming E) : Prop where
  once : s.AtMostOnce
  keys : ∀ key, key ∈ s.received ↔ s.engine.seen (some key) = true ∨ s.Unrecorded key

lemma seen_some {e : EventStreamingEngine E} {key : String} :
    e.seen (some key) = true ↔ key ∈ e.seenIdempotencyKeys := decide_eq_true_iff

lemma seen_record (e : EventStreamingEngine E) (event : E) (idempotencyKey : Option String) (now : ℚ)
    (key : String) : (e.record typeName event idempotencyKey now).2.seen (some key) = true ↔
      e.seen (some key) = true ∨ idempotencyKey = some key := by
  cases idempotencyKey with
  | none => simp [EventStreamingEngine.record, seen_some]
  | some other =>
    rw [seen_some, seen_some, Option.some.injEq, eq_comm (a := other)]
    exact PySet.mem_add

/-- A call that hands an event to the bus. -/
lemma inv_publish (h : Inv s) {r : ℕ} (hr : s.unrecorded.get r = none) (event : E)
    {idempotencyKey : Option String} (hnew : ∀ key, idempotencyKey = some key → key ∉ s.received) :
    Inv { s with
      bus := s.bus ++ [(event, idempotencyKey)]
      unrecorded := s.unrecorded.set r { event, idempotencyKey } } := by
  have hkept : ∀ key, s.Unrecorded key ∨ idempotencyKey = some key ↔
      Unrecorded { s with
        bus := s.bus ++ [(event, idempotencyKey)]
        unrecorded := s.unrecorded.set r { event, idempotencyKey } } key := by
    intro key
    constructor
    · rintro (⟨r', publication, hget, hkey⟩ | hkey)
      · have hne : r' ≠ r := by
          rintro rfl
          rw [hr] at hget
          cases hget
        exact ⟨r', publication, by rwa [Dict.get_set_of_ne _ _ hne], hkey⟩
      · exact ⟨r, _, Dict.get_set_self .., hkey⟩
    · rintro ⟨r', publication, hget, hkey⟩
      rw [Dict.get_set] at hget
      split at hget
      · cases hget
        exact Or.inr hkey
      · exact Or.inl ⟨r', publication, hget, hkey⟩
  constructor
  · unfold AtMostOnce received
    rw [List.filterMap_append, List.nodup_append']
    refine ⟨h.once, ?_, ?_⟩
    · cases idempotencyKey <;> simp
    · cases idempotencyKey with
      | none => exact List.disjoint_nil_right _
      | some key => exact List.disjoint_singleton.mpr (hnew key rfl)
  · intro key
    rw [← hkept, ← or_assoc, ← h.keys]
    unfold received
    rw [List.filterMap_append, List.mem_append]
    cases idempotencyKey <;> simp [eq_comm]

/-- **The step lemma**: a disciplined step keeps the invariant. -/
theorem inv_step (h : Inv s) {op : Op E} (hop : s.Settled op) : Inv (s.step typeName op) := by
  cases op with
  | publish r event idempotencyKey =>
    unfold step
    dsimp only
    split
    · exact h
    · rename_i hnot
      rw [not_or] at hnot
      refine inv_publish h ?_ event ?_
      · simpa [Dict.contains] using hnot.1
      · rintro key rfl hmem
        rcases (h.keys key).mp hmem with hseen | hunrecorded
        · exact hnot.2 hseen
        · obtain ⟨publication, hvalue, hkey⟩ := unrecorded_iff.mp hunrecorded
          exact hop hnot.1 hnot.2 publication hvalue hkey
  | delivered r now =>
    unfold step
    dsimp only
    split
    · rename_i publication hget
      split
      · exact h
      · refine ⟨h.once, fun key => (h.keys key).trans ?_⟩
        rw [seen_record]
        constructor
        · rintro (hseen | ⟨r', publication', hget', hkey⟩)
          · exact Or.inl (Or.inl hseen)
          · by_cases hr : r' = r
            · rw [hr, hget] at hget'
              cases hget'
              exact Or.inl (Or.inr hkey)
            · exact Or.inr ⟨r', publication', by rwa [Dict.get_pop_of_ne _ hr], hkey⟩
        · rintro ((hseen | hkey) | ⟨r', publication', hget', hkey⟩)
          · exact Or.inl hseen
          · exact Or.inr ⟨r, publication, hget, hkey⟩
          · have hr : r' ≠ r := by
              rintro rfl
              rw [Dict.get_pop_self] at hget'
              cases hget'
            rw [Dict.get_pop_of_ne _ hr] at hget'
            exact Or.inr ⟨r', publication', hget', hkey⟩
    · exact h
  | raises r =>
    unfold step
    dsimp only
    split
    · rename_i publication hget
      refine ⟨h.once, fun key => (h.keys key).trans (or_congr_right ?_)⟩
      constructor
      · rintro ⟨r', publication', hget', hkey⟩
        by_cases hr : r' = r
        · rw [hr, hget] at hget'
          cases hget'
          exact ⟨r, _, Dict.get_set_self .., hkey⟩
        · exact ⟨r', publication', by rwa [Dict.get_set_of_ne _ _ hr], hkey⟩
      · rintro ⟨r', publication', hget', hkey⟩
        rw [Dict.get_set] at hget'
        split at hget'
        · cases hget'
          exact ⟨r, publication, hget, hkey⟩
        · exact ⟨r', publication', hget', hkey⟩
    · exact h
  | archive beforeSequence => exact ⟨h.once, h.keys⟩

/-- Wherever the invariant holds, the step keeps keys apart iff it is disciplined. -/
lemma atMostOnce_step_iff (h : Inv s) (op : Op E) :
    (s.step typeName op).AtMostOnce ↔ s.Settled op := by
  refine ⟨fun honce => ?_, fun hop => (inv_step h hop).once⟩
  cases op with
  | publish r event idempotencyKey =>
    cases idempotencyKey with
    | none => trivial
    | some key =>
      intro hr hseen publication hmem hkey
      have hreceived : key ∈ s.received :=
        (h.keys key).mpr (Or.inr (unrecorded_iff.mpr ⟨publication, hmem, hkey⟩))
      have hstep : s.step typeName (.publish r event (some key)) = { s with
          bus := s.bus ++ [(event, some key)]
          unrecorded := s.unrecorded.set r ⟨event, some key, false⟩ } := if_neg (not_or.mpr ⟨hr, hseen⟩)
      rw [hstep, AtMostOnce, received, List.filterMap_append, List.nodup_append'] at honce
      exact honce.2.2 hreceived (by simp)
  | delivered r now => trivial
  | raises r => trivial
  | archive beforeSequence => trivial

end Invariant

/-- **At most once**: in every run of calls from a fresh engine the bus receives no key twice iff no event
with a key is published while another one with that key is on its way, or after the bus raised on it. -/
theorem along_atMostOnce_iff (typeName : E → String) (schemaVersion : ℤ) (ops : List (Op E)) :
    Along (step typeName) (fun s op => (s.step typeName op).AtMostOnce)
        { engine := { schemaVersion } } ops ↔
      Along (step typeName) Settled { engine := { schemaVersion } } ops := by
  refine along_congr (I := Inv) ⟨List.nodup_nil, fun key => ?_⟩ (fun _ _ h hop => inv_step h hop)
    fun _ op h => atMostOnce_step_iff h op
  simp [received, EventStreamingEngine.seen, Unrecorded]

/-- Two calls with one key, the second while the first one awaits the bus. -/
theorem two_at_once : ¬ AtMostOnce (run (step fun _ => "Event") ({} : Streaming String)
    [.publish 0 "a" (some "wf-exec-42"), .publish 1 "b" (some "wf-exec-42"), .delivered 0 1,
      .delivered 1 2]) := by decide +kernel

/-! ### What is replayed -/

section Replay

variable {typeName : E → String} {s : Streaming E}

/-- The envelopes are numbered, and the next number is free. -/
def Ordered (s : Streaming E) : Prop :=
  Numbered EventEnvelope.sequence s.engine.envelopes ∧
    s.engine.nextSequence = s.engine.envelopes.length + 1

lemma ordered_step (h : s.Ordered) (op : Op E) : (s.step typeName op).Ordered := by
  cases op with
  | publish r event idempotencyKey =>
    unfold step
    dsimp only
    split <;> exact h
  | delivered r now =>
    unfold step
    dsimp only
    split
    · split
      · exact h
      · exact ⟨h.1.snoc h.2, by simp [EventStreamingEngine.record, h.2]⟩
    · exact h
  | raises r =>
    unfold step
    dsimp only
    split <;> exact h
  | archive beforeSequence =>
    refine ⟨?_, ?_⟩
    · have hsame : (s.engine.archive beforeSequence).2.envelopes.map EventEnvelope.sequence =
          s.engine.envelopes.map EventEnvelope.sequence := by
        rw [EventStreamingEngine.archive, List.map_map]
        refine List.map_congr_left fun envelope _ => ?_
        rw [Function.comp]
        split <;> rfl
      have hlength : (s.engine.archive beforeSequence).2.envelopes.length =
          s.engine.envelopes.length := by simp [EventStreamingEngine.archive]
      exact hsame.trans (h.1.trans (by rw [← hlength]; rfl))
    · exact h.2.trans (by simp [step, EventStreamingEngine.archive])

/-- **What is replayed**: in every run, the envelopes after that many, in the order in which they were
recorded, those apart that are archived. -/
theorem replay_eq (typeName : E → String) (ops : List (Op E)) (n : ℕ) :
    (run (step typeName) {} ops).engine.replay n =
      ((run (step typeName) {} ops).engine.envelopes.drop n).filter fun envelope =>
        ¬ envelope.archived := by
  have hordered : (run (step typeName) ({} : Streaming E) ops).Ordered :=
    run_inv ops ⟨numbered_nil _, rfl⟩ fun _ op h => ordered_step h op
  rw [← hordered.1.since, List.filter_filter]
  refine List.filter_congr fun envelope _ => ?_
  simp [and_comm]

end Replay

end Streaming

end Tmis.RuntimePlatform
