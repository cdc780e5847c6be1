import Mathlib.Data.List.MinMax
import Tmis.Lib.Calls
import Tmis.Lib.Dict
import Tmis.Lib.Journal
import Tmis.Lib.PySet
import Tmis.Lib.Run

/-!
# The event store

`runtime_platform.event_store`: streams of events, one for each identity, with snapshots of what their
readers made of them.

* `EventStoreEngine`, `append`, `readStream`, `snapshot`, `latestSnapshot`, `replay`, `archive`,
  `restore` — the engine over its in-memory stores;
* `Stream`, `stored` — what a stream is for: the accepted appends, in order; and how they are stored;
* `holds_step`, `replays_step` — what a call keeps;
* `streams_and_snapshots` — the streams, and what a replay from the latest snapshot comes to.
-/

namespace Tmis.RuntimePlatform

open Tmis.Lib

/-! ### Events and snapshots -/

structure StoredEvent (P : Type) where
  streamId : String
  sequence : ℕ
  eventType : String
  payload : P
  recordedAt : ℚ
  deriving DecidableEq

structure StreamSnapshot (S : Type) where
  streamId : String
  version : ℕ
  state : S
  recordedAt : ℚ
  deriving DecidableEq

structure InMemoryEventStreamStore (P : Type) where
  streams : Dict String (List (StoredEvent P)) := ∅
  deriving DecidableEq

structure InMemorySnapshotStore (S : Type) where
  snapshots : Dict String (List (StreamSnapshot S)) := ∅
  deriving DecidableEq

section Stores

variable {P S : Type}

namespace InMemoryEventStreamStore

def append (store : InMemoryEventStreamStore P) (event : StoredEvent P) : InMemoryEventStreamStore P :=
  ⟨store.streams.set event.streamId ((store.streams.get event.streamId).getD [] ++ [event])⟩

def readStream (store : InMemoryEventStreamStore P) (streamId : String) (fromSequence : ℕ := 0) :
    List (StoredEvent P) :=
  ((store.streams.get streamId).getD []).filter (fromSequence < ·.sequence)

end InMemoryEventStreamStore

namespace InMemorySnapshotStore

def save (store : InMemorySnapshotStore S) (snapshot : StreamSnapshot S) : InMemorySnapshotStore S :=
  ⟨store.snapshots.set snapshot.streamId
    ((store.snapshots.get snapshot.streamId).getD [] ++ [snapshot])⟩

/-- The snapshot of the highest version, the first of these. -/
def latest (store : InMemorySnapshotStore S) (streamId : String) : Option (StreamSnapshot S) :=
  ((store.snapshots.get streamId).getD []).argmax StreamSnapshot.version

end InMemorySnapshotStore

end Stores

/-! ### The engine -/

structure EventStoreEngine (P S : Type) where
  events : InMemoryEventStreamStore P := {}
  snapshots : InMemorySnapshotStore S := {}
  archivedStreams : PySet String := ∅
  sequenceCounters : Dict String ℕ := ∅
  deriving DecidableEq

/-- `ArchivedStreamError`. -/
def archivedStreamError (streamId : String) : PyException :=
  ⟨"ArchivedStreamError", "stream " ++ streamId ++ " is archived; restore() first"⟩

namespace EventStoreEngine

variable {P S : Type}

/-- The number of the last event of a stream. -/
def counter (e : EventStoreEngine P S) (streamId : String) : ℕ := (e.sequenceCounters.get streamId).getD 0

def append (e : EventStoreEngine P S) (streamId eventType : String) (payload : P) (now : ℚ) :
    Except PyException (StoredEvent P × EventStoreEngine P S) :=
  if streamId ∈ e.archivedStreams then .error (archivedStreamError streamId)
  else
    let sequence := e.counter streamId + 1
    let event : StoredEvent P := { streamId, sequence, eventType, payload, recordedAt := now }
    .ok (event, { e with
      sequenceCounters := e.sequenceCounters.set streamId sequence
      events := e.events.append event })

def readStream (e : EventStoreEngine P S) (streamId : String) (fromSequence : ℕ := 0) :
    List (StoredEvent P) :=
  e.events.readStream streamId fromSequence

def snapshot (e : EventStoreEngine P S) (streamId : String) (state : S) (now : ℚ) :
    StreamSnapshot S × EventStoreEngine P S :=
  let snap : StreamSnapshot S := { streamId, version := e.counter streamId, state, recordedAt := now }
  (snap, { e with snapshots := e.snapshots.save snap })

def latestSnapshot (e : EventStoreEngine P S) (streamId : String) : Option (StreamSnapshot S) :=
  e.snapshots.latest streamId

/-- The events since the latest snapshot, or the whole stream if there is none. -/
def replay (e : EventStoreEngine P S) (streamId : String) : List (StoredEvent P) :=
  match e.snapshots.latest streamId with
  | some snapshot => e.readStream streamId snapshot.version
  | none => e.readStream streamId 0

def archive (e : EventStoreEngine P S) (streamId : String) : EventStoreEngine P S :=
  { e with archivedStreams := e.archivedStreams.add streamId }

def restore (e : EventStoreEngine P S) (streamId : String) : EventStoreEngine P S :=
  { e with archivedStreams := e.archivedStreams.discard streamId }

def isArchived (e : EventStoreEngine P S) (streamId : String) : Bool := streamId ∈ e.archivedStreams

/-- The calls that change the engine. -/
inductive Op (P S : Type) where
  | append (streamId eventType : String) (payload : P) (now : ℚ)
  | archive (streamId : String)
  | restore (streamId : String)
  | snapshot (streamId : String) (state : S) (now : ℚ)

/-- The stream a call is about. -/
def Op.streamId : Op P S → String
  | .append streamId .. | .archive streamId | .restore streamId | .snapshot streamId .. => streamId

def step (e : EventStoreEngine P S) : Op P S → EventStoreEngine P S
  | .append streamId eventType payload now =>
      afterCall e ((e.append streamId eventType payload now).map Prod.snd)
  | .archive streamId => e.archive streamId
  | .restore streamId => e.restore streamId
  | .snapshot streamId state now => (e.snapshot streamId state now).2

end EventStoreEngine

/-! ### What a stream is for -/

/-- An append that was accepted. -/
structure Entry (P : Type) where
  eventType : String
  payload : P
  recordedAt : ℚ

/-- A stream: what was appended to it while it was open, in order. -/
structure Stream (P : Type) where
  entries : List (Entry P) := []
  archived : Bool := false

section Stream

variable {P S : Type}

/-- What a call does to the stream `id`. -/
def Stream.step (id : String) (s : Stream P) : EventStoreEngine.Op P S → Stream P
  | .append streamId eventType payload now =>
      if streamId = id ∧ ¬ s.archived then
        { s with entries := s.entries ++ [⟨eventType, payload, now⟩] }
      else s
  | .archive streamId => if streamId = id then { s with archived := true } else s
  | .restore streamId => if streamId = id then { s with archived := false } else s
  | .snapshot .. => s

/-- The entries of the stream `id` as they are stored, numbered from 1. -/
def stored (id : String) (entries : List (Entry P)) : List (StoredEvent P) :=
  (entries.zipIdx 1).map fun entry =>
    ⟨id, entry.2, entry.1.eventType, entry.1.payload, entry.1.recordedAt⟩

lemma stored_snoc (id : String) (entries : List (Entry P)) (entry : Entry P) :
    stored id (entries ++ [entry]) = stored id entries ++
      [⟨id, entries.length + 1, entry.eventType, entry.payload, entry.recordedAt⟩] := by
  simp [stored, List.zipIdx_append, Nat.add_comm]

@[simp] lemma length_stored (id : String) (entries : List (Entry P)) :
    (stored id entries).length = entries.length := by simp [stored]

lemma numbered_stored (id : String) (entries : List (Entry P)) :
    Numbered StoredEvent.sequence (stored id entries) := by
  induction entries using List.reverseRecOn with
  | nil => exact numbered_nil _
  | append_singleton entries entry ih =>
    rw [stored_snoc]
    exact ih.snoc (by simp)

end Stream

/-! ### What a call keeps -/

namespace EventStoreEngine

variable {P S : Type} {e : EventStoreEngine P S}

/-- The list that the store holds of a stream. -/
def log (e : EventStoreEngine P S) (id : String) : List (StoredEvent P) := (e.events.streams.get id).getD []

/-- The snapshots that the store holds of a stream. -/
def taken (e : EventStoreEngine P S) (id : String) : List (StreamSnapshot S) :=
  (e.snapshots.snapshots.get id).getD []

lemma readStream_eq (e : EventStoreEngine P S) (id : String) (n : ℕ) :
    e.readStream id n = (e.log id).filter (n < ·.sequence) := rfl

lemma latestSnapshot_eq (e : EventStoreEngine P S) (id : String) :
    e.latestSnapshot id = (e.taken id).argmax StreamSnapshot.version := rfl

/-- The engine holds the stream `id` as it is. -/
structure Holds (e : EventStoreEngine P S) (id : String) (s : Stream P) : Prop where
  log : e.log id = stored id s.entries
  counter : e.counter id = s.entries.length
  archived : id ∈ e.archivedStreams ↔ s.archived = true

/-- An append to an archived stream raises. -/
lemma append_archived {id : String} (h : id ∈ e.archivedStreams) (eventType : String) (payload : P)
    (now : ℚ) : e.append id eventType payload now = .error (archivedStreamError id) := if_pos h

lemma step_append_archived {id : String} (h : id ∈ e.archivedStreams) (eventType : String) (payload : P)
    (now : ℚ) : e.step (.append id eventType payload now) = e := by
  simp only [step, append_archived h, Except.map, afterCall_error]

/-- An append to an open stream adds the next event. -/
lemma step_append_open {id : String} (h : id ∉ e.archivedStreams) (eventType : String) (payload : P)
    (now : ℚ) : e.step (.append id eventType payload now) = { e with
      sequenceCounters := e.sequenceCounters.set id (e.counter id + 1)
      events := e.events.append ⟨id, e.counter id + 1, eventType, payload, now⟩ } := by
  simp only [step, append, if_neg h, Except.map, afterCall_ok]

/-- **A call does to each stream what it is for.** -/
theorem holds_step (op : Op P S) {id : String} {s : Stream P} (h : Holds e id s) :
    Holds (e.step op) id (s.step id op) := by
  obtain ⟨hlog, hcounter, harchived⟩ := h
  cases op with
  | append streamId eventType payload now =>
    by_cases hmem : streamId ∈ e.archivedStreams
    · have hsame : s.step id (.append (S := S) streamId eventType payload now) = s := by
        refine if_neg ?_
        rintro ⟨rfl, hopen⟩
        exact hopen (harchived.mp hmem)
      rw [step_append_archived hmem, hsame]
      exact ⟨hlog, hcounter, harchived⟩
    · rw [step_append_open hmem]
      by_cases hid : streamId = id
      · subst hid
        have hnew : s.step streamId (.append (S := S) streamId eventType payload now) =
            { s with entries := s.entries ++ [⟨eventType, payload, now⟩] } :=
          if_pos ⟨rfl, fun hclosed => hmem (harchived.mpr hclosed)⟩
        rw [hnew]
        refine ⟨?_, ?_, harchived⟩
        · rw [stored_snoc, ← hlog, ← hcounter]
          simp [log, InMemoryEventStreamStore.append]
        · simp [counter, ← hcounter]
      · have hsame : s.step id (.append (S := S) streamId eventType payload now) = s :=
          if_neg fun h => hid h.1
        rw [hsame]
        refine ⟨?_, ?_, harchived⟩
        · rw [← hlog]
          simp [log, InMemoryEventStreamStore.append, Dict.get_set_of_ne _ _ (Ne.symm hid)]
        · rw [← hcounter]
          simp [counter, Dict.get_set_of_ne _ _ (Ne.symm hid)]
  | archive streamId =>
    by_cases hid : streamId = id
    · have hclosed : s.step id (.archive (P := P) (S := S) streamId) = { s with archived := true } :=
        if_pos hid
      rw [hclosed]
      exact ⟨hlog, hcounter, by simp [step, archive, hid]⟩
    · have hsame : s.step id (.archive (P := P) (S := S) streamId) = s := if_neg hid
      rw [hsame]
      exact ⟨hlog, hcounter, by simp [step, archive, Ne.symm hid, harchived]⟩
  | restore streamId =>
    by_cases hid : streamId = id
    · have hopened : s.step id (.restore (P := P) (S := S) streamId) = { s with archived := false } :=
        if_pos hid
      rw [hopened]
      exact ⟨hlog, hcounter, by simp [step, restore, hid]⟩
    · have hsame : s.step id (.restore (P := P) (S := S) streamId) = s := if_neg hid
      rw [hsame]
      exact ⟨hlog, hcounter, by simp [step, restore, Ne.symm hid, harchived]⟩
  | snapshot streamId state now => exact ⟨hlog, hcounter, harchived⟩

/-- After every run the engine holds the streams as they are. -/
theorem holds_run (ops : List (Op P S)) (id : String) :
    Holds (run step ({} : EventStoreEngine P S) ops) id (run (Stream.step id) {} ops) := by
  have hrun : ∀ (ops : List (Op P S)) (e : EventStoreEngine P S) (s : Stream P), Holds e id s →
      Holds (run step e ops) id (run (Stream.step id) s ops) := by
    intro ops
    induction ops with
    | nil => exact fun _ _ h => h
    | cons op ops ih => exact fun e s h => ih _ _ (holds_step op h)
  exact hrun ops {} {} ⟨rfl, rfl, by simp⟩

/-! ### Snapshots -/

lemma log_step (e : EventStoreEngine P S) (op : Op P S) (id : String) :
    ∃ new, (e.step op).log id = e.log id ++ new := by
  cases op with
  | append streamId eventType payload now =>
    by_cases hmem : streamId ∈ e.archivedStreams
    · exact ⟨[], by simp [step_append_archived hmem]⟩
    · rw [step_append_open hmem]
      by_cases hid : id = streamId
      · subst hid
        exact ⟨_, by simp [log, InMemoryEventStreamStore.append]; rfl⟩
      · exact ⟨[], by simp [log, InMemoryEventStreamStore.append, Dict.get_set_of_ne _ _ hid]⟩
  | archive streamId => exact ⟨[], (List.append_nil _).symm⟩
  | restore streamId => exact ⟨[], (List.append_nil _).symm⟩
  | snapshot streamId state now => exact ⟨[], (List.append_nil _).symm⟩

/-- A snapshot that is held was held before, or is the one that the call takes. -/
lemma mem_taken_step {op : Op P S} {id : String} {snap : StreamSnapshot S}
    (h : snap ∈ (e.step op).taken id) : snap ∈ e.taken id ∨
      ∃ state now, op = .snapshot id state now ∧ snap = ⟨id, e.counter id, state, now⟩ := by
  cases op with
  | append streamId eventType payload now =>
    by_cases hmem : streamId ∈ e.archivedStreams
    · rw [step_append_archived hmem] at h
      exact Or.inl h
    · rw [step_append_open hmem] at h
      exact Or.inl h
  | archive streamId => exact Or.inl h
  | restore streamId => exact Or.inl h
  | snapshot streamId state now =>
    by_cases hid : id = streamId
    · subst hid
      rw [taken, step, snapshot, InMemorySnapshotStore.save, Dict.get_set_self, Option.getD_some,
        List.mem_append, List.mem_singleton] at h
      exact h.imp_right fun hsnap => ⟨state, now, rfl, hsnap⟩
    · rw [taken, step, snapshot, InMemorySnapshotStore.save, Dict.get_set_of_ne _ _ hid] at h
      exact Or.inl h

/-- A snapshot is taken of what its stream folds to. -/
def TakesFold (f : S → StoredEvent P → S) (s₀ : S) (e : EventStoreEngine P S) : Op P S → Prop
  | .snapshot streamId state _ => state = (e.readStream streamId).foldl f s₀
  | _ => True

instance [DecidableEq S] (f : S → StoredEvent P → S) (s₀ : S) (e : EventStoreEngine P S) (op : Op P S) :
    Decidable (TakesFold f s₀ e op) := by
  cases op <;> unfold TakesFold <;> infer_instance

/-- The events are numbered, and each snapshot holds what the events up to its version fold to. -/
structure Replays (f : S → StoredEvent P → S) (s₀ : S) (e : EventStoreEngine P S) : Prop where
  holds : ∀ id, ∃ s, Holds e id s
  taken : ∀ id, ∀ snap ∈ e.taken id, snap.version ≤ (e.log id).length ∧
    snap.state = ((e.log id).take snap.version).foldl f s₀

section Replays

variable {f : S → StoredEvent P → S} {s₀ : S}

lemma Holds.numbered {id : String} {s : Stream P} (h : Holds e id s) :
    Numbered StoredEvent.sequence (e.log id) := h.log ▸ numbered_stored id s.entries

lemma Holds.readStream {id : String} {s : Stream P} (h : Holds e id s) : e.readStream id = e.log id := by
  rw [readStream_eq, h.numbered.since, List.drop_zero]

lemma replays_step {op : Op P S} (h : Replays f s₀ e) (hop : TakesFold f s₀ e op) :
    Replays f s₀ (e.step op) where
  holds id := by
    obtain ⟨s, hs⟩ := h.holds id
    exact ⟨_, holds_step op hs⟩
  taken id snap hsnap := by
    obtain ⟨new, hnew⟩ := log_step e op id
    rw [hnew, List.length_append]
    rcases mem_taken_step hsnap with hold | ⟨state, now, rfl, rfl⟩
    · obtain ⟨hle, hstate⟩ := h.taken id snap hold
      exact ⟨hle.trans (Nat.le_add_right _ _), by rw [List.take_append_of_le_length hle, hstate]⟩
    · -- the stream as it was when the snapshot was taken is the whole stream
      obtain ⟨s, hs⟩ := h.holds id
      have hlength : e.counter id = (e.log id).length := by rw [hs.counter, hs.log, length_stored]
      refine ⟨hlength ▸ Nat.le_add_right _ _, ?_⟩
      dsimp only
      rw [hlength, List.take_left, ← hs.readStream]
      exact hop

/-- The state a reader starts from: that of the latest snapshot, if there is one. -/
def latestState (s₀ : S) (e : EventStoreEngine P S) (id : String) : S :=
  ((e.latestSnapshot id).map (·.state)).getD s₀

/-- **A replay from the latest snapshot** comes to what the whole stream does. -/
theorem Replays.replay (h : Replays f s₀ e) (id : String) :
    (e.replay id).foldl f (e.latestState s₀ id) = (e.readStream id).foldl f s₀ := by
  obtain ⟨s, hs⟩ := h.holds id
  unfold EventStoreEngine.replay latestState
  rw [latestSnapshot]
  cases hlatest : e.snapshots.latest id with
  | none => rfl
  | some snap =>
    have hmem : snap ∈ e.taken id := List.argmax_mem hlatest
    dsimp only [Option.map_some, Option.getD_some]
    rw [(h.taken id snap hmem).2, readStream_eq, hs.numbered.foldl_since, hs.readStream]

end Replays

/-! ### Runs -/

/-- Nothing of the stream `id` changed: its events, the number of the next one, its latest snapshot, and
whether it is archived. -/
structure Untouched (id : String) (e e' : EventStoreEngine P S) : Prop where
  events : ∀ n, e'.readStream id n = e.readStream id n
  counter : e'.counter id = e.counter id
  latest : e'.latestSnapshot id = e.latestSnapshot id
  archived : e'.isArchived id = e.isArchived id

lemma untouched_step (e : EventStoreEngine P S) (op : Op P S) {id : String} (h : id ≠ op.streamId) :
    Untouched id e (e.step op) := by
  cases op with
  | append streamId eventType payload now =>
    have hne : id ≠ streamId := h
    by_cases hmem : streamId ∈ e.archivedStreams
    · rw [step_append_archived hmem]
      exact ⟨fun _ => rfl, rfl, rfl, rfl⟩
    · rw [step_append_open hmem]
      refine ⟨fun n => ?_, ?_, rfl, rfl⟩
      · simp [readStream_eq, log, InMemoryEventStreamStore.append, Dict.get_set_of_ne _ _ hne]
      · simp [counter, Dict.get_set_of_ne _ _ hne]
  | archive streamId =>
    have hne : id ≠ streamId := h
    exact ⟨fun _ => rfl, rfl, rfl, by simp [isArchived, step, archive, hne]⟩
  | restore streamId =>
    have hne : id ≠ streamId := h
    exact ⟨fun _ => rfl, rfl, rfl, by simp [isArchived, step, restore, hne]⟩
  | snapshot streamId state now =>
    have hne : id ≠ streamId := h
    refine ⟨fun _ => rfl, rfl, ?_, rfl⟩
    simp [latestSnapshot_eq, taken, step, snapshot, InMemorySnapshotStore.save,
      Dict.get_set_of_ne _ _ hne]

/-- **Streams and snapshots** after any calls: each stream holds its accepted appends, numbered 1, 2, 3,
...; a call changes no stream but its own; an append to an archived stream raises and changes nothing;
and where snapshots are taken of what their streams fold to, a replay from the latest one comes to what
the whole stream does. -/
theorem streams_and_snapshots (ops : List (Op P S)) :
    let e := run step ({} : EventStoreEngine P S) ops
    (∀ id, e.readStream id = stored id (run (Stream.step id) {} ops).entries ∧
      (e.readStream id).map StoredEvent.sequence = List.range' 1 (e.readStream id).length ∧
      e.isArchived id = (run (Stream.step id) {} ops).archived) ∧
    (∀ op id, id ≠ op.streamId → Untouched id e (e.step op)) ∧
    (∀ id eventType payload now, e.isArchived id →
      e.append id eventType payload now = .error (archivedStreamError id) ∧
        e.step (.append id eventType payload now) = e) ∧
    ∀ (f : S → StoredEvent P → S) (s₀ : S), Along step (TakesFold f s₀) {} ops →
      ∀ id, (e.replay id).foldl f (e.latestState s₀ id) = (e.readStream id).foldl f s₀ := by
  intro e
  refine ⟨fun id => ?_, fun op id => untouched_step e op, fun id eventType payload now harchived => ?_,
    fun f s₀ htakes id => ?_⟩
  · have hholds := holds_run ops id
    refine ⟨hholds.readStream.trans hholds.log, ?_, ?_⟩
    · rw [hholds.readStream]
      exact hholds.numbered
    · rw [isArchived, Bool.eq_iff_iff, decide_eq_true_eq]
      exact hholds.archived
  · have hmem : id ∈ e.archivedStreams := of_decide_eq_true harchived
    exact ⟨append_archived hmem .., step_append_archived hmem ..⟩
  · have hreplays : Replays f s₀ e :=
      htakes.inv ⟨fun id => ⟨{}, rfl, rfl, by simp⟩, fun id snap hsnap => absurd hsnap List.not_mem_nil⟩
        fun _ _ => replays_step
    exact hreplays.replay id

/-- A subscription: it is activated, a snapshot is taken, the plan changes, and the stream is archived. -/
def subscriptionOps : List (Op String (List String)) :=
  [.append "firm-42" "SubscriptionActivated" "professional" 1, .snapshot "firm-42" ["professional"] 2,
    .append "firm-42" "PlanChanged" "enterprise" 3, .append "firm-7" "Created" "" 4, .archive "firm-42"]

/-- The plans that a stream names. -/
def plans (names : List String) (event : StoredEvent String) : List String := names ++ [event.payload]

theorem streams_and_snapshots_subscription :
    let e := run step ({} : EventStoreEngine String (List String)) subscriptionOps
    Untouched "firm-7" e (e.step (.restore "firm-42")) ∧
      e.append "firm-42" "PlanChanged" "" 5 = .error (archivedStreamError "firm-42") ∧
      (e.replay "firm-42").foldl plans (e.latestState [] "firm-42") = ["professional", "enterprise"] := by
  intro e
  obtain ⟨-, huntouched, harchived, hreplay⟩ := streams_and_snapshots subscriptionOps
  refine ⟨huntouched (.restore "firm-42") "firm-7" (by decide),
    (harchived "firm-42" "PlanChanged" "" 5 (by decide)).1, ?_⟩
  rw [hreplay plans [] (by decide +kernel) "firm-42"]
  decide +kernel

end EventStoreEngine

end Tmis.RuntimePlatform
