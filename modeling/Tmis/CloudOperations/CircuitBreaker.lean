import Mathlib.Tactic.Linarith
import Tmis.Lib.Calls
import Tmis.Lib.PySet
import Tmis.Lib.Run
import Tmis.Lib.Store

/-!
# Circuit breakers

`cloud_operations.resilience`: one circuit for each named dependency.  A call is cut where it awaits its
operation; other calls go on meanwhile, and the clock does.

* `CircuitBreaker`, `allowRequest`, `forceOpen`, `recordSuccess`, `recordFailure` — the circuits;
* `Calls`, `Op`, `step` — the circuits with the calls on their way, and what was started and opened;
* `Cooldown` — no operation is started within the recovery timeout of an opening;
* `Cooled`, `along_cooldown_iff` — the discipline that it takes;
* `SucceedsInTime`, `along_cooled` — what breaks it: a call that succeeds while its circuit cools down;
* `agree_run` — circuits of different names.
-/

namespace Tmis.CloudOperations

open Tmis.Lib

inductive CircuitState where
  | closed | open | halfOpen
  deriving DecidableEq

structure CircuitBreakerConfig where
  failureThreshold : ℤ := 5
  recoveryTimeoutSeconds : ℚ := 30
  deriving DecidableEq

structure CircuitBreakerState where
  name : String
  state : CircuitState := .closed
  failureCount : ℤ := 0
  openedAt : Option ℚ := none
  deriving DecidableEq

structure CircuitBreaker where
  config : CircuitBreakerConfig := {}
  circuits : Store String CircuitBreakerState CircuitBreakerState.name := ∅

namespace CircuitBreaker

/-- The circuit of a name; one that was never asked for is closed. -/
def circuit (b : CircuitBreaker) (name : String) : CircuitBreakerState :=
  (b.circuits.get name).getD { name }

def save (b : CircuitBreaker) (circuit : CircuitBreakerState) : CircuitBreaker :=
  { b with circuits := b.circuits.save circuit }

/-- `_state_for`, which keeps the circuit it finds or makes. -/
def stateFor (b : CircuitBreaker) (name : String) : CircuitBreakerState × CircuitBreaker :=
  (b.circuit name, b.save (b.circuit name))

def allowRequest (b : CircuitBreaker) (name : String) (now : ℚ) :
    Except PyException (Bool × CircuitBreaker) :=
  let (circuit, b) := b.stateFor name
  if circuit.state = .open then
    match circuit.openedAt with
    | none => .error assertionError
    | some openedAt =>
        if b.config.recoveryTimeoutSeconds ≤ now - openedAt then
          .ok (true, b.save { circuit with state := .halfOpen })
        else .ok (false, b)
  else .ok (true, b)

def forceOpen (b : CircuitBreaker) (name : String) (now : ℚ) : CircuitBreaker :=
  let (circuit, b) := b.stateFor name
  b.save { circuit with
    state := .open, failureCount := b.config.failureThreshold, openedAt := some now }

def recordSuccess (b : CircuitBreaker) (name : String) : CircuitBreaker :=
  let (circuit, b) := b.stateFor name
  b.save { circuit with state := .closed, failureCount := 0, openedAt := none }

/-- `should_open`: what one failure more does to a circuit. -/
def shouldOpen (config : CircuitBreakerConfig) (circuit : CircuitBreakerState) : Bool :=
  circuit.state = .halfOpen ∨ config.failureThreshold ≤ circuit.failureCount + 1

def recordFailure (b : CircuitBreaker) (name : String) (now : ℚ) : CircuitBreaker :=
  let (circuit, b) := b.stateFor name
  if shouldOpen b.config circuit then
    b.save { circuit with
      failureCount := circuit.failureCount + 1, state := .open, openedAt := some now }
  else b.save { circuit with failureCount := circuit.failureCount + 1 }

end CircuitBreaker

/-! ### Calls on their way -/

/-- What happened to a circuit, and when. -/
inductive Event where
  | opened (name : String) (at_ : ℚ)
  | started (name : String) (at_ : ℚ)
  deriving DecidableEq

def Event.name : Event → String
  | opened name _ | started name _ => name

def Event.time : Event → ℚ
  | opened _ at_ | started _ at_ => at_

/-- The circuits, the time, the calls that await their operations, each numbered among those of its
circuit, and what happened so far. -/
structure Calls where
  breaker : CircuitBreaker := {}
  now : ℚ := 0
  pending : PySet (String × ℕ) := ∅
  history : List Event := []

namespace Calls

/-- What may happen: `name` is the circuit and `r` the call it happens to.  An interrupt is neither a
success nor a failure. -/
inductive Op where
  | clock (time : ℚ)
  | call (name : String) (r : ℕ)
  | returns (name : String) (r : ℕ)
  | raises (name : String) (r : ℕ)
  | interrupt (name : String) (r : ℕ)
  | forceOpen (name : String)

/-- What happens next; the clock does not go back.  A call whose number is taken does nothing, and
neither does one that is not on its way. -/
def step (s : Calls) : Op → Calls
  | .clock time => { s with now := max s.now time }
  | .call name r =>
      if (name, r) ∈ s.pending then s
      else
        match s.breaker.allowRequest name s.now with
        | .ok (true, breaker) =>
            { s with
              breaker
              pending := s.pending.add (name, r)
              history := s.history ++ [.started name s.now] }
        | .ok (false, breaker) => { s with breaker }
        | .error _ => s
  | .returns name r =>
      if (name, r) ∈ s.pending then
        { s with breaker := s.breaker.recordSuccess name, pending := s.pending.discard (name, r) }
      else s
  | .raises name r =>
      if (name, r) ∈ s.pending then
        { s with
          breaker := s.breaker.recordFailure name s.now
          pending := s.pending.discard (name, r)
          history := s.history ++
            if CircuitBreaker.shouldOpen s.breaker.config (s.breaker.circuit name) then
              [.opened name s.now]
            else [] }
      else s
  | .interrupt name r => { s with pending := s.pending.discard (name, r) }
  | .forceOpen name =>
      { s with
        breaker := s.breaker.forceOpen name s.now
        history := s.history ++ [.opened name s.now] }

/-- The second event is not an operation started within the timeout of the first one, an opening. -/
def Apart (timeout : ℚ) : Event → Event → Prop
  | .opened name openedAt, .started name' startedAt => name' = name → openedAt + timeout ≤ startedAt
  | _, _ => True

instance (timeout : ℚ) : DecidableRel (Apart timeout) := by
  intro a b
  unfold Apart
  split <;> infer_instance

/-- After an opening of a circuit no operation is started through it before the recovery timeout. -/
def Cooldown (s : Calls) : Prop :=
  s.history.Pairwise (Apart s.breaker.config.recoveryTimeoutSeconds)

instance (s : Calls) : Decidable s.Cooldown := by unfold Cooldown; infer_instance

/-- The last opening of the circuit, and with it all others, was the recovery timeout ago. -/
def Recovered (s : Calls) (name : String) : Prop :=
  ∀ event ∈ s.history, Apart s.breaker.config.recoveryTimeoutSeconds event (.started name s.now)

instance (s : Calls) (name : String) : Decidable (s.Recovered name) := by
  unfold Recovered; infer_instance

/-- The discipline: no call is made on a circuit that is closed again within the recovery timeout of an
opening. -/
def Cooled (s : Calls) : Op → Prop
  | .call name r => (name, r) ∉ s.pending → (s.breaker.circuit name).state = .closed → s.Recovered name
  | _ => True

instance (s : Calls) (op : Op) : Decidable (s.Cooled op) := by
  unfold Cooled
  split <;> infer_instance

end Calls

/-! ### The circuits after a call -/

namespace CircuitBreaker

variable {b b' : CircuitBreaker} {name other : String} {now : ℚ}

@[simp] lemma circuit_name (b : CircuitBreaker) (name : String) : (b.circuit name).name = name := by
  unfold circuit
  cases hget : b.circuits.get name with
  | none => rfl
  | some circuit => exact Store.key_of_get hget

lemma circuit_save (b : CircuitBreaker) (circuit : CircuitBreakerState) (name : String) :
    (b.save circuit).circuit name = if name = circuit.name then circuit else b.circuit name := by
  simp only [CircuitBreaker.circuit, save, Store.get_save]
  split <;> rfl

lemma circuit_stateFor (b : CircuitBreaker) (name other : String) :
    (b.stateFor name).2.circuit other = b.circuit other := by
  rw [stateFor, circuit_save, circuit_name]
  split
  · rename_i h
    rw [h]
  · rfl

/-- A circuit that was found and is written back, changed. -/
lemma circuit_change (b : CircuitBreaker) (circuit : CircuitBreakerState) (name other : String) :
    ((b.stateFor name).2.save circuit).circuit other =
      if other = circuit.name then circuit else b.circuit other := by
  rw [circuit_save, circuit_stateFor]

/-- What a request may find: an open circuit that cools down, one that has cooled down, or one that is not
open. -/
inductive Answer (b : CircuitBreaker) (name : String) (now : ℚ) :
    Except PyException (Bool × CircuitBreaker) → Prop
  | broken (e : PyException) (hopen : (b.circuit name).state = .open)
      (hat : (b.circuit name).openedAt = none) : Answer b name now (.error e)
  | refused (b' : CircuitBreaker) (hopen : (b.circuit name).state = .open) (hconfig : b'.config = b.config)
      (hcircuit : ∀ other, b'.circuit other = b.circuit other) : Answer b name now (.ok (false, b'))
  | recovered (b' : CircuitBreaker) (openedAt : ℚ) (hopen : (b.circuit name).state = .open)
      (hat : (b.circuit name).openedAt = some openedAt)
      (htime : openedAt + b.config.recoveryTimeoutSeconds ≤ now) (hconfig : b'.config = b.config)
      (hcircuit : ∀ other, b'.circuit other =
        if other = name then { b.circuit name with state := .halfOpen } else b.circuit other) :
      Answer b name now (.ok (true, b'))
  | admitted (b' : CircuitBreaker) (hopen : (b.circuit name).state ≠ .open)
      (hconfig : b'.config = b.config) (hcircuit : ∀ other, b'.circuit other = b.circuit other) :
      Answer b name now (.ok (true, b'))

lemma answer_allowRequest (b : CircuitBreaker) (name : String) (now : ℚ) :
    Answer b name now (b.allowRequest name now) := by
  unfold allowRequest
  rw [stateFor]
  dsimp only
  split
  · rename_i hopen
    split
    · rename_i hat
      exact .broken _ hopen hat
    · rename_i openedAt hat
      split
      · rename_i htime
        refine .recovered _ openedAt hopen hat (le_sub_iff_add_le'.mp htime) rfl fun other => ?_
        exact (circuit_change b _ name other).trans (by simp)
      · exact .refused _ hopen rfl (circuit_stateFor b name)
  · rename_i hopen
    exact .admitted _ hopen rfl (circuit_stateFor b name)

/-- The answer to a request depends on its own circuit only. -/
lemma allowRequest_congr (hconfig : b'.config = b.config) (hcircuit : b'.circuit name = b.circuit name)
    (now : ℚ) :
    (∃ e, b.allowRequest name now = .error e ∧ b'.allowRequest name now = .error e) ∨
      ∃ answer c c', b.allowRequest name now = .ok (answer, c) ∧
        b'.allowRequest name now = .ok (answer, c') ∧ c.config = b.config ∧ c'.config = b.config ∧
        c'.circuit name = c.circuit name := by
  have hsave : ∀ (b : CircuitBreaker) (circuit : CircuitBreakerState),
      (b.save circuit).config = b.config := fun _ _ => rfl
  unfold allowRequest
  rw [stateFor, stateFor, hcircuit]
  dsimp only
  rw [hsave, hsave, hconfig]
  split
  · split
    · exact Or.inl ⟨_, rfl, rfl⟩
    · split
      · exact Or.inr ⟨_, _, _, rfl, rfl, rfl, hconfig, by simp [circuit_save]⟩
      · exact Or.inr ⟨_, _, _, rfl, rfl, rfl, hconfig, by simp [circuit_save]⟩
  · exact Or.inr ⟨_, _, _, rfl, rfl, rfl, hconfig, by simp [circuit_save]⟩

lemma circuit_forceOpen (b : CircuitBreaker) (name other : String) (now : ℚ) :
    (b.forceOpen name now).circuit other =
      if other = name then
        { b.circuit name with
          state := .open, failureCount := b.config.failureThreshold, openedAt := some now }
      else b.circuit other := by
  rw [forceOpen]
  exact (circuit_change b _ name other).trans (by simp [save])

lemma circuit_recordSuccess (b : CircuitBreaker) (name other : String) :
    (b.recordSuccess name).circuit other =
      if other = name then
        { b.circuit name with state := .closed, failureCount := 0, openedAt := none }
      else b.circuit other := by
  rw [recordSuccess]
  exact (circuit_change b _ name other).trans (by simp)

/-- A circuit after one failure more. -/
def failed (config : CircuitBreakerConfig) (circuit : CircuitBreakerState) (now : ℚ) :
    CircuitBreakerState :=
  if shouldOpen config circuit then
    { circuit with failureCount := circuit.failureCount + 1, state := .open, openedAt := some now }
  else { circuit with failureCount := circuit.failureCount + 1 }

lemma circuit_recordFailure (b : CircuitBreaker) (name other : String) (now : ℚ) :
    (b.recordFailure name now).circuit other =
      if other = name then failed b.config (b.circuit name) now else b.circuit other := by
  unfold recordFailure failed
  rw [stateFor]
  dsimp only
  have hconfig : (b.save (b.circuit name)).config = b.config := rfl
  rw [hconfig]
  split <;> exact (circuit_change b _ name other).trans (by simp)

lemma config_recordFailure (b : CircuitBreaker) (name : String) (now : ℚ) :
    (b.recordFailure name now).config = b.config := by
  unfold recordFailure
  rw [stateFor]
  dsimp only
  split <;> rfl

end CircuitBreaker

namespace Calls

open CircuitBreaker

variable {s : Calls}

/-! ### Openings -/

/-- A circuit is recovered of its openings if the last of them was the recovery timeout ago. -/
lemma recovered_of_le {name : String} {openedAt : ℚ}
    (hlast : ∀ t, .opened name t ∈ s.history → t ≤ openedAt)
    (htime : openedAt + s.breaker.config.recoveryTimeoutSeconds ≤ s.now) : s.Recovered name := by
  intro event hevent
  cases event with
  | started name' t => trivial
  | opened name' t =>
    rintro rfl
    have hle := hlast t hevent
    linarith

/-- What is recovered stays recovered while the clock goes on and nothing opens it. -/
lemma Recovered.mono {s' : Calls} {name : String} (h : s.Recovered name)
    (hconfig : s'.breaker.config = s.breaker.config) (hnow : s.now ≤ s'.now)
    (hhistory : ∀ t, .opened name t ∈ s'.history → .opened name t ∈ s.history) : s'.Recovered name := by
  intro event hevent
  cases event with
  | started name' t => trivial
  | opened name' t =>
    rintro rfl
    rw [hconfig]
    exact (h _ (hhistory t hevent) rfl).trans hnow

/-- The circuit of one name changed, and events of that name happened. -/
structure Change (s s' : Calls) (name : String) (new : List Event) : Prop where
  config : s'.breaker.config = s.breaker.config
  now : s'.now = s.now
  history : s'.history = s.history ++ new
  circuit : ∀ other, other ≠ name → s'.breaker.circuit other = s.breaker.circuit other
  new : ∀ event ∈ new, event.name = name ∧ event.time = s.now

section Change

variable {s' : Calls} {name : String} {new : List Event}

/-- No other circuit was opened. -/
lemma Change.old (h : Change s s' name new) {other : String} (hne : other ≠ name) {t : ℚ}
    (hmem : .opened other t ∈ s'.history) : .opened other t ∈ s.history := by
  rw [h.history, List.mem_append] at hmem
  rcases hmem with hmem | hmem
  · exact hmem
  · exact absurd (h.new _ hmem).1 hne

/-- What is recovered stays recovered, unless it is opened. -/
lemma Change.recovered (h : Change s s' name new) (hnew : ∀ t, .opened name t ∉ new) {other : String}
    (hrecovered : s.Recovered other) : s'.Recovered other := by
  refine hrecovered.mono h.config (le_of_eq h.now.symm) fun t hmem => ?_
  by_cases hname : other = name
  · subst hname
    rw [h.history, List.mem_append] at hmem
    exact hmem.resolve_right (hnew t)
  · exact h.old hname hmem

end Change

/-- Circuits in the state are recovered of their openings. -/
def Settles (state : CircuitState) (s : Calls) : Prop :=
  ∀ name, (s.breaker.circuit name).state = state → s.Recovered name

lemma Settles.change {s' : Calls} {name : String} {new : List Event} {state : CircuitState}
    (h : Settles state s) (hchange : Change s s' name new)
    (hname : (s'.breaker.circuit name).state = state → s'.Recovered name) : Settles state s' := by
  intro other hstate
  by_cases hne : other = name
  · subst hne
    exact hname hstate
  · rw [hchange.circuit other hne] at hstate
    exact (h other hstate).mono hchange.config (le_of_eq hchange.now.symm) fun t => hchange.old hne

lemma Settles.clock {state : CircuitState} (h : Settles state s) (time : ℚ) :
    Settles state (s.step (.clock time)) :=
  fun name hstate => (h name hstate).mono rfl (le_max_left _ _) fun _ => id

/-! ### The invariant -/

/-- What the circuits know of their openings, of which none is yet to come. -/
structure Inv (s : Calls) : Prop where
  cooldown : s.Cooldown
  past : ∀ event ∈ s.history, event.time ≤ s.now
  opened : ∀ name, (s.breaker.circuit name).state = .open →
    ∃ openedAt, (s.breaker.circuit name).openedAt = some openedAt ∧
      ∀ t, .opened name t ∈ s.history → t ≤ openedAt
  halfOpen : Settles .halfOpen s

/-- A circuit that changed keeps the invariant if it keeps what is said of it. -/
lemma Inv.change {s' : Calls} {name : String} {new : List Event} (h : Inv s)
    (hchange : Change s s' name new)
    (hcool : new.Pairwise (Apart s.breaker.config.recoveryTimeoutSeconds) ∧
      ∀ a ∈ s.history, ∀ b ∈ new, Apart s.breaker.config.recoveryTimeoutSeconds a b)
    (hopened : (s'.breaker.circuit name).state = .open →
      ∃ openedAt, (s'.breaker.circuit name).openedAt = some openedAt ∧
        ∀ t, .opened name t ∈ s'.history → t ≤ openedAt)
    (hhalfOpen : (s'.breaker.circuit name).state = .halfOpen → s'.Recovered name) : Inv s' where
  cooldown := by
    unfold Cooldown
    rw [hchange.config, hchange.history]
    exact List.pairwise_append.mpr ⟨h.cooldown, hcool⟩
  past event hevent := by
    rw [hchange.history, List.mem_append] at hevent
    rw [hchange.now]
    rcases hevent with hevent | hevent
    · exact h.past event hevent
    · exact le_of_eq (hchange.new event hevent).2
  opened other hstate := by
    by_cases hne : other = name
    · subst hne
      exact hopened hstate
    · rw [hchange.circuit other hne] at hstate ⊢
      obtain ⟨openedAt, hat, hlast⟩ := h.opened other hstate
      exact ⟨openedAt, hat, fun t hmem => hlast t (hchange.old hne hmem)⟩
  halfOpen := h.halfOpen.change hchange hhalfOpen

/-! ### The step -/

/-- What a step comes to. -/
inductive Effect (s : Calls) : Op → Calls → Prop
  | clock (time : ℚ) : Effect s (.clock time) (s.step (.clock time))
  | same {op : Op} {s' : Calls} (name : String) (hchange : Change s s' name [])
      (hcircuit : s'.breaker.circuit name = s.breaker.circuit name) : Effect s op s'
  | starts {name : String} {r : ℕ} {s' : Calls} (hfree : (name, r) ∉ s.pending)
      (hchange : Change s s' name [.started name s.now])
      (hstate : (s.breaker.circuit name).state ≠ .open)
      (hcircuit : s'.breaker.circuit name = s.breaker.circuit name) : Effect s (.call name r) s'
  | probes {name : String} {r : ℕ} {s' : Calls} {openedAt : ℚ}
      (hchange : Change s s' name [.started name s.now])
      (hopen : (s.breaker.circuit name).state = .open)
      (hat : (s.breaker.circuit name).openedAt = some openedAt)
      (htime : openedAt + s.breaker.config.recoveryTimeoutSeconds ≤ s.now)
      (hstate : (s'.breaker.circuit name).state = .halfOpen) : Effect s (.call name r) s'
  | closes {name : String} {r : ℕ} {s' : Calls} (hpending : (name, r) ∈ s.pending)
      (hchange : Change s s' name []) (hstate : (s'.breaker.circuit name).state = .closed) :
      Effect s (.returns name r) s'
  | counts {name : String} {r : ℕ} {s' : Calls} (hchange : Change s s' name [])
      (hstate : (s'.breaker.circuit name).state = (s.breaker.circuit name).state)
      (hat : (s'.breaker.circuit name).openedAt = (s.breaker.circuit name).openedAt) :
      Effect s (.raises name r) s'
  | opens {op : Op} {name : String} {s' : Calls} (hop : op = .forceOpen name ∨ ∃ r, op = .raises name r)
      (hchange : Change s s' name [.opened name s.now])
      (hstate : (s'.breaker.circuit name).state = .open)
      (hat : (s'.breaker.circuit name).openedAt = some s.now) : Effect s op s'

/-- Nothing happens to the circuits. -/
lemma Effect.stays {op : Op} {s' : Calls} (hbreaker : s'.breaker = s.breaker) (hnow : s'.now = s.now)
    (hhistory : s'.history = s.history) : Effect s op s' :=
  .same "" ⟨by rw [hbreaker], hnow, by rw [hhistory, List.append_nil], fun _ _ => by rw [hbreaker],
    fun _ hevent => absurd hevent List.not_mem_nil⟩ (by rw [hbreaker])

/-- **The step lemma**, once for all that follows. -/
theorem effect_step (s : Calls) (op : Op) : Effect s op (s.step op) := by
  cases op with
  | clock time => exact .clock time
  | call name r =>
    unfold step
    dsimp only
    split
    · exact .stays rfl rfl rfl
    · rename_i hfree
      have hanswer := answer_allowRequest s.breaker name s.now
      generalize s.breaker.allowRequest name s.now = answer at hanswer ⊢
      cases hanswer with
      | broken e hopen hat => exact .stays rfl rfl rfl
      | refused b' hopen hconfig hcircuit =>
        exact .same name ⟨hconfig, rfl, (List.append_nil _).symm, fun other _ => hcircuit other,
          fun _ hevent => absurd hevent List.not_mem_nil⟩ (hcircuit name)
      | recovered b' openedAt hopen hat htime hconfig hcircuit =>
        refine .probes ⟨hconfig, rfl, rfl, fun other hne => ?_, ?_⟩ hopen hat htime ?_
        · exact (hcircuit other).trans (if_neg hne)
        · simp [Event.name, Event.time]
        · dsimp only
          rw [hcircuit, if_pos rfl]
      | admitted b' hopen hconfig hcircuit =>
        exact .starts hfree ⟨hconfig, rfl, rfl, fun other _ => hcircuit other,
          by simp [Event.name, Event.time]⟩ hopen (hcircuit name)
  | returns name r =>
    unfold step
    dsimp only
    split
    · rename_i hpending
      refine .closes hpending ⟨rfl, rfl, (List.append_nil _).symm, fun other hne => ?_,
        fun _ hevent => absurd hevent List.not_mem_nil⟩ ?_
      · exact (circuit_recordSuccess ..).trans (if_neg hne)
      · dsimp only
        rw [circuit_recordSuccess, if_pos rfl]
    · exact .stays rfl rfl rfl
  | raises name r =>
    unfold step
    dsimp only
    split
    · have hother : ∀ other, other ≠ name → (s.breaker.recordFailure name s.now).circuit other =
          s.breaker.circuit other := fun other hne => (circuit_recordFailure ..).trans (if_neg hne)
      have hname : (s.breaker.recordFailure name s.now).circuit name =
          failed s.breaker.config (s.breaker.circuit name) s.now :=
        (circuit_recordFailure ..).trans (if_pos rfl)
      unfold failed at hname
      split
      · rename_i hopens
        rw [if_pos hopens] at hname
        refine .opens (Or.inr ⟨r, rfl⟩) ⟨config_recordFailure .., rfl, rfl, hother, ?_⟩ ?_ ?_
        · simp [Event.name, Event.time]
        · exact congrArg CircuitBreakerState.state hname
        · exact congrArg CircuitBreakerState.openedAt hname
      · rename_i hcounts
        rw [if_neg hcounts] at hname
        refine .counts ⟨config_recordFailure .., rfl, rfl, hother,
          fun _ hevent => absurd hevent List.not_mem_nil⟩ ?_ ?_ <;>
        · dsimp only
          rw [hname]
    · exact .stays rfl rfl rfl
  | interrupt name r => exact .stays rfl rfl rfl
  | forceOpen name =>
    refine .opens (Or.inl rfl) ⟨rfl, rfl, rfl, fun other hne => ?_, ?_⟩ ?_ ?_
    · exact (circuit_forceOpen ..).trans (if_neg hne)
    · simp [Event.name, Event.time]
    · unfold step
      dsimp only
      rw [circuit_forceOpen, if_pos rfl]
    · unfold step
      dsimp only
      rw [circuit_forceOpen, if_pos rfl]

/-- An operation may start iff its circuit is recovered. -/
lemma apart_started_iff {name : String} :
    ([Event.started name s.now].Pairwise (Apart s.breaker.config.recoveryTimeoutSeconds) ∧
      ∀ a ∈ s.history, ∀ b ∈ [Event.started name s.now],
        Apart s.breaker.config.recoveryTimeoutSeconds a b) ↔ s.Recovered name := by
  simp [Recovered]

theorem inv_step (h : Inv s) {op : Op} (hop : s.Cooled op) : Inv (s.step op) := by
  have heffect := effect_step s op
  generalize s.step op = s' at heffect ⊢
  cases heffect with
  | clock time =>
    exact ⟨h.cooldown, fun event hevent => (h.past event hevent).trans (le_max_left _ _), h.opened,
      h.halfOpen.clock time⟩
  | same name hchange hcircuit =>
    refine h.change hchange ⟨List.Pairwise.nil, by simp⟩ (fun hstate => ?_) fun hstate => ?_
    · rw [hcircuit] at hstate ⊢
      obtain ⟨openedAt, hat, hlast⟩ := h.opened name hstate
      refine ⟨openedAt, hat, fun t hmem => hlast t ?_⟩
      rwa [hchange.history, List.append_nil] at hmem
    · rw [hcircuit] at hstate
      exact hchange.recovered (by simp) (h.halfOpen name hstate)
  | @starts name r s' hfree hchange hstate hcircuit =>
    have hrecovered : s.Recovered name := by
      cases hcase : (s.breaker.circuit name).state with
      | closed => exact hop hfree hcase
      | «open» => exact absurd hcase hstate
      | halfOpen => exact h.halfOpen name hcase
    refine h.change hchange (apart_started_iff.mpr hrecovered) (fun hopen => ?_) fun _ => ?_
    · rw [hcircuit] at hopen
      exact absurd hopen hstate
    · exact hchange.recovered (by simp) hrecovered
  | @probes name r s' openedAt hchange hopen hat htime hstate =>
    obtain ⟨t, ht, hlast⟩ := h.opened name hopen
    rw [hat] at ht
    cases ht
    have hrecovered : s.Recovered name := recovered_of_le hlast htime
    refine h.change hchange (apart_started_iff.mpr hrecovered) (fun hopen' => ?_) fun _ => ?_
    · rw [hstate] at hopen'
      cases hopen'
    · exact hchange.recovered (by simp) hrecovered
  | closes hpending hchange hstate =>
    refine h.change hchange ⟨List.Pairwise.nil, by simp⟩ ?_ ?_ <;>
    · intro hstate'
      rw [hstate] at hstate'
      cases hstate'
  | @counts name r s' hchange hstate hat =>
    refine h.change hchange ⟨List.Pairwise.nil, by simp⟩ (fun hstate' => ?_) fun hstate' => ?_
    · rw [hstate] at hstate'
      rw [hat]
      obtain ⟨openedAt, hat', hlast⟩ := h.opened name hstate'
      refine ⟨openedAt, hat', fun t hmem => hlast t ?_⟩
      rwa [hchange.history, List.append_nil] at hmem
    · rw [hstate] at hstate'
      exact hchange.recovered (by simp) (h.halfOpen name hstate')
  | @opens op name s' hop hchange hstate hat =>
    refine h.change hchange ⟨List.pairwise_singleton _ _, fun a _ b hb => ?_⟩ (fun _ => ?_) fun hstate' => ?_
    · rw [List.mem_singleton.mp hb]
      cases a <;> trivial
    · refine ⟨s.now, hat, fun t hmem => ?_⟩
      rw [hchange.history, List.mem_append, List.mem_singleton] at hmem
      rcases hmem with hmem | hmem
      · exact h.past _ hmem
      · exact le_of_eq (Event.opened.inj hmem).2
    · rw [hstate] at hstate'
      cases hstate'

/-- Wherever the invariant holds, a step keeps to the cooldown iff it is disciplined. -/
lemma cooldown_step_iff (h : Inv s) (op : Op) : (s.step op).Cooldown ↔ s.Cooled op := by
  refine ⟨fun hcooldown => ?_, fun hop => (inv_step h hop).cooldown⟩
  cases op with
  | call name r =>
    intro hfree hclosed
    unfold step at hcooldown
    dsimp only at hcooldown
    rw [if_neg hfree] at hcooldown
    have hanswer := answer_allowRequest s.breaker name s.now
    generalize s.breaker.allowRequest name s.now = answer at hanswer hcooldown
    cases hanswer with
    | broken e hopen hat =>
      rw [hclosed] at hopen
      cases hopen
    | refused b' hopen hconfig hcircuit =>
      rw [hclosed] at hopen
      cases hopen
    | recovered b' openedAt hopen hat htime hconfig hcircuit =>
      rw [hclosed] at hopen
      cases hopen
    | admitted b' hopen hconfig hcircuit =>
      unfold Cooldown at hcooldown
      dsimp only at hcooldown
      rw [hconfig, List.pairwise_append] at hcooldown
      exact apart_started_iff.mp hcooldown.2
  | _ => trivial

/-! ### What breaks the cooldown -/

/-- No call succeeds while its circuit is open and was opened within the recovery timeout. -/
def SucceedsInTime (s : Calls) : Op → Prop
  | .returns name r => (name, r) ∈ s.pending → (s.breaker.circuit name).state = .open → s.Recovered name
  | _ => True

/-- Where calls succeed in time, a closed circuit is recovered. -/
lemma settles_step (h : Inv s) (hclosed : Settles .closed s) {op : Op} (hop : s.SucceedsInTime op) :
    Settles .closed (s.step op) := by
  have heffect := effect_step s op
  generalize s.step op = s' at heffect ⊢
  cases heffect with
  | clock time => exact hclosed.clock time
  | same name hchange hcircuit =>
    refine hclosed.change hchange fun hstate => hchange.recovered (by simp) (hclosed name ?_)
    rwa [hcircuit] at hstate
  | @starts name r s' hfree hchange hstate hcircuit =>
    refine hclosed.change hchange fun hstate' => hchange.recovered (by simp) (hclosed name ?_)
    rwa [hcircuit] at hstate'
  | probes hchange hopen hat htime hstate =>
    refine hclosed.change hchange fun hstate' => ?_
    rw [hstate] at hstate'
    cases hstate'
  | @closes name r s' hpending hchange hstate =>
    refine hclosed.change hchange fun _ => hchange.recovered (by simp) ?_
    cases hcase : (s.breaker.circuit name).state with
    | closed => exact hclosed name hcase
    | «open» => exact hop hpending hcase
    | halfOpen => exact h.halfOpen name hcase
  | @counts name r s' hchange hstate hat =>
    refine hclosed.change hchange fun hstate' => hchange.recovered (by simp) (hclosed name ?_)
    rwa [hstate] at hstate'
  | opens hop hchange hstate hat =>
    refine hclosed.change hchange fun hstate' => ?_
    rw [hstate] at hstate'
    cases hstate'

/-- Where calls succeed in time, the discipline is kept. -/
lemma Settles.cooled (hclosed : Settles .closed s) (op : Op) : s.Cooled op := by
  cases op with
  | call name r => exact fun _ => hclosed name
  | _ => trivial

/-! ### Circuits of different names -/

/-- The circuit that an operation is about; the clock is about all of them. -/
def Op.Concerns (name : String) : Op → Prop
  | .clock _ => True
  | .call other _ | .returns other _ | .raises other _ | .interrupt other _ | .forceOpen other =>
      other = name

instance (name : String) (op : Op) : Decidable (op.Concerns name) := by
  cases op <;> unfold Op.Concerns <;> infer_instance

/-- What is known of one circuit is the same: its state, the calls on their way through it, and what
happened to it. -/
structure Agree (name : String) (s s' : Calls) : Prop where
  config : s'.breaker.config = s.breaker.config
  now : s'.now = s.now
  circuit : s'.breaker.circuit name = s.breaker.circuit name
  pending : ∀ r, (name, r) ∈ s'.pending ↔ (name, r) ∈ s.pending
  history : s'.history.filter (·.name = name) = s.history.filter (·.name = name)

lemma Agree.refl (name : String) (s : Calls) : Agree name s s := ⟨rfl, rfl, rfl, fun _ => Iff.rfl, rfl⟩

lemma Agree.trans {s' s'' : Calls} {name : String} (h : Agree name s s') (h' : Agree name s' s'') :
    Agree name s s'' :=
  ⟨h'.config.trans h.config, h'.now.trans h.now, h'.circuit.trans h.circuit,
    fun r => (h'.pending r).trans (h.pending r), h'.history.trans h.history⟩

/-- Nothing that happens to a circuit is known of another one. -/
lemma Change.agree {s' : Calls} {name other : String} {new : List Event} (h : Change s s' other new)
    (hne : name ≠ other) (hpending : ∀ r, (name, r) ∈ s'.pending ↔ (name, r) ∈ s.pending) :
    Agree name s s' where
  config := h.config
  now := h.now
  circuit := h.circuit name hne
  pending := hpending
  history := by
    have hnone : new.filter (·.name = name) = [] := List.filter_eq_nil_iff.mpr fun event hevent => by
      rw [(h.new event hevent).1, decide_eq_true_eq]
      exact Ne.symm hne
    rw [h.history, List.filter_append, hnone, List.append_nil]

/-- The calls on their way through a circuit change by the operations on it. -/
lemma mem_pending_step {op : Op} {name : String} (hop : ¬ op.Concerns name) (r : ℕ) :
    (name, r) ∈ (s.step op).pending ↔ (name, r) ∈ s.pending := by
  cases op with
  | clock time => exact Iff.rfl
  | call other r' =>
    have hne : name ≠ other := fun h => hop h.symm
    unfold step
    dsimp only
    split
    · exact Iff.rfl
    · split
      · simp [hne]
      · exact Iff.rfl
      · exact Iff.rfl
  | returns other r' =>
    have hne : name ≠ other := fun h => hop h.symm
    unfold step
    dsimp only
    split <;> simp [hne]
  | raises other r' =>
    have hne : name ≠ other := fun h => hop h.symm
    unfold step
    dsimp only
    split <;> simp [hne]
  | interrupt other r' =>
    have hne : name ≠ other := fun h => hop h.symm
    simp [step, hne]
  | forceOpen other => exact Iff.rfl

/-- An operation on another circuit changes nothing that is known of this one. -/
lemma agree_step_other {op : Op} {name : String} (hop : ¬ op.Concerns name) :
    Agree name s (s.step op) := by
  have heffect := effect_step s op
  have hpending := fun r => mem_pending_step (s := s) hop r
  generalize s.step op = s' at heffect hpending ⊢
  cases heffect with
  | clock time => exact absurd trivial hop
  | same other hchange hcircuit =>
    refine ⟨hchange.config, hchange.now, ?_, hpending, by rw [hchange.history, List.append_nil]⟩
    by_cases hname : name = other
    · rw [hname, hcircuit]
    · exact hchange.circuit name hname
  | starts hfree hchange hstate hcircuit => exact hchange.agree (fun h => hop h.symm) hpending
  | probes hchange hopen hat htime hstate => exact hchange.agree (fun h => hop h.symm) hpending
  | closes hmem hchange hstate => exact hchange.agree (fun h => hop h.symm) hpending
  | counts hchange hstate hat => exact hchange.agree (fun h => hop h.symm) hpending
  | opens hopens hchange hstate hat =>
    rcases hopens with rfl | ⟨r, rfl⟩ <;> exact hchange.agree (fun h => hop h.symm) hpending

/-- What an operation does to its circuit depends on what is known of that circuit. -/
lemma Agree.step {s' : Calls} {name : String} (h : Agree name s s') {op : Op} (hop : op.Concerns name) :
    Agree name (s.step op) (s'.step op) := by
  cases op with
  | clock time => exact ⟨h.config, by simp [Calls.step, h.now], h.circuit, h.pending, h.history⟩
  | call other r =>
    obtain rfl : other = name := hop
    unfold Calls.step
    dsimp only
    by_cases hfree : (other, r) ∈ s.pending
    · rw [if_pos hfree, if_pos ((h.pending r).mpr hfree)]
      exact h
    · rw [if_neg hfree, if_neg (mt (h.pending r).mp hfree), h.now]
      rcases allowRequest_congr h.config h.circuit s.now with
        ⟨e, he, he'⟩ | ⟨answer, c, c', hc, hc', hconfig, hconfig', hcircuit⟩
      · rw [he, he']
        exact h
      · rw [hc, hc']
        cases answer with
        | false => exact ⟨hconfig'.trans hconfig.symm, rfl, hcircuit, h.pending, h.history⟩
        | true =>
          refine ⟨hconfig'.trans hconfig.symm, rfl, hcircuit, fun r' => ?_, ?_⟩
          · rw [PySet.mem_add, PySet.mem_add, h.pending]
          · rw [List.filter_append, List.filter_append, h.history]
  | returns other r =>
    obtain rfl : other = name := hop
    unfold Calls.step
    dsimp only
    by_cases hmem : (other, r) ∈ s.pending
    · rw [if_pos hmem, if_pos ((h.pending r).mpr hmem)]
      refine ⟨h.config, h.now, ?_, fun r' => ?_, h.history⟩
      · dsimp only
        rw [circuit_recordSuccess, circuit_recordSuccess, h.circuit]
      · rw [PySet.mem_discard, PySet.mem_discard, h.pending]
    · rw [if_neg hmem, if_neg (mt (h.pending r).mp hmem)]
      exact h
  | raises other r =>
    obtain rfl : other = name := hop
    unfold Calls.step
    dsimp only
    by_cases hmem : (other, r) ∈ s.pending
    · rw [if_pos hmem, if_pos ((h.pending r).mpr hmem)]
      refine ⟨?_, h.now, ?_, fun r' => ?_, ?_⟩
      · exact (config_recordFailure ..).trans (h.config.trans (config_recordFailure ..).symm)
      · dsimp only
        rw [circuit_recordFailure, circuit_recordFailure, h.circuit, h.config, h.now]
      · rw [PySet.mem_discard, PySet.mem_discard, h.pending]
      · dsimp only
        rw [List.filter_append, List.filter_append, h.history, h.config, h.circuit, h.now]
    · rw [if_neg hmem, if_neg (mt (h.pending r).mp hmem)]
      exact h
  | interrupt other r =>
    refine ⟨h.config, h.now, h.circuit, fun r' => ?_, h.history⟩
    unfold Calls.step
    dsimp only
    rw [PySet.mem_discard, PySet.mem_discard, h.pending]
  | forceOpen other =>
    obtain rfl : other = name := hop
    refine ⟨h.config, h.now, ?_, h.pending, ?_⟩
    · unfold Calls.step
      dsimp only
      rw [circuit_forceOpen, circuit_forceOpen, h.circuit, h.config, h.now]
    · unfold Calls.step
      dsimp only
      rw [List.filter_append, List.filter_append, h.history, h.now]

/-- **Circuits of different names**: what is known of one circuit after a run is what is known of it after
the operations on it alone. -/
theorem agree_run (name : String) (ops : List Op) (s : Calls) :
    Agree name (run step s (ops.filter fun op => op.Concerns name)) (run step s ops) := by
  have hrun : ∀ (ops : List Op) (s s' : Calls), Agree name s s' →
      Agree name (run step s (ops.filter fun op => op.Concerns name)) (run step s' ops) := by
    intro ops
    induction ops with
    | nil => exact fun _ _ h => h
    | cons op ops ih =>
      intro s s' h
      by_cases hop : op.Concerns name
      · rw [List.filter_cons_of_pos (by simpa using hop)]
        exact ih _ _ (h.step hop)
      · rw [List.filter_cons_of_neg (by simpa using hop)]
        exact ih _ _ (h.trans (agree_step_other hop))
  exact hrun ops s s (.refl name s)

/-! ### Runs -/

/-- The circuits of a new breaker. -/
def initial (config : CircuitBreakerConfig) : Calls := { breaker := { config } }

lemma inv_initial (config : CircuitBreakerConfig) : Inv (initial config) where
  cooldown := List.Pairwise.nil
  past event hevent := absurd hevent List.not_mem_nil
  opened name hstate := by cases hstate
  halfOpen name hstate := by cases hstate

/-- **The cooldown**: in every run no operation is started within the recovery timeout of an opening, and
no circuit depends on what happens to others, iff no call is made on a circuit that is closed again within
the recovery timeout of an opening. -/
theorem along_cooldown_iff (config : CircuitBreakerConfig) (ops : List Op) :
    (Along step (fun s op => (s.step op).Cooldown) (initial config) ops ∧
      ∀ name, Agree name (run step (initial config) (ops.filter fun op => op.Concerns name))
        (run step (initial config) ops)) ↔
      Along step Cooled (initial config) ops := by
  rw [and_iff_left fun name => agree_run name ops (initial config)]
  exact along_congr (I := Inv) (inv_initial config) (fun _ _ h hop => inv_step h hop)
    fun _ op h => cooldown_step_iff h op

/-- **What keeps the cooldown**: that calls succeed in time. -/
theorem along_cooled (config : CircuitBreakerConfig) (ops : List Op)
    (h : Along step SucceedsInTime (initial config) ops) : Along step Cooled (initial config) ops := by
  refine h.of_inv (I := fun s => Inv s ∧ Settles .closed s)
    ⟨inv_initial config, fun _ _ event hevent => absurd hevent List.not_mem_nil⟩
    (fun s op hinv hop => ?_) fun s op hinv _ => hinv.2.cooled op
  exact ⟨inv_step hinv.1 (hinv.2.cooled op), settles_step hinv.1 hinv.2 hop⟩

/-- Two calls are admitted; the first fails and opens the circuit, the second succeeds and closes it. -/
theorem late_success : ¬ Cooldown (run step (initial { failureThreshold := 1 })
    [.call "svc" 0, .call "svc" 1, .clock 1, .raises "svc" 0, .clock 2, .returns "svc" 1, .clock 3,
      .call "svc" 2]) := by decide +kernel

end Calls

end Tmis.CloudOperations
