import Tmis.BusinessPlatform.Licenses

/-!
# The seats of a floating pool

`checkout_floating` counts the seats that are taken; `transfer` makes a grant without counting.  It takes
the place of the grant that is transferred where that one is active; where it was revoked before, the
new grant takes one more seat.

* `WithinSeats` — no more seats are taken than the pool has;
* `NeverLowers`, `KeepsSeats` — the capacity is not lowered; the condition on an operation;
* `checkedOut_transferred` — what a transfer does to the number of seats taken;
* `along_withinSeats_iff` — over every run.
-/

namespace Tmis.BusinessPlatform

open Tmis.Lib LicenseEngine

variable {engine : LicenseEngine} {s : LicenseState} {firmId : String} {op : LicenseOperation}
  {grant : LicenseGrant} {now : ℤ}

/-- No more floating grants of the firm are active than its pool has seats. -/
def WithinSeats (firmId : String) (s : LicenseState) : Prop :=
  ∀ pool, s.engine.pools.get firmId = some pool →
    (s.engine.checkedOut firmId s.clock : ℤ) ≤ pool.totalSeats

/-- The operation does not lower the capacity of the firm's pool. -/
def NeverLowers (firmId : String) (s : LicenseState) : LicenseOperation → Prop
  | .setFloatingPoolCapacity firmId' totalSeats => firmId' = firmId →
      ∀ pool, s.engine.pools.get firmId = some pool → pool.totalSeats ≤ totalSeats
  | _ => True

/-- A floating grant of the firm that is revoked but not expired is transferred only where a seat is
left; and no pool is given fewer than no seats. -/
def KeepsSeats (firmId : String) (s : LicenseState) : LicenseOperation → Prop
  | .transfer firmId' grantId _ => firmId' = firmId →
      ∀ grant, s.engine.grants.get (firmId, grantId) = some grant → grant.licenseType = .floating →
        grant.revoked = true → grant.isExpired s.clock = false →
        ∀ pool, s.engine.pools.get firmId = some pool →
          (s.engine.checkedOut firmId s.clock : ℤ) < pool.totalSeats
  | .setFloatingPoolCapacity firmId' totalSeats => firmId' = firmId → 0 ≤ totalSeats
  | _ => True

/-! ### Counting seats -/

/-- The grant takes a seat of the firm's pool. -/
def LicenseGrant.takesSeat (firmId : String) (now : ℤ) (grant : LicenseGrant) : Bool :=
  (grant.licenseType = .floating && grant.isActive now) && grant.firmId = firmId

lemma checkedOut_eq (engine : LicenseEngine) (firmId : String) (now : ℤ) :
    engine.checkedOut firmId now = engine.grants.values.countP (LicenseGrant.takesSeat firmId now) :=
  List.countP_filter ..

/-- Time frees seats only. -/
lemma checkedOut_anti (engine : LicenseEngine) (firmId : String) {now later : ℤ} (hle : now ≤ later) :
    engine.checkedOut firmId later ≤ engine.checkedOut firmId now := by
  refine List.countP_mono_left fun grant _ => ?_
  simp only [LicenseGrant.isActive, LicenseGrant.isExpired, Bool.and_eq_true, Bool.not_eq_true',
    decide_eq_true_eq, decide_eq_false_iff_not, not_lt]
  rintro ⟨hfloating, hrevoked, hexpires⟩
  exact ⟨hfloating, hrevoked, hle.trans hexpires⟩

/-- Grants are stored under identifiers that have been drawn. -/
def Drawn (engine : LicenseEngine) : Prop :=
  ∀ key grant, engine.grants.get key = some grant → grant.id < engine.uuids

lemma Drawn.get_new (h : Drawn engine) (hid : grant.id = engine.uuids) :
    engine.grants.get grant.storeKey = none := by
  cases hget : engine.grants.get grant.storeKey with
  | none => rfl
  | some found =>
    obtain ⟨-, hfound⟩ := key_of_grant hget
    have hlt := h _ _ hget
    rw [hfound, hid] at hlt
    exact absurd hlt (Nat.lt_irrefl _)

lemma Drawn.made (h : Drawn engine) (hid : grant.id = engine.uuids) :
    Drawn { engine with grants := engine.grants.save grant, uuids := engine.uuids + 1 } := by
  intro key found hfound
  rcases Store.of_get_save hfound with rfl | hfound
  · exact hid ▸ Nat.lt_succ_self _
  · exact (h key found hfound).trans (Nat.lt_succ_self _)

lemma Drawn.revoked (h : Drawn engine) (hget : engine.grants.get grant.storeKey = some grant) :
    Drawn (engine.revoked grant) := by
  intro key found hfound
  rcases Store.of_get_save hfound with rfl | hfound
  · exact h _ grant hget
  · exact h key found hfound

lemma Drawn.transferred (h : Drawn engine) (hget : engine.grants.get grant.storeKey = some grant)
    (newHolderId : String) (now : ℤ) : Drawn (engine.transferred grant newHolderId now) :=
  Drawn.made (h.revoked hget) rfl

lemma checkedOut_made (h : Drawn engine) (grant : LicenseGrant) (hid : grant.id = engine.uuids)
    (firmId : String) (now : ℤ) (uuids : ℕ) :
    LicenseEngine.checkedOut { engine with grants := engine.grants.save grant, uuids } firmId now =
      engine.checkedOut firmId now + (grant.takesSeat firmId now).toNat := by
  rw [checkedOut_eq, checkedOut_eq]
  exact Store.countP_save_new _ (h.get_new hid)

lemma checkedOut_revoked (hget : engine.grants.get grant.storeKey = some grant) (firmId : String)
    (now : ℤ) : (engine.revoked grant).checkedOut firmId now + (grant.takesSeat firmId now).toNat =
      engine.checkedOut firmId now := by
  have hcount := Store.countP_save_over (LicenseGrant.takesSeat firmId now)
    (v := { grant with revoked := true }) hget
  rw [checkedOut_eq, checkedOut_eq]
  simpa [LicenseEngine.revoked, LicenseGrant.takesSeat, LicenseGrant.isActive] using hcount

/-- **A transfer** takes a seat more iff the grant was revoked and has not expired. -/
theorem checkedOut_transferred (h : Drawn engine) (hget : engine.grants.get grant.storeKey = some grant)
    (newHolderId : String) (firmId : String) (now : ℤ) :
    (engine.transferred grant newHolderId now).checkedOut firmId now =
      engine.checkedOut firmId now + (grant.licenseType = .floating && grant.firmId = firmId &&
        grant.revoked && !grant.isExpired now : Bool).toNat := by
  have hold := checkedOut_revoked hget firmId now
  have hnew := checkedOut_made (h.revoked hget) (engine.successor grant newHolderId now) rfl firmId now
    (engine.uuids + 1)
  have heq : (engine.transferred grant newHolderId now).checkedOut firmId now =
      (engine.revoked grant).checkedOut firmId now +
        ((engine.successor grant newHolderId now).takesSeat firmId now).toNat := hnew
  rw [heq, ← hold]
  simp only [LicenseGrant.takesSeat, LicenseGrant.isActive, LicenseGrant.isExpired, successor]
  cases grant.revoked <;> by_cases hfloating : grant.licenseType = .floating <;>
    by_cases hfirm : grant.firmId = firmId <;> by_cases hexpired : grant.expiresAt < now <;>
    simp [hfloating, hfirm, hexpired]

/-! ### One operation -/

/-- The invariant of disciplined runs. -/
structure PoolSound (firmId : String) (s : LicenseState) : Prop where
  within : WithinSeats firmId s
  pooled : ∀ key grant, s.engine.grants.get key = some grant → grant.firmId = firmId →
    grant.licenseType = .floating → ∃ pool, s.engine.pools.get firmId = some pool
  drawn : Drawn s.engine

lemma poolSound_start (sign : String → String) (clock : ℤ) (firmId : String) :
    PoolSound firmId (.start sign clock) where
  within _ h := by cases h
  pooled _ _ h := by cases h
  drawn _ _ h := by cases h

/-- Without a pool, no seat is taken. -/
lemma PoolSound.checkedOut_eq_zero (h : PoolSound firmId s) (hnone : s.engine.pools.get firmId = none)
    (now : ℤ) : s.engine.checkedOut firmId now = 0 := by
  rw [checkedOut_eq, Store.countP_eq_zero_iff]
  intro key grant hget
  by_contra htaken
  simp only [LicenseGrant.takesSeat, Bool.not_eq_false, Bool.and_eq_true, decide_eq_true_eq] at htaken
  obtain ⟨pool, hpool⟩ := h.pooled key grant hget htaken.2 htaken.1.1
  rw [hnone] at hpool
  cases hpool

lemma clock_le_step (s : LicenseState) (op : LicenseOperation) : s.clock ≤ (s.step op).clock := by
  cases op with
  | tick duration => exact le_add_of_nonneg_right (Int.natCast_nonneg duration)
  | _ => exact le_rfl

/-- **One disciplined operation.**  The invariant is kept. -/
theorem PoolSound.step (h : PoolSound firmId s) (hnever : NeverLowers firmId s op)
    (hkeeps : KeepsSeats firmId s op) : PoolSound firmId (s.step op) := by
  have hle := clock_le_step s op
  -- what is taken at the time before is enough
  suffices hbefore : PoolSound firmId ⟨s.after op, s.clock⟩ by
    refine ⟨fun pool hpool => ?_, hbefore.pooled, hbefore.drawn⟩
    exact (Int.ofNat_le.mpr (checkedOut_anti _ firmId hle)).trans (hbefore.within pool hpool)
  have heffect := effect_after s op
  generalize s.after op = engine' at heffect ⊢
  cases heffect with
  | none op hop => exact h
  | made op grant hop hid hanew hrevoked hseat =>
    refine ⟨fun pool hpool => ?_, fun key found hget hfirm hfloating => ?_, h.drawn.made hid⟩
    · show ((LicenseEngine.checkedOut _ firmId s.clock : ℕ) : ℤ) ≤ _
      rw [checkedOut_made h.drawn grant hid]
      cases htaken : grant.takesSeat firmId s.clock with
      | false => exact h.within pool hpool
      | true =>
        simp only [LicenseGrant.takesSeat, Bool.and_eq_true, decide_eq_true_eq] at htaken
        obtain ⟨pool', hpool', hlt⟩ := hseat htaken.1.1
        rw [htaken.2] at hpool' hlt
        obtain rfl := Option.some.inj (hpool'.symm.trans hpool)
        exact Int.add_one_le_of_lt hlt
    · rcases Store.of_get_save hget with rfl | hget
      · obtain ⟨pool, hpool, -⟩ := hseat hfloating
        exact ⟨pool, hfirm ▸ hpool⟩
      · exact h.pooled key found hget hfirm hfloating
  | revoked op grant hget hop =>
    refine ⟨fun pool hpool => ?_, fun key found hfound hfirm hfloating => ?_, h.drawn.revoked hget⟩
    · refine (Int.ofNat_le.mpr ?_).trans (h.within pool hpool)
      exact (Nat.le_add_right _ _).trans_eq (checkedOut_revoked hget firmId s.clock)
    · rcases Store.of_get_save hfound with rfl | hfound
      · exact h.pooled _ grant hget hfirm hfloating
      · exact h.pooled key found hfound hfirm hfloating
  | transferred grant newHolderId hget =>
    refine ⟨fun pool hpool => ?_, fun key found hfound hfirm hfloating => ?_,
      h.drawn.transferred hget newHolderId s.clock⟩
    · show ((LicenseEngine.checkedOut _ firmId s.clock : ℕ) : ℤ) ≤ _
      rw [checkedOut_transferred h.drawn hget]
      cases hmore : (grant.licenseType = .floating && grant.firmId = firmId && grant.revoked &&
          !grant.isExpired s.clock : Bool) with
      | false => exact h.within pool hpool
      | true =>
        simp only [Bool.and_eq_true, Bool.not_eq_true', decide_eq_true_eq] at hmore
        obtain ⟨⟨⟨hfloating, rfl⟩, hrevoked⟩, hexpired⟩ := hmore
        exact Int.add_one_le_of_lt (hkeeps rfl grant hget hfloating hrevoked hexpired pool hpool)
    · rcases Store.of_get_save hfound with rfl | hfound
      · exact h.pooled _ grant hget hfirm hfloating
      · rcases Store.of_get_save hfound with rfl | hfound
        · exact h.pooled _ grant hget hfirm hfloating
        · exact h.pooled key found hfound hfirm hfloating
  | capacity firmId' totalSeats =>
    refine ⟨fun pool hpool => ?_, fun key found hget hfirm hfloating => ?_, h.drawn⟩
    · obtain ⟨hfirm, rfl⟩ | ⟨-, hpool⟩ := Store.get_save_cases hpool
      · cases hbefore : s.engine.pools.get firmId with
        | none =>
          show ((s.engine.checkedOut firmId s.clock : ℕ) : ℤ) ≤ totalSeats
          rw [h.checkedOut_eq_zero hbefore]
          exact hkeeps hfirm.symm
        | some pool => exact (h.within pool hbefore).trans (hnever hfirm.symm pool hbefore)
      · exact h.within pool hpool
    · obtain ⟨pool, hpool⟩ := h.pooled key found hget hfirm hfloating
      by_cases hfirm' : firmId = firmId'
      · exact ⟨_, (Store.get_save ..).trans (if_pos hfirm')⟩
      · exact ⟨pool, (Store.get_save ..).trans ((if_neg hfirm').trans hpool)⟩

/-- **One operation.**  Where the invariant holds and the capacity is not lowered, an operation leaves no
more seats taken than there are iff it meets its condition. -/
theorem withinSeats_step_iff (h : PoolSound firmId s) (hnever : NeverLowers firmId s op) :
    WithinSeats firmId (s.step op) ↔ KeepsSeats firmId s op := by
  refine ⟨fun hafter => ?_, fun hkeeps => (h.step hnever hkeeps).within⟩
  cases op with
  | transfer firmId' grantId newHolderId =>
    rintro rfl grant hget hfloating hrevoked hexpired pool hpool
    obtain ⟨rfl, rfl⟩ := key_of_grant hget
    have hmore := checkedOut_transferred h.drawn hget newHolderId grant.firmId s.clock
    rw [← after_transfer hget, hfloating, hrevoked, hexpired] at hmore
    simp only [decide_true, Bool.and_self, Bool.not_false, Bool.toNat_true] at hmore
    have hpool' : (s.after (.transfer grant.firmId grant.id newHolderId)).pools.get grant.firmId =
        some pool := by
      rw [after_transfer hget]
      exact hpool
    have hwithin : ((s.after (.transfer grant.firmId grant.id newHolderId)).checkedOut grant.firmId
        s.clock : ℤ) ≤ pool.totalSeats := hafter pool hpool'
    rw [hmore] at hwithin
    exact Int.lt_of_add_one_le hwithin
  | setFloatingPoolCapacity firmId' totalSeats =>
    rintro rfl
    exact (Int.natCast_nonneg _).trans (hafter _ (Store.get_save_self ..))
  | _ => trivial

/-- **Seats suffice, exactly.**  Of a firm whose pool is never made smaller, no more floating grants are
active than the pool has seats, in every state that a run reaches, iff no grant that is revoked but not
expired is transferred while every seat is taken, and no pool is given fewer than no seats. -/
theorem along_withinSeats_iff (sign : String → String) (clock : ℤ) (firmId : String)
    (ops : List LicenseOperation)
    (hnever : Along LicenseState.step (NeverLowers firmId) (.start sign clock) ops) :
    Along LicenseState.step (fun s op => WithinSeats firmId (s.step op)) (.start sign clock) ops ↔
      Along LicenseState.step (KeepsSeats firmId) (.start sign clock) ops :=
  along_congr_of (I := PoolSound firmId) hnever (poolSound_start sign clock firmId)
    (fun _ _ h hnever hkeeps => h.step hnever hkeeps) (fun _ _ h hnever => withinSeats_step_iff h hnever)

/-! ### A seat that is transferred twice -/

/-- A pool of one seat; the seat is checked out, transferred, and transferred again by the first
holder. -/
def transferredTwice : List LicenseOperation :=
  [.setFloatingPoolCapacity "firm-1" 1,
    .checkoutFloating "firm-1" "user-1" 8,
    .transfer "firm-1" 0 "user-2",
    .transfer "firm-1" 0 "user-3"]

/-- The other two both hold the one seat. -/
theorem seat_taken_twice :
    Along LicenseState.step (NeverLowers "firm-1") (.start id 0) transferredTwice ∧
      ¬ Along LicenseState.step (fun s op => WithinSeats "firm-1" (s.step op)) (.start id 0)
        transferredTwice := by
  constructor
  · refine ⟨fun _ pool hpool => ?_, trivial, trivial, trivial, trivial⟩
    cases hpool
  · rintro ⟨-, -, -, hwithin, -⟩
    have hseats : ((run LicenseState.step (.start id 0) transferredTwice).engine.pools.get "firm-1").map
        (·.totalSeats) = some 1 := by decide +kernel
    have htaken : (run LicenseState.step (.start id 0) transferredTwice).engine.checkedOut "firm-1" 0 =
        2 := by decide +kernel
    obtain ⟨pool, hpool, hone⟩ := Option.map_eq_some_iff.mp hseats
    have htwo : ((2 : ℕ) : ℤ) ≤ pool.totalSeats := htaken ▸ hwithin pool hpool
    rw [hone] at htwo
    exact absurd htwo (by decide)

/-- Where nobody transfers a grant that is revoked, seats suffice. -/
theorem along_withinSeats_iff_checkedIn :
    Along LicenseState.step (NeverLowers "firm-1") (.start id 0)
        [.setFloatingPoolCapacity "firm-1" 1, .checkoutFloating "firm-1" "user-1" 8] ∧
      Along LicenseState.step (fun s op => WithinSeats "firm-1" (s.step op)) (.start id 0)
        [.setFloatingPoolCapacity "firm-1" 1, .checkoutFloating "firm-1" "user-1" 8] := by
  have hnever : Along LicenseState.step (NeverLowers "firm-1") (.start id 0)
      [.setFloatingPoolCapacity "firm-1" 1, .checkoutFloating "firm-1" "user-1" 8] := by
    refine ⟨fun _ pool hpool => ?_, trivial, trivial⟩
    cases hpool
  exact ⟨hnever, (along_withinSeats_iff id 0 "firm-1" _ hnever).mpr
    ⟨fun _ => by decide, trivial, trivial⟩⟩

end Tmis.BusinessPlatform
