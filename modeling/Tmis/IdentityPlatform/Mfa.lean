import Tmis.IdentityPlatform.Totp
import Tmis.Lib.Dict
import Tmis.Lib.Run

/-!
# Second factors

`identity_platform.mfa.engine`: an enrollment gives a user a secret, and is confirmed by a code of it.  There
is one enrollment on file for each user, so that a new one takes the place of the one that was confirmed.

* `TotpEnrollment`, `Enrollments` — what is on file, under firm and user;
* `enroll`, `confirm`, `verify`, `countConfirmedForFirm` — the engine;
* `Call`, `step`, `History` — its calls, and the secret that each user confirmed last;
* `Kept` — the codes of a confirmed secret are verified, and its user counts as confirmed;
* `confirmed_kept_iff` — it is kept over every sequence of calls iff no confirmed user enrolls again.
-/

namespace Tmis.IdentityPlatform.Mfa

open Tmis.Lib Tmis.IdentityPlatform.Totp

structure TotpEnrollment where
  firmId : String
  userId : String
  secret : String
  confirmed : Bool := false
  deriving DecidableEq

/-- `InMemoryTotpEnrollmentStore`. -/
abbrev Enrollments := Dict (String × String) TotpEnrollment

/-- `generate_secret`, of the twenty bytes that are drawn. -/
def generateSecret (random : List UInt8) : String := String.ofList (Base32.b32encode 4 random)

namespace Enrollments

def save (store : Enrollments) (enrollment : TotpEnrollment) : Enrollments :=
  store.set (enrollment.firmId, enrollment.userId) enrollment

def enroll (store : Enrollments) (firmId userId : String) (random : List UInt8) : Enrollments :=
  store.save { firmId, userId, secret := generateSecret random }

/-- `verify_totp(secret, code)` at a moment, with its defaults. -/
def check (secret code : String) (now : ℚ) : Except PyException Bool := verifyTotp secret code 30 6 1 now

def confirm (store : Enrollments) (firmId userId code : String) (now : ℚ) :
    Except PyException (Bool × Enrollments) :=
  match store.get (firmId, userId) with
  | none => .ok (false, store)
  | some enrollment => do
      if !(← check enrollment.secret code now) then return (false, store)
      return (true, store.save { enrollment with confirmed := true })

def verify (store : Enrollments) (firmId userId code : String) (now : ℚ) : Except PyException Bool :=
  match store.get (firmId, userId) with
  | none => .ok false
  | some enrollment => if !enrollment.confirmed then .ok false else check enrollment.secret code now

/-- The enrollments that `count_confirmed_for_firm` counts. -/
def confirmedForFirm (store : Enrollments) (firmId : String) : List ((String × String) × TotpEnrollment) :=
  store.entries.filter fun entry => entry.1.1 = firmId && entry.2.confirmed

def countConfirmedForFirm (store : Enrollments) (firmId : String) : ℕ := (store.confirmedForFirm firmId).length

end Enrollments

/-! ### Calls -/

inductive Call where
  | enroll (firmId userId : String) (random : List UInt8)
  | confirm (firmId userId code : String) (now : ℚ)
  | verify (firmId userId code : String) (now : ℚ)

/-- The enrollments, and the secret that each user confirmed last. -/
structure History where
  store : Enrollments := ∅
  confirmed : Dict (String × String) String := ∅

/-- The state after a call; one that raises leaves it as it is. -/
def step (s : History) : Call → History
  | .enroll firmId userId random => { s with store := s.store.enroll firmId userId random }
  | .confirm firmId userId code now =>
      match s.store.get (firmId, userId), s.store.confirm firmId userId code now with
      | some enrollment, .ok (true, store) =>
          { store, confirmed := s.confirmed.set (firmId, userId) enrollment.secret }
      | _, .ok (_, store) => { s with store }
      | _, .error _ => s
  | .verify _ _ _ _ => s

/-- What a user has confirmed is kept: a code is verified as one of the secret, and the user counts. -/
def Kept (s : History) : Prop :=
  ∀ firmId userId secret, s.confirmed.get (firmId, userId) = some secret →
    (∀ code now, s.store.verify firmId userId code now = Enrollments.check secret code now) ∧
      ∃ enrollment, ((firmId, userId), enrollment) ∈ s.store.confirmedForFirm firmId

/-- No user whose enrollment is confirmed enrolls again. -/
def FirstEnrollment (s : History) : Call → Prop
  | .enroll firmId userId _ =>
      ∀ enrollment, s.store.get (firmId, userId) = some enrollment → enrollment.confirmed = false
  | _ => True

/-- What is on file for a user is what the user has confirmed. -/
structure Current (s : History) : Prop where
  stored : ∀ key secret, s.confirmed.get key = some secret →
    ∃ enrollment, s.store.get key = some enrollment ∧ enrollment.secret = secret ∧ enrollment.confirmed = true
  confirmed : ∀ key enrollment, s.store.get key = some enrollment → enrollment.confirmed = true →
    s.confirmed.get key = some enrollment.secret
  key : ∀ key enrollment, s.store.get key = some enrollment → (enrollment.firmId, enrollment.userId) = key

section Calls

variable {s : History} {firmId userId code : String} {now : ℚ} {enrollment : TotpEnrollment}

/-- The enrollments that count are those on file that are confirmed. -/
lemma mem_confirmedForFirm {store : Enrollments} :
    ((firmId, userId), enrollment) ∈ store.confirmedForFirm firmId ↔
      store.get (firmId, userId) = some enrollment ∧ enrollment.confirmed = true := by
  rw [Enrollments.confirmedForFirm, List.mem_filter, Dict.mem_entries_iff]
  simp

lemma Current.kept (h : Current s) : Kept s := by
  intro firmId userId secret hsecret
  obtain ⟨enrollment, hget, rfl, hconfirmed⟩ := h.stored (firmId, userId) secret hsecret
  refine ⟨fun code now => ?_, enrollment, mem_confirmedForFirm.mpr ⟨hget, hconfirmed⟩⟩
  rw [Enrollments.verify, hget]
  show (if !enrollment.confirmed then _ else _) = _
  rw [hconfirmed]
  rfl

lemma step_confirm (hget : s.store.get (firmId, userId) = some enrollment)
    (hcheck : Enrollments.check enrollment.secret code now = .ok true) :
    step s (.confirm firmId userId code now) =
      { store := s.store.save { enrollment with confirmed := true }
        confirmed := s.confirmed.set (firmId, userId) enrollment.secret } := by
  rw [step, Enrollments.confirm, hget]
  dsimp only
  rw [hcheck]
  rfl

/-- What confirming comes to: the enrollment on file is confirmed, or nothing changes. -/
lemma step_confirm_cases (s : History) (firmId userId code : String) (now : ℚ) :
    step s (.confirm firmId userId code now) = s ∨
    ∃ enrollment, s.store.get (firmId, userId) = some enrollment ∧ Enrollments.check enrollment.secret code now = .ok true ∧
      step s (.confirm firmId userId code now) =
        { store := s.store.save { enrollment with confirmed := true }
          confirmed := s.confirmed.set (firmId, userId) enrollment.secret } := by
  cases hget : s.store.get (firmId, userId) with
  | none =>
    left
    rw [step, Enrollments.confirm, hget]
  | some enrollment =>
    cases hcheck : Enrollments.check enrollment.secret code now with
    | error e =>
      left
      rw [step, Enrollments.confirm, hget]
      dsimp only
      rw [hcheck]
      rfl
    | ok result =>
      cases result with
      | false =>
        left
        rw [step, Enrollments.confirm, hget]
        dsimp only
        rw [hcheck]
        rfl
      | true => exact Or.inr ⟨enrollment, rfl, hcheck, step_confirm hget hcheck⟩

/-- Confirming what is on file. -/
lemma Current.confirm (h : Current s) (hget : s.store.get (firmId, userId) = some enrollment) :
    Current { store := s.store.save { enrollment with confirmed := true }
              confirmed := s.confirmed.set (firmId, userId) enrollment.secret } := by
  have hkey := h.key _ _ hget
  have hsaved : ∀ key, (s.store.save { enrollment with confirmed := true }).get key =
      if key = (firmId, userId) then some { enrollment with confirmed := true } else s.store.get key := by
    intro key
    rw [Enrollments.save, Dict.get_set]
    show (if key = (enrollment.firmId, enrollment.userId) then _ else _) = _
    rw [hkey]
  refine ⟨fun key secret hsecret => ?_, fun key e he hconfirmed => ?_, fun key e he => ?_⟩
  · rw [Dict.get_set] at hsecret
    show ∃ e, (s.store.save _).get key = some e ∧ _
    rw [hsaved]
    split at hsecret
    · rename_i heq
      rw [if_pos heq]
      exact ⟨_, rfl, Option.some.inj hsecret, rfl⟩
    · rename_i hne
      rw [if_neg hne]
      exact h.stored key secret hsecret
  · change (s.store.save _).get key = some e at he
    show (s.confirmed.set _ _).get key = _
    rw [hsaved] at he
    rw [Dict.get_set]
    split at he
    · rename_i heq
      cases he
      rw [if_pos heq]
    · rename_i hne
      rw [if_neg hne]
      exact h.confirmed key e he hconfirmed
  · change (s.store.save _).get key = some e at he
    rw [hsaved] at he
    split at he
    · rename_i heq
      cases he
      rw [heq]
      exact hkey
    · exact h.key key e he

/-- A first enrollment. -/
lemma Current.enroll (h : Current s) (random : List UInt8)
    (hfirst : FirstEnrollment s (.enroll firmId userId random)) :
    Current (step s (.enroll firmId userId random)) := by
  have hsaved : ∀ key, (step s (.enroll firmId userId random)).store.get key =
      if key = (firmId, userId) then some { firmId, userId, secret := generateSecret random }
      else s.store.get key := fun key => Dict.get_set _ _ _ _
  refine ⟨fun key secret hsecret => ?_, fun key e he hconfirmed => ?_, fun key e he => ?_⟩
  · obtain ⟨e, he, hsec, hconfirmed⟩ := h.stored key secret hsecret
    rw [hsaved]
    split
    · rename_i heq
      subst heq
      rw [hfirst e he] at hconfirmed
      cases hconfirmed
    · exact ⟨e, he, hsec, hconfirmed⟩
  · rw [hsaved] at he
    split at he
    · cases he
      cases hconfirmed
    · exact h.confirmed key e he hconfirmed
  · rw [hsaved] at he
    split at he
    · rename_i heq
      cases he
      exact heq.symm
    · exact h.key key e he

/-- What one call preserves. -/
lemma Current.step (h : Current s) (call : Call) (hcall : FirstEnrollment s call) : Current (step s call) := by
  cases call with
  | enroll firmId userId random => exact h.enroll random hcall
  | confirm firmId userId code now =>
    rcases step_confirm_cases s firmId userId code now with heq | ⟨enrollment, hget, -, heq⟩
    · rw [heq]
      exact h
    · rw [heq]
      exact h.confirm hget
  | verify firmId userId code now => exact h

/-- After one call, what was confirmed is kept iff no confirmed user enrolls again. -/
lemma kept_step_iff (h : Current s) (call : Call) : Kept (step s call) ↔ FirstEnrollment s call := by
  constructor
  · intro hkept
    cases call with
    | enroll firmId userId random =>
      intro enrollment hget
      by_contra hconfirmed
      rw [Bool.not_eq_false] at hconfirmed
      have hsecret := h.confirmed (firmId, userId) enrollment hget hconfirmed
      -- The enrollment that takes its place is not confirmed.
      obtain ⟨-, e, he⟩ := hkept firmId userId enrollment.secret hsecret
      obtain ⟨hnew, hcounts⟩ := mem_confirmedForFirm.mp he
      change (s.store.set (firmId, userId) _).get (firmId, userId) = some e at hnew
      rw [Dict.get_set_self] at hnew
      cases hnew
      cases hcounts
    | confirm firmId userId code now => trivial
    | verify firmId userId code now => trivial
  · exact fun hcall => (h.step call hcall).kept

end Calls

/-- **What a user has confirmed is kept**, after every call of a sequence, iff no user whose enrollment is
confirmed enrolls again. -/
theorem confirmed_kept_iff (calls : List Call) :
    Along step (fun s call => Kept (step s call)) {} calls ↔ Along step FirstEnrollment {} calls := by
  have hfirst : Current {} := ⟨fun _ _ h => (nomatch h), fun _ _ h => (nomatch h), fun _ _ h => (nomatch h)⟩
  exact along_congr hfirst (fun _ call h hcall => h.step call hcall) (fun _ call h => kept_step_iff h call)

/-- The calls of a user who confirms an enrollment with a code, and begins another one. -/
def reenrolls (code : String) : List Call :=
  [.enroll "firm-1" "alice" (List.replicate 20 0), .confirm "firm-1" "alice" code 59,
    .enroll "firm-1" "alice" (List.replicate 20 1)]

/-- A re-enrollment that is never confirmed loses what was confirmed. -/
theorem confirmed_lost : ∃ code, ¬ Along step (fun s call => Kept (step s call)) {} (reenrolls code) := by
  have hvalid : ValidSecret (generateSecret (List.replicate 20 0)) := ⟨List.replicate 20 0, by decide⟩
  obtain ⟨code, hcode, hascii⟩ := hotp_eq_ok hvalid 6 (show (0 : ℤ) ≤ 1 by decide) (by decide)
  have hfloor : ⌊(59 : ℚ) / (30 : ℤ)⌋ = 1 := by
    rw [Int.floor_eq_iff]
    norm_num
  have hcheck : Enrollments.check (generateSecret (List.replicate 20 0)) code 59 = .ok true := by
    rw [Enrollments.check, verifyTotp_eq (by decide), hfloor]
    exact (scan_eq_true_iff hvalid hascii _ (by decide)).mpr ⟨1, by decide, by decide, hcode⟩
  have hget : (step {} (.enroll "firm-1" "alice" (List.replicate 20 0))).store.get ("firm-1", "alice") =
      some ⟨"firm-1", "alice", generateSecret (List.replicate 20 0), false⟩ := Dict.get_set_self _ _ _
  have hconfirm := step_confirm hget hcheck
  refine ⟨code, ?_⟩
  rintro ⟨-, -, hkept, -⟩
  rw [hconfirm] at hkept
  obtain ⟨-, e, he⟩ := hkept "firm-1" "alice" _ (Dict.get_set_self _ _ _)
  obtain ⟨hnew, hcounts⟩ := mem_confirmedForFirm.mp he
  have hlast : some e = some ⟨"firm-1", "alice", generateSecret (List.replicate 20 1), false⟩ :=
    hnew.symm.trans (Dict.get_set_self _ _ _)
  cases hlast
  cases hcounts

end Tmis.IdentityPlatform.Mfa
