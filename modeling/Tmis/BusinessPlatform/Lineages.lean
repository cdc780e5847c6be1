import Mathlib.Data.Set.Basic
import Tmis.BusinessPlatform.SeatPool
import Tmis.Lib.Lineage

/-!
# The lineage of a license

A transfer revokes a grant and makes another one out of it, whether the grant was revoked before or not.
Where it was, the license is held twice, or again after it was given back.

* `link` — what each grant was made out of;
* `WatchedLicenses` — a run of the engine with the lineages whose last holder gave the license back;
* `OneHolder`, `RevivesNothing` — what is asked of a state, and the condition on an operation;
* `LineageSound.made`, `revoked`, `transferred` — what each change does to the invariant;
* `along_oneHolder_iff` — over every run.
-/

namespace Tmis.BusinessPlatform

open Tmis.Lib LicenseEngine

variable {engine : LicenseEngine} {firmId : String} {op : LicenseOperation} {grant : LicenseGrant}
  {o k k' : GrantKey} {ended : Set GrantKey} {now : ℤ}

/-- What the grant under a key was made out of. -/
def link (engine : LicenseEngine) (key : GrantKey) : Option (Option GrantKey) :=
  (engine.grants.get key).map fun grant => grant.transferredFrom.map (key.1, ·)

/-- The grant `k` is the last one of the lineage of `o`. -/
def LastOf (engine : LicenseEngine) (o k : GrantKey) : Prop :=
  Descends (link engine) o k ∧ ∀ k', Descends (link engine) o k' → k'.2 ≤ k.2

/-- The engine and the time, and the lineages whose last holder has been revoked or checked in. -/
structure WatchedLicenses where
  state : LicenseState
  ended : Set GrantKey := ∅

namespace WatchedLicenses

/-- The lineages that have ended after an operation. -/
def recorded (w : WatchedLicenses) (op : LicenseOperation) : Set GrantKey :=
  {o | o ∈ w.ended ∨ ∃ firmId grantId, op.Ends firmId grantId ∧ LastOf w.state.engine o (firmId, grantId)}

def step (w : WatchedLicenses) (op : LicenseOperation) : WatchedLicenses where
  state := w.state.step op
  ended := w.recorded op

end WatchedLicenses

/-- At most one grant of each lineage is active, and none of a lineage that has ended. -/
structure OneHolder (w : WatchedLicenses) : Prop where
  single : ∀ o k k' grant grant', Descends (link w.state.engine) o k →
    Descends (link w.state.engine) o k' → w.state.engine.grants.get k = some grant →
    w.state.engine.grants.get k' = some grant' → grant.isActive w.state.clock = true →
    grant'.isActive w.state.clock = true → k = k'
  gone : ∀ o ∈ w.ended, ∀ k grant, Descends (link w.state.engine) o k →
    w.state.engine.grants.get k = some grant → grant.isActive w.state.clock = false

/-- A grant that is revoked is transferred only if it has expired. -/
def RevivesNothing (w : WatchedLicenses) : LicenseOperation → Prop
  | .transfer firmId grantId _ => ∀ grant, w.state.engine.grants.get (firmId, grantId) = some grant →
      grant.revoked = true → grant.isExpired w.state.clock = true
  | _ => True

/-! ### Links -/

lemma link_save (engine : LicenseEngine) (grant : LicenseGrant) (uuids : ℕ) :
    link { engine with grants := engine.grants.save grant, uuids } =
      Function.update (link engine) grant.storeKey
        (some (grant.transferredFrom.map (grant.firmId, ·))) := by
  funext key
  by_cases hkey : key = grant.storeKey
  · subst hkey
    rw [Function.update_self, link, Store.get_save_self]
    rfl
  · rw [Function.update_of_ne hkey, link, Store.get_save, if_neg hkey]
    rfl

lemma link_of_get (hget : engine.grants.get k = some grant) :
    link engine k = some (grant.transferredFrom.map (k.1, ·)) := by
  rw [link, hget]
  rfl

lemma link_revoked (hget : engine.grants.get grant.storeKey = some grant) :
    link (engine.revoked grant) = link engine := by
  have hsave := link_save engine { grant with revoked := true } engine.uuids
  refine hsave.trans ?_
  rw [Function.update_eq_self_iff]
  exact (link_of_get hget).symm

/-- A lineage stays with its firm. -/
lemma firmId_eq_of_descends (h : Descends (link engine) o k) : k.1 = o.1 := by
  induction h with
  | origin _ => rfl
  | @child p k _ hk ih =>
    obtain ⟨grant, -, hlink⟩ := Option.map_eq_some_iff.mp hk
    obtain ⟨id, -, rfl⟩ := Option.map_eq_some_iff.mp hlink
    exact ih

/-- Everything in a lineage is stored. -/
lemma get_of_descends (h : Descends (link engine) o k) :
    ∃ grant, engine.grants.get k = some grant := by
  obtain ⟨q, hq⟩ := h.isSome
  obtain ⟨grant, hget, -⟩ := Option.map_eq_some_iff.mp hq
  exact ⟨grant, hget⟩

lemma link_transferred (hget : engine.grants.get grant.storeKey = some grant) (newHolderId : String)
    (now : ℤ) : link (engine.transferred grant newHolderId now) =
      Function.update (link engine) (engine.successor grant newHolderId now).storeKey
        (some (some grant.storeKey)) := by
  have hsave := link_save (engine.revoked grant) (engine.successor grant newHolderId now)
    (engine.uuids + 1)
  rw [link_revoked hget] at hsave
  exact hsave

/-! ### What becomes of a grant -/

lemma isActive_iff : grant.isActive now = true ↔ grant.revoked = false ∧ grant.isExpired now = false := by
  simp [LicenseGrant.isActive]

lemma isActive_eq_false_iff :
    grant.isActive now = false ↔ grant.revoked = true ∨ grant.isExpired now = true := by
  rw [← Bool.not_eq_true, isActive_iff]
  cases grant.revoked <;> simp

/-- What the grant `before`, under the key `k`, has become once the grant under `k'` is revoked. -/
structure Remains (k' k : GrantKey) (before found : LicenseGrant) : Prop where
  expiresAt : found.expiresAt = before.expiresAt
  transferredFrom : found.transferredFrom = before.transferredFrom
  unrevoked : found.revoked = false → before.revoked = false ∧ k ≠ k'

namespace Remains

variable {before found : LicenseGrant} (h : Remains k' k before found)
include h

lemma isExpired : found.isExpired now = before.isExpired now := by
  rw [LicenseGrant.isExpired, h.expiresAt, LicenseGrant.isExpired]

lemma isActive (hactive : found.isActive now = true) : before.isActive now = true ∧ k ≠ k' := by
  obtain ⟨hrevoked, hexpired⟩ := isActive_iff.mp hactive
  obtain ⟨hbefore, hne⟩ := h.unrevoked hrevoked
  exact ⟨isActive_iff.mpr ⟨hbefore, h.isExpired ▸ hexpired⟩, hne⟩

end Remains

lemma of_get_revoked {found : LicenseGrant} (hget : engine.grants.get grant.storeKey = some grant)
    (hfound : (engine.revoked grant).grants.get k = some found) :
    ∃ before, engine.grants.get k = some before ∧ Remains grant.storeKey k before found := by
  obtain ⟨rfl, rfl⟩ | ⟨hne, hfound⟩ := Store.get_save_cases hfound
  · exact ⟨grant, hget, rfl, rfl, nofun⟩
  · exact ⟨found, hfound, rfl, rfl, fun hrevoked => ⟨hrevoked, hne⟩⟩

lemma of_get_transferred {found : LicenseGrant} {newHolderId : String}
    (hget : engine.grants.get grant.storeKey = some grant)
    (hfound : (engine.transferred grant newHolderId now).grants.get k = some found) :
    (k = (engine.successor grant newHolderId now).storeKey ∧
        found = engine.successor grant newHolderId now) ∨
      (k ≠ (engine.successor grant newHolderId now).storeKey ∧
        ∃ before, engine.grants.get k = some before ∧ Remains grant.storeKey k before found) := by
  obtain ⟨rfl, rfl⟩ | ⟨hne, hfound⟩ := Store.get_save_cases hfound
  · exact Or.inl ⟨rfl, rfl⟩
  · exact Or.inr ⟨hne, of_get_revoked hget hfound⟩

/-! ### The invariant -/

/-- The invariant of disciplined runs, of the grants, the lineages that have ended, and the time. -/
structure LineageSound (engine : LicenseEngine) (ended : Set GrantKey) (now : ℤ) : Prop where
  drawn : Drawn engine
  linked : ∀ k grant p, engine.grants.get k = some grant → grant.transferredFrom = some p →
    p < engine.uuids
  ended_lt : ∀ o ∈ ended, o.2 < engine.uuids
  rooted : ∀ k grant, engine.grants.get k = some grant → ∃ o, Descends (link engine) o k
  expiry : ∀ o k k' grant grant', Descends (link engine) o k → Descends (link engine) o k' →
    engine.grants.get k = some grant → engine.grants.get k' = some grant' →
    grant.expiresAt = grant'.expiresAt
  holder : ∀ o k grant, Descends (link engine) o k → engine.grants.get k = some grant →
    grant.isActive now = true → ∀ k', Descends (link engine) o k' → k'.2 ≤ k.2
  gone : ∀ o ∈ ended, ∀ k grant, Descends (link engine) o k → engine.grants.get k = some grant →
    grant.isActive now = false
  held : ∀ o k grant, Descends (link engine) o k → engine.grants.get k = some grant →
    grant.isExpired now = false →
    o ∈ ended ∨ ∃ k' grant', Descends (link engine) o k' ∧ engine.grants.get k' = some grant' ∧
      grant'.revoked = false

namespace LineageSound

variable (h : LineageSound engine ended now)
include h

/-- Two grants of a lineage that are both active are one. -/
lemma single {grant' : LicenseGrant} (hk : Descends (link engine) o k)
    (hk' : Descends (link engine) o k') (hget : engine.grants.get k = some grant)
    (hget' : engine.grants.get k' = some grant') (hactive : grant.isActive now = true)
    (hactive' : grant'.isActive now = true) : k = k' := by
  have hle := h.holder o k' grant' hk' hget' hactive' k hk
  have hge := h.holder o k grant hk hget hactive k' hk'
  exact Prod.ext ((firmId_eq_of_descends hk).trans (firmId_eq_of_descends hk').symm)
    (Nat.le_antisymm hle hge)

lemma lt_of_descends (hk : Descends (link engine) o k) : k.2 < engine.uuids := by
  obtain ⟨grant, hget⟩ := get_of_descends hk
  obtain ⟨-, hid⟩ := key_of_grant hget
  exact hid ▸ h.drawn k grant hget

lemma unused (n : GrantKey) (hn : n.2 = engine.uuids) : Unused (link engine) n where
  absent := by
    cases hget : engine.grants.get n with
    | none =>
      rw [link, hget]
      rfl
    | some grant =>
      obtain ⟨-, hid⟩ := key_of_grant hget
      have hlt := h.drawn n grant hget
      rw [hid, hn] at hlt
      exact absurd hlt (Nat.lt_irrefl _)
  childless := by
    intro k hk
    obtain ⟨grant, hget, hlink⟩ := Option.map_eq_some_iff.mp hk
    obtain ⟨p, hp, rfl⟩ := Option.map_eq_some_iff.mp hlink
    have hlt := h.linked k grant p hget hp
    rw [show p = engine.uuids from hn] at hlt
    exact absurd hlt (Nat.lt_irrefl _)

/-- Time passes. -/
lemma later {later : ℤ} (hle : now ≤ later) : LineageSound engine ended later := by
  have hexpired : ∀ {grant : LicenseGrant}, grant.isExpired later = false → grant.isExpired now = false := by
    intro grant hlater
    simp only [LicenseGrant.isExpired, decide_eq_false_iff_not, not_lt] at hlater ⊢
    exact hle.trans hlater
  have hactive : ∀ {grant : LicenseGrant}, grant.isActive later = true → grant.isActive now = true := by
    intro grant hlater
    rw [isActive_iff] at hlater ⊢
    exact ⟨hlater.1, hexpired hlater.2⟩
  refine { h with holder := ?_, gone := ?_, held := ?_ }
  · exact fun o k grant hk hget hlater => h.holder o k grant hk hget (hactive hlater)
  · intro o ho k grant hk hget
    by_contra hlater
    rw [Bool.not_eq_false] at hlater
    exact Bool.false_ne_true ((h.gone o ho k grant hk hget).symm.trans (hactive hlater))
  · exact fun o k grant hk hget hlater => h.held o k grant hk hget (hexpired hlater)

/-- A lineage, once a grant is made anew: it was there before, with its grants, or it is the lineage of
the new grant. -/
lemma of_descends_made {found : LicenseGrant} (hid : grant.id = engine.uuids)
    (hanew : grant.transferredFrom = none)
    (hk : Descends (link { engine with
      grants := engine.grants.save grant, uuids := engine.uuids + 1 }) o k)
    (hget : (engine.grants.save grant).get k = some found) :
    (o ≠ grant.storeKey ∧ Descends (link engine) o k ∧ engine.grants.get k = some found) ∨
      (o = grant.storeKey ∧ k = grant.storeKey ∧ found = grant) := by
  have hunused : Unused (link engine) grant.storeKey := h.unused _ hid
  rw [link_save, hanew] at hk
  rcases (descends_update_new hunused).mp hk with hk | ⟨rfl, rfl⟩
  · refine Or.inl ⟨?_, hk, ?_⟩
    · rintro rfl
      have hlink := hk.link_origin
      rw [hunused.absent] at hlink
      cases hlink
    · rcases Store.get_save_cases hget with ⟨rfl, -⟩ | ⟨-, hget⟩
      · exact absurd (h.lt_of_descends hk) hid.not_lt
      · exact hget
  · rw [Store.get_save_self] at hget
    exact Or.inr ⟨rfl, rfl, (Option.some.inj hget).symm⟩

/-- A grant is made anew: it is a lineage of its own. -/
lemma made (hid : grant.id = engine.uuids) (hanew : grant.transferredFrom = none)
    (hrevoked : grant.revoked = false) :
    LineageSound { engine with grants := engine.grants.save grant, uuids := engine.uuids + 1 } ended now := by
  have hdesc : ∀ {o k}, Descends (link { engine with
      grants := engine.grants.save grant, uuids := engine.uuids + 1 }) o k ↔
      Descends (link engine) o k ∨ (o = grant.storeKey ∧ k = grant.storeKey) := by
    intro o k
    rw [link_save, hanew]
    exact descends_update_new (h.unused _ hid)
  refine ⟨h.drawn.made hid, ?linked, ?ended_lt, ?rooted, ?expiry, ?holder, ?gone, ?held⟩
  case linked =>
    intro k found p hget hp
    rcases Store.of_get_save hget with rfl | hget
    · rw [hanew] at hp
      cases hp
    · exact (h.linked k found p hget hp).trans (Nat.lt_succ_self _)
  case ended_lt => exact fun o ho => (h.ended_lt o ho).trans (Nat.lt_succ_self _)
  case rooted =>
    intro k found hget
    rcases Store.get_save_cases hget with ⟨rfl, -⟩ | ⟨-, hget⟩
    · exact ⟨grant.storeKey, hdesc.mpr (Or.inr ⟨rfl, rfl⟩)⟩
    · obtain ⟨o, ho⟩ := h.rooted k found hget
      exact ⟨o, hdesc.mpr (Or.inl ho)⟩
  case expiry =>
    intro o k k' found found' hk hk' hget hget'
    rcases h.of_descends_made hid hanew hk hget with ⟨hne, hk, hget⟩ | ⟨rfl, -, rfl⟩
    · obtain ⟨-, hk', hget'⟩ := (h.of_descends_made hid hanew hk' hget').resolve_right fun hnew => hne hnew.1
      exact h.expiry o k k' found found' hk hk' hget hget'
    · obtain ⟨-, -, rfl⟩ := (h.of_descends_made hid hanew hk' hget').resolve_left fun hold => hold.1 rfl
      rfl
  case holder =>
    intro o k found hk hget hactive k' hk'
    rcases h.of_descends_made hid hanew hk hget with ⟨hne, hk, hget⟩ | ⟨rfl, rfl, -⟩
    · exact h.holder o k found hk hget hactive k'
        ((hdesc.mp hk').resolve_right fun hnew => hne hnew.1)
    · rcases hdesc.mp hk' with hk' | ⟨-, rfl⟩
      · exact (h.lt_of_descends hk').le.trans hid.ge
      · exact Nat.le_refl _
  case gone =>
    intro o ho k found hk hget
    rcases h.of_descends_made hid hanew hk hget with ⟨-, hk, hget⟩ | ⟨rfl, -, -⟩
    · exact h.gone o ho k found hk hget
    · exact absurd (h.ended_lt _ ho) hid.not_lt
  case held =>
    intro o k found hk hget hexpired
    rcases h.of_descends_made hid hanew hk hget with ⟨-, hk, hget⟩ | ⟨rfl, rfl, rfl⟩
    · rcases h.held o k found hk hget hexpired with hended | ⟨k', found', hk', hget', hunrevoked⟩
      · exact Or.inl hended
      · refine Or.inr ⟨k', found', hdesc.mpr (Or.inl hk'), ?_, hunrevoked⟩
        refine (Store.get_save ..).trans ((if_neg ?_).trans hget')
        rintro rfl
        exact absurd (h.lt_of_descends hk') hid.not_lt
    · exact Or.inr ⟨_, found, hk, Store.get_save_self .., hrevoked⟩

/-- **A grant is revoked.**  Where it is the last one of a lineage, that lineage has ended. -/
theorem revoked (hget : engine.grants.get grant.storeKey = some grant) :
    LineageSound (engine.revoked grant) {o | o ∈ ended ∨ LastOf engine o grant.storeKey} now := by
  have hlink := link_revoked hget
  refine ⟨h.drawn.revoked hget, ?linked, ?ended_lt, ?rooted, ?expiry, ?holder, ?gone, ?held⟩
  case linked =>
    intro k found p hfound hp
    obtain ⟨before, hbefore, same⟩ := of_get_revoked hget hfound
    exact h.linked k before p hbefore (same.transferredFrom ▸ hp)
  case ended_lt =>
    rintro o (ho | hlast)
    · exact h.ended_lt o ho
    · exact h.lt_of_descends (.origin hlast.1.link_origin)
  case rooted =>
    intro k found hfound
    obtain ⟨before, hbefore, -⟩ := of_get_revoked hget hfound
    exact hlink ▸ h.rooted k before hbefore
  case expiry =>
    rw [hlink]
    intro o k k' found found' hk hk' hfound hfound'
    obtain ⟨before, hbefore, same⟩ := of_get_revoked hget hfound
    obtain ⟨before', hbefore', same'⟩ := of_get_revoked hget hfound'
    rw [same.expiresAt, same'.expiresAt]
    exact h.expiry o k k' before before' hk hk' hbefore hbefore'
  case holder =>
    rw [hlink]
    intro o k found hk hfound hactive
    obtain ⟨before, hbefore, same⟩ := of_get_revoked hget hfound
    exact h.holder o k before hk hbefore (same.isActive hactive).1
  case gone =>
    rw [hlink]
    rintro o ho k found hk hfound
    obtain ⟨before, hbefore, same⟩ := of_get_revoked hget hfound
    by_contra hactive
    obtain ⟨hactive, hne⟩ := same.isActive (Bool.not_eq_false _ ▸ hactive)
    rcases ho with ho | ⟨hlast, hmax⟩
    · exact Bool.false_ne_true ((h.gone o ho k before hk hbefore).symm.trans hactive)
    · have hle := h.holder o k before hk hbefore hactive _ hlast
      refine hne (Prod.ext ?_ (Nat.le_antisymm (hmax k hk) hle))
      exact (firmId_eq_of_descends hk).trans (firmId_eq_of_descends hlast).symm
  case held =>
    rw [hlink]
    intro o k found hk hfound hexpired
    obtain ⟨before, hbefore, same⟩ := of_get_revoked hget hfound
    rw [same.isExpired] at hexpired
    rcases h.held o k before hk hbefore hexpired with ho | ⟨k', before', hk', hbefore', hrevoked⟩
    · exact Or.inl (Or.inl ho)
    · by_cases hne : k' = grant.storeKey
      · -- the one that held the license is the one that is revoked
        subst hne
        refine Or.inl (Or.inr ⟨hk', h.holder o _ before' hk' hbefore' ?_⟩)
        refine isActive_iff.mpr ⟨hrevoked, ?_⟩
        rw [LicenseGrant.isExpired, h.expiry o _ k before' before hk' hk hbefore' hbefore]
        exact hexpired
      · exact Or.inr ⟨k', before', hk',
          (Store.get_save ..).trans ((if_neg hne).trans hbefore'), hrevoked⟩

lemma storeKey_ne_successor (hget : engine.grants.get grant.storeKey = some grant) (newHolderId : String) :
    grant.storeKey ≠ (engine.successor grant newHolderId now).storeKey := by
  intro heq
  have hlt : grant.id < engine.uuids := h.drawn _ grant hget
  exact absurd (congrArg Prod.snd heq : grant.id = engine.uuids) hlt.ne

/-- The grant that a transfer makes joins the lineages of the one that is transferred. -/
lemma descends_transferred (hget : engine.grants.get grant.storeKey = some grant)
    (newHolderId : String) : Descends (link (engine.transferred grant newHolderId now)) o k ↔
      Descends (link engine) o k ∨
        (k = (engine.successor grant newHolderId now).storeKey ∧
          Descends (link engine) o grant.storeKey) := by
  rw [link_transferred hget]
  exact descends_update_child (h.unused _ rfl) (h.storeKey_ne_successor hget newHolderId)

/-- The other grants of a lineage stay as they are when one is transferred. -/
lemma get_transferred (hk : Descends (link engine) o k) (hne : k ≠ grant.storeKey)
    (newHolderId : String) :
    (engine.transferred grant newHolderId now).grants.get k = engine.grants.get k := by
  have hn : k ≠ (engine.successor grant newHolderId now).storeKey := fun heq =>
    absurd (h.lt_of_descends (heq ▸ hk)) (Nat.lt_irrefl _)
  refine (Store.get_save ..).trans ((if_neg hn).trans ?_)
  exact (Store.get_save ..).trans (if_neg hne)

/-- **A grant is transferred** that is not revoked, or has expired: its lineage goes on. -/
theorem transferred (hget : engine.grants.get grant.storeKey = some grant) (newHolderId : String)
    (hrevives : grant.revoked = true → grant.isExpired now = true) :
    LineageSound (engine.transferred grant newHolderId now) ended now := by
  have hlt : grant.id < engine.uuids := h.drawn _ grant hget
  let n := (engine.successor grant newHolderId now).storeKey
  have hdesc : ∀ {o k}, Descends (link (engine.transferred grant newHolderId now)) o k ↔
      Descends (link engine) o k ∨ (k = n ∧ Descends (link engine) o grant.storeKey) :=
    h.descends_transferred hget newHolderId
  -- what is in a lineage afterwards expires with what was in it before
  have hbefore : ∀ {o k found}, Descends (link (engine.transferred grant newHolderId now)) o k →
      (engine.transferred grant newHolderId now).grants.get k = some found →
      ∃ k' before, Descends (link engine) o k' ∧ engine.grants.get k' = some before ∧
        found.expiresAt = before.expiresAt := by
    intro o k found hk hfound
    rcases of_get_transferred hget hfound with ⟨rfl, rfl⟩ | ⟨hkn, before, hbefore, same⟩
    · rcases hdesc.mp hk with hk | ⟨-, hk⟩
      · exact absurd (h.lt_of_descends hk) (Nat.lt_irrefl _)
      · exact ⟨_, grant, hk, hget, rfl⟩
    · refine ⟨k, before, ?_, hbefore, same.expiresAt⟩
      exact (hdesc.mp hk).resolve_right fun hnew => hkn hnew.1
  refine ⟨h.drawn.transferred hget newHolderId now, ?linked, ?ended_lt, ?rooted, ?expiry, ?holder,
    ?gone, ?held⟩
  case linked =>
    intro k found p hfound hp
    refine lt_trans ?_ (Nat.lt_succ_self engine.uuids)
    rcases of_get_transferred hget hfound with ⟨rfl, rfl⟩ | ⟨-, before, hbefore, same⟩
    · exact Option.some.inj hp ▸ hlt
    · exact h.linked k before p hbefore (same.transferredFrom ▸ hp)
  case ended_lt => exact fun o ho => (h.ended_lt o ho).trans (Nat.lt_succ_self _)
  case rooted =>
    intro k found hfound
    rcases of_get_transferred hget hfound with ⟨rfl, -⟩ | ⟨-, before, hbefore, -⟩
    · obtain ⟨o, ho⟩ := h.rooted _ grant hget
      exact ⟨o, hdesc.mpr (Or.inr ⟨rfl, ho⟩)⟩
    · obtain ⟨o, ho⟩ := h.rooted k before hbefore
      exact ⟨o, hdesc.mpr (Or.inl ho)⟩
  case expiry =>
    intro o k k' found found' hk hk' hfound hfound'
    obtain ⟨j, before, hj, hget, hexpires⟩ := hbefore hk hfound
    obtain ⟨j', before', hj', hget', hexpires'⟩ := hbefore hk' hfound'
    rw [hexpires, hexpires', h.expiry o j j' before before' hj hj' hget hget']
  case holder =>
    intro o k found hk hfound hactive k' hk'
    rcases of_get_transferred hget hfound with ⟨rfl, rfl⟩ | ⟨hkn, before, hbefore, same⟩
    · rcases hdesc.mp hk' with hk' | ⟨rfl, -⟩
      · exact (h.lt_of_descends hk').le
      · exact le_rfl
    · obtain ⟨hactive, hk0⟩ := same.isActive hactive
      have hk := (hdesc.mp hk).resolve_right fun hnew => hkn hnew.1
      rcases hdesc.mp hk' with hk' | ⟨-, hdesc0⟩
      · exact h.holder o k before hk hbefore hactive k' hk'
      · -- the grant that was transferred was active as well
        have hexpired : grant.isExpired now = false := by
          rw [LicenseGrant.isExpired, h.expiry o _ k grant before hdesc0 hk hget hbefore]
          exact (isActive_iff.mp hactive).2
        have hrevoked : grant.revoked = false := by
          by_contra hrevoked
          rw [hrevives (Bool.not_eq_false _ ▸ hrevoked)] at hexpired
          cases hexpired
        exact absurd (h.single hk hdesc0 hbefore hget hactive (isActive_iff.mpr ⟨hrevoked, hexpired⟩)) hk0
  case gone =>
    intro o ho k found hk hfound
    rcases of_get_transferred hget hfound with ⟨rfl, rfl⟩ | ⟨hkn, before, hbefore, same⟩
    · rcases hdesc.mp hk with hk | ⟨-, hk⟩
      · exact absurd (h.lt_of_descends hk) (Nat.lt_irrefl _)
      · have hgone := isActive_eq_false_iff.mp (h.gone o ho _ grant hk hget)
        exact isActive_eq_false_iff.mpr (Or.inr (hgone.elim hrevives id))
    · have hk := (hdesc.mp hk).resolve_right fun hnew => hkn hnew.1
      by_contra hactive
      have hactive := (same.isActive (Bool.not_eq_false _ ▸ hactive)).1
      exact Bool.false_ne_true ((h.gone o ho k before hk hbefore).symm.trans hactive)
  case held =>
    intro o k found hk hfound hexpired
    by_cases hdesc0 : Descends (link engine) o grant.storeKey
    · exact Or.inr ⟨n, _, hdesc.mpr (Or.inr ⟨rfl, hdesc0⟩), Store.get_save_self .., rfl⟩
    · have hk := (hdesc.mp hk).resolve_right fun hnew => hdesc0 hnew.2
      have hkn : k ≠ n := fun heq => absurd (h.lt_of_descends (heq ▸ hk)) (Nat.lt_irrefl _)
      obtain ⟨-, before, hbefore, same⟩ := (of_get_transferred hget hfound).resolve_left fun hnew =>
        hkn hnew.1
      rw [same.isExpired] at hexpired
      rcases h.held o k before hk hbefore hexpired with ho | ⟨k', before', hk', hbefore', hrevoked⟩
      · exact Or.inl ho
      · have hk0' : k' ≠ grant.storeKey := fun heq => hdesc0 (heq ▸ hk')
        exact Or.inr ⟨k', before', hdesc.mpr (Or.inl hk'),
          (h.get_transferred hk' hk0' newHolderId).trans hbefore', hrevoked⟩

end LineageSound

/-! ### One operation -/

lemma lineageSound_start (sign : String → String) (clock : ℤ) :
    LineageSound (LicenseState.start sign clock).engine ∅ clock where
  drawn _ _ h := by cases h
  linked _ _ _ h := by cases h
  ended_lt _ h := h.elim
  rooted _ _ h := by cases h
  expiry _ _ _ _ _ _ _ h := by cases h
  holder _ _ _ _ h := by cases h
  gone _ h := h.elim
  held _ _ _ _ h := by cases h

namespace WatchedLicenses

variable {w : WatchedLicenses}

/-- The invariant of disciplined runs. -/
def Sound (w : WatchedLicenses) : Prop := LineageSound w.state.engine w.ended w.state.clock

lemma Sound.oneHolder (h : w.Sound) : OneHolder w where
  single _ _ _ _ _ hk hk' hget hget' := h.single hk hk' hget hget'
  gone := h.gone

/-- A lineage that has ended before an operation has ended after it. -/
lemma mem_recorded (ho : o ∈ w.ended) (op : LicenseOperation) : o ∈ w.recorded op := Or.inl ho

/-- No lineage ends where no grant is revoked. -/
lemma recorded_eq (hop : ∀ firmId grantId, op.Ends firmId grantId →
    w.state.engine.grants.get (firmId, grantId) = none) : w.recorded op = w.ended := by
  refine Set.Subset.antisymm ?_ fun o ho => mem_recorded ho op
  rintro o (ho | ⟨firmId, grantId, hends, hlast, -⟩)
  · exact ho
  · obtain ⟨grant, hget⟩ := get_of_descends hlast
    rw [hop firmId grantId hends] at hget
    cases hget

lemma recorded_revoked (hop : op.Ends grant.firmId grant.id) :
    w.recorded op = {o | o ∈ w.ended ∨ LastOf w.state.engine o grant.storeKey} := by
  have hkey : ∀ {firmId grantId}, op.Ends firmId grantId → (firmId, grantId) = grant.storeKey := by
    intro firmId grantId hends
    cases op with
    | revoke _ _ | checkinFloating _ _ =>
      obtain ⟨rfl, rfl⟩ := hends
      obtain ⟨hfirm, hid⟩ := hop
      rw [hfirm, hid]
      rfl
    | _ => exact hends.elim
  ext o
  constructor
  · rintro (ho | ⟨firmId, grantId, hends, hlast⟩)
    · exact Or.inl ho
    · exact Or.inr (hkey hends ▸ hlast)
  · rintro (ho | hlast)
    · exact Or.inl ho
    · exact Or.inr ⟨grant.firmId, grant.id, hop, hlast⟩

/-- **One disciplined operation.**  The invariant is kept. -/
theorem Sound.step (h : w.Sound) (hrevives : RevivesNothing w op) : (w.step op).Sound := by
  suffices hbefore : LineageSound (w.state.after op) (w.recorded op) w.state.clock from
    hbefore.later (clock_le_step w.state op)
  have heffect := effect_after w.state op
  generalize w.state.after op = engine' at heffect ⊢
  cases heffect with
  | none op hop =>
    rw [recorded_eq hop]
    exact h
  | made op grant hop hid hanew hrevoked hseat =>
    rw [recorded_eq fun firmId grantId hends => absurd hends (hop firmId grantId)]
    exact LineageSound.made h hid hanew hrevoked
  | revoked op grant hget hop =>
    rw [recorded_revoked hop]
    exact LineageSound.revoked h hget
  | transferred grant newHolderId hget =>
    have hrecorded : w.recorded (.transfer grant.firmId grant.id newHolderId) = w.ended :=
      recorded_eq fun _ _ hends => False.elim hends
    rw [hrecorded]
    exact LineageSound.transferred h hget newHolderId (hrevives grant hget)
  | capacity firmId totalSeats =>
    have hrecorded : w.recorded (.setFloatingPoolCapacity firmId totalSeats) = w.ended :=
      recorded_eq fun _ _ hends => False.elim hends
    rw [hrecorded]
    exact { h with }

/-- **One operation.**  Where the invariant holds, an operation leaves at most one grant of each lineage
active, and none of one that has ended, iff it meets its condition. -/
theorem oneHolder_step_iff (h : w.Sound) : OneHolder (w.step op) ↔ RevivesNothing w op := by
  refine ⟨fun hafter => ?_, fun hrevives => (h.step hrevives).oneHolder⟩
  cases op with
  | transfer firmId grantId newHolderId =>
    intro grant hget hrevoked
    obtain ⟨rfl, rfl⟩ := key_of_grant hget
    by_contra hexpired
    rw [Bool.not_eq_true] at hexpired
    have hstate : (w.step (.transfer grant.firmId grant.id newHolderId)).state =
        ⟨w.state.engine.transferred grant newHolderId w.state.clock, w.state.clock⟩ :=
      congrArg (LicenseState.mk · w.state.clock) (after_transfer hget newHolderId)
    obtain ⟨hsingle, hgone⟩ := hafter
    rw [hstate] at hsingle hgone
    -- the new grant is active, in the lineages of the one that is transferred
    obtain ⟨o, ho⟩ := LineageSound.rooted h _ grant hget
    have hnew : Descends (link (w.state.engine.transferred grant newHolderId w.state.clock)) o _ :=
      (LineageSound.descends_transferred h hget newHolderId).mpr (Or.inr ⟨rfl, ho⟩)
    have hactive : (w.state.engine.successor grant newHolderId w.state.clock).isActive
        w.state.clock = true := isActive_iff.mpr ⟨rfl, hexpired⟩
    have hgetNew : (w.state.engine.transferred grant newHolderId w.state.clock).grants.get
        (w.state.engine.successor grant newHolderId w.state.clock).storeKey = some _ :=
      Store.get_save_self ..
    rcases LineageSound.held h o _ grant ho hget hexpired with
      hended | ⟨k', before, hk', hbefore, hunrevoked⟩
    · have hinactive := hgone o (mem_recorded hended _) _ _ hnew hgetNew
      rw [hactive] at hinactive
      cases hinactive
    · have hne : k' ≠ grant.storeKey := by
        rintro rfl
        obtain rfl := Option.some.inj (hbefore.symm.trans hget)
        rw [hrevoked] at hunrevoked
        cases hunrevoked
      have hexpired' : before.isExpired w.state.clock = false := by
        rw [LicenseGrant.isExpired, LineageSound.expiry h o k' _ before grant hk' ho hbefore hget]
        exact hexpired
      have heq := hsingle o k' _ before _
        ((LineageSound.descends_transferred h hget newHolderId).mpr (Or.inl hk')) hnew
        ((LineageSound.get_transferred h hk' hne newHolderId).trans hbefore) hgetNew
        (isActive_iff.mpr ⟨hunrevoked, hexpired'⟩) hactive
      exact absurd (LineageSound.lt_of_descends h (heq ▸ hk')) (Nat.lt_irrefl _)
  | _ => trivial

end WatchedLicenses

/-- **One holder, exactly.**  In every state that a run reaches at most one grant of each lineage is
active, and none of a lineage whose last holder gave it back, iff no grant that is revoked but not
expired is transferred. -/
theorem along_oneHolder_iff (sign : String → String) (clock : ℤ) (ops : List LicenseOperation) :
    Along WatchedLicenses.step (fun w op => OneHolder (w.step op)) ⟨.start sign clock, ∅⟩ ops ↔
      Along WatchedLicenses.step RevivesNothing ⟨.start sign clock, ∅⟩ ops :=
  along_congr (I := WatchedLicenses.Sound) (lineageSound_start sign clock)
    (fun _ _ h hrevives => h.step hrevives) (fun _ _ h => WatchedLicenses.oneHolder_step_iff h)

/-! ### A license that is held twice -/

/-- A license is assigned, transferred, and transferred again by the one who had it first. -/
def transferredByTheFirst : List LicenseOperation :=
  [.assign "firm-1" .nominative "user-1" 30,
    .transfer "firm-1" 0 "user-2",
    .transfer "firm-1" 0 "user-3"]

/-- The other two both hold it. -/
theorem license_held_twice :
    ¬ Along WatchedLicenses.step (fun w op => OneHolder (w.step op)) ⟨.start id 0, ∅⟩
      transferredByTheFirst := by
  rintro ⟨-, -, hone, -⟩
  let s := run LicenseState.step (.start id 0) transferredByTheFirst
  have hlink : link s.engine ("firm-1", 0) = some none ∧
      link s.engine ("firm-1", 1) = some (some ("firm-1", 0)) ∧
      link s.engine ("firm-1", 2) = some (some ("firm-1", 0)) := by decide +kernel
  have hactive : ((s.engine.grants.get ("firm-1", 1)).map (·.isActive s.clock) = some true) ∧
      ((s.engine.grants.get ("firm-1", 2)).map (·.isActive s.clock) = some true) := by decide +kernel
  obtain ⟨grant, hget, hheld⟩ := Option.map_eq_some_iff.mp hactive.1
  obtain ⟨grant', hget', hheld'⟩ := Option.map_eq_some_iff.mp hactive.2
  have heq := hone.single ("firm-1", 0) ("firm-1", 1) ("firm-1", 2) grant grant'
    (.child (.origin hlink.1) hlink.2.1) (.child (.origin hlink.1) hlink.2.2) hget hget' hheld hheld'
  exact absurd heq (by decide)

end Tmis.BusinessPlatform
