import Tmis.Core.Security
import Tmis.Lib.Run
import Tmis.Lib.Store

/-!
# Authorization codes

`identity_platform.oauth2`: the authorization code grant.  A client is registered with a secret and the
addresses it may be called back at; a code is issued for one of these, and exchanged for tokens.

* `OAuth2Engine` — clients and codes, and the three calls;
* `Grants`, `step` — an engine with what was registered, issued and exchanged so far;
* `Inv`, `inv_step` — the stores hold what was registered and issued, and codes are used when exchanged;
* `exchangeCode_cases` — what an exchange can do;
* `codes_singleUse` — over every sequence of calls.
-/

namespace Tmis.IdentityPlatform

open Tmis.Lib Tmis.Core.Security

/-- A registered client; `clientId` is the draw in `client-…`. -/
structure OAuth2Client where
  clientId : Uuid
  firmId : String
  redirectUris : List String
  clientSecretHash : String
  deriving DecidableEq

/-- An issued code, with the draw of `token_urlsafe` in the place of its text.  Times are in
microseconds. -/
structure AuthorizationCodeRecord where
  code : Uuid
  clientId : Uuid
  userId : String
  firmId : String
  redirectUri : String
  expiresAt : ℕ
  used : Bool := false
  deriving DecidableEq

/-- `new_authorization_code_expiry`: in five minutes. -/
def newAuthorizationCodeExpiry (now : ℕ) : ℕ := now + 5 * 60 * 10 ^ 6

structure TokenPair where
  accessToken : String
  refreshToken : String
  userId : String
  firmId : String
  tokenType : String := "Bearer"
  expiresIn : ℕ := 3600
  deriving DecidableEq

def oauth2Error (text : String) : PyException := ⟨"OAuth2Error", text⟩

/-- The engine with its in-memory stores; `uuids` counts the draws so far. -/
structure OAuth2Engine where
  clients : Store Uuid OAuth2Client OAuth2Client.clientId := ∅
  codes : Store Uuid AuthorizationCodeRecord AuthorizationCodeRecord.code := ∅
  uuids : ℕ := 0

/-- What the engine is deployed with: `sha256` is the hexadecimal digest of a text. -/
structure OAuth2Deployment where
  settings : Settings
  jwt : Jwt
  sha256 : String → String

/-- An exchange of a code, with the texts that are drawn for its tokens. -/
structure ExchangeRequest where
  clientId : Uuid
  clientSecret : String
  code : Uuid
  redirectUri : String
  now : ℕ
  jti : String := ""
  refreshToken : String := ""
  deriving DecidableEq

namespace OAuth2Engine

variable (d : OAuth2Deployment)

/-- `register_client`, with the secret that is drawn. -/
def registerClient (engine : OAuth2Engine) (firmId : String) (redirectUris : List String)
    (secret : String) : (OAuth2Client × String) × OAuth2Engine :=
  let client : OAuth2Client :=
    { clientId := engine.uuids, firmId, redirectUris, clientSecretHash := d.sha256 secret }
  ((client, secret), { engine with clients := engine.clients.save client, uuids := engine.uuids + 1 })

/-- The record of the code that is issued, if one is. -/
def issueAuthorizationCode (engine : OAuth2Engine) (clientId : Uuid) (userId firmId redirectUri : String)
    (now : ℕ) : Except PyException (AuthorizationCodeRecord × OAuth2Engine) :=
  match engine.clients.get clientId with
  | none => .error (oauth2Error "invalid_client_or_redirect_uri")
  | some client =>
      if redirectUri ∉ client.redirectUris then .error (oauth2Error "invalid_client_or_redirect_uri")
      else
        let record : AuthorizationCodeRecord :=
          { code := engine.uuids, clientId, userId, firmId, redirectUri
            expiresAt := newAuthorizationCodeExpiry now }
        .ok (record, { engine with codes := engine.codes.save record, uuids := engine.uuids + 1 })

/-- `create_access_token(record.user_id, {"firm_id": record.firm_id})`, and a refresh token. -/
def tokenPair (record : AuthorizationCodeRecord) (r : ExchangeRequest) : TokenPair where
  accessToken := createAccessToken d.settings d.jwt (r.now / 10 ^ 6) r.jti record.userId
    ((∅ : Claims).set "firm_id" (.text record.firmId))
  refreshToken := r.refreshToken
  userId := record.userId
  firmId := record.firmId

def exchangeCode (engine : OAuth2Engine) (r : ExchangeRequest) :
    Except PyException TokenPair × OAuth2Engine :=
  match engine.clients.get r.clientId with
  | none => (.error (oauth2Error "invalid_client"), engine)
  | some client =>
      if d.sha256 r.clientSecret ≠ client.clientSecretHash then
        (.error (oauth2Error "invalid_client"), engine)
      else match engine.codes.get r.code with
        | none => (.error (oauth2Error "invalid_grant"), engine)
        | some record =>
            if record.used ∨ record.clientId ≠ r.clientId ∨ record.redirectUri ≠ r.redirectUri ∨
                record.expiresAt < r.now then
              (.error (oauth2Error "invalid_grant"), engine)
            else
              (.ok (tokenPair d record r),
                { engine with codes := engine.codes.save { record with used := true } })

end OAuth2Engine

/-! ### Runs -/

/-- An engine, with the clients and secrets, the codes, and the exchanges that were answered with tokens
so far. -/
structure Grants where
  engine : OAuth2Engine := {}
  registered : List (OAuth2Client × String) := []
  issued : List AuthorizationCodeRecord := []
  exchanged : List (ExchangeRequest × TokenPair) := []

inductive GrantOperation where
  | registerClient (firmId : String) (redirectUris : List String) (secret : String)
  | issueAuthorizationCode (clientId : Uuid) (userId firmId redirectUri : String) (now : ℕ)
  | exchangeCode (request : ExchangeRequest)

namespace Grants

variable (d : OAuth2Deployment)

def step (s : Grants) : GrantOperation → Grants
  | .registerClient firmId redirectUris secret =>
      let (client, engine) := s.engine.registerClient d firmId redirectUris secret
      { s with engine, registered := s.registered ++ [client] }
  | .issueAuthorizationCode clientId userId firmId redirectUri now =>
      match s.engine.issueAuthorizationCode clientId userId firmId redirectUri now with
      | .error _ => s
      | .ok (record, engine) => { s with engine, issued := s.issued ++ [record] }
  | .exchangeCode request =>
      match s.engine.exchangeCode d request with
      | (.error _, engine) => { s with engine }
      | (.ok tokens, engine) => { s with engine, exchanged := s.exchanged ++ [(request, tokens)] }

end Grants

/-! ### Exchanges -/

section Exchange

variable {d : OAuth2Deployment} {engine : OAuth2Engine} {r : ExchangeRequest}

/-- The request presents what the code was issued for, in time. -/
structure ExchangeRequest.Matches (r : ExchangeRequest) (record : AuthorizationCodeRecord) : Prop where
  code : r.code = record.code
  clientId : r.clientId = record.clientId
  redirectUri : r.redirectUri = record.redirectUri
  inTime : r.now ≤ record.expiresAt

/-- **What an exchange can do**: it fails and changes nothing, or it presents a client with its secret and
an unused code of that client, which is used from then on. -/
theorem exchangeCode_cases (d : OAuth2Deployment) (engine : OAuth2Engine) (r : ExchangeRequest) :
    (∃ e, engine.exchangeCode d r = (.error e, engine)) ∨
    ∃ client record, engine.clients.get r.clientId = some client ∧
      d.sha256 r.clientSecret = client.clientSecretHash ∧ engine.codes.get r.code = some record ∧
      record.used = false ∧ r.Matches record ∧
      engine.exchangeCode d r = (.ok (OAuth2Engine.tokenPair d record r),
        { engine with codes := engine.codes.save { record with used := true } }) := by
  unfold OAuth2Engine.exchangeCode
  cases hclient : engine.clients.get r.clientId with
  | none => exact Or.inl ⟨_, rfl⟩
  | some client =>
    dsimp only
    split_ifs with hsecret
    · exact Or.inl ⟨_, rfl⟩
    · cases hcode : engine.codes.get r.code with
      | none => exact Or.inl ⟨_, rfl⟩
      | some record =>
        dsimp only
        split_ifs with hgrant
        · exact Or.inl ⟨_, rfl⟩
        · push Not at hgrant
          obtain ⟨hused, hid, huri, htime⟩ := hgrant
          exact Or.inr ⟨client, record, rfl, not_not.mp hsecret, rfl, Bool.not_eq_true _ ▸ hused,
            ⟨(Store.key_of_get hcode).symm, hid.symm, huri.symm, htime⟩, rfl⟩

/-- An exchange that presents all this is answered with tokens. -/
lemma exchangeCode_ok {client : OAuth2Client} (record : AuthorizationCodeRecord)
    (hclient : engine.clients.get r.clientId = some client)
    (hsecret : d.sha256 r.clientSecret = client.clientSecretHash)
    (hcode : engine.codes.get record.code = some record) (hused : record.used = false)
    (hmatches : r.Matches record) :
    (engine.exchangeCode d r).1 = .ok (OAuth2Engine.tokenPair d record r) := by
  obtain ⟨hid, hclientId, huri, htime⟩ := hmatches
  have hgrant : ¬ (record.used ∨ record.clientId ≠ r.clientId ∨ record.redirectUri ≠ r.redirectUri ∨
      record.expiresAt < r.now) := by
    simp [hused, hclientId, huri, htime]
  rw [OAuth2Engine.exchangeCode, hclient]
  dsimp only
  rw [if_neg (not_not.mpr hsecret), hid, hcode]
  dsimp only
  rw [if_neg hgrant]

end Exchange

/-! ### Codes are used once -/

namespace Grants

variable {d : OAuth2Deployment} {s : Grants}

/-- The request presents an issued code, and the client it was issued to with the digest of its secret,
and these are the tokens for the user. -/
def Entitled (d : OAuth2Deployment) (s : Grants) (e : ExchangeRequest × TokenPair) : Prop :=
  ∃ record ∈ s.issued, ∃ client secret, (client, secret) ∈ s.registered ∧
    client.clientId = record.clientId ∧ d.sha256 e.1.clientSecret = d.sha256 secret ∧
    e.1.Matches record ∧ e.2 = OAuth2Engine.tokenPair d record e.1

lemma Entitled.mono {s s' : Grants} {e : ExchangeRequest × TokenPair} (h : Entitled d s e)
    (hissued : s.issued ⊆ s'.issued) (hregistered : s.registered ⊆ s'.registered) : Entitled d s' e := by
  obtain ⟨record, hrecord, client, secret, hclient, hrest⟩ := h
  exact ⟨record, hissued hrecord, client, secret, hregistered hclient, hrest⟩

/-- The stores hold what was registered and issued, and the codes that are used are those that were
exchanged, each of them once. -/
structure Inv (d : OAuth2Deployment) (s : Grants) : Prop where
  clientsBelow : s.engine.clients.Below s.engine.uuids
  codesBelow : s.engine.codes.Below s.engine.uuids
  registered : ∀ client secret, (client, secret) ∈ s.registered →
    s.engine.clients.get client.clientId = some client ∧ client.clientSecretHash = d.sha256 secret
  clients : ∀ id client, s.engine.clients.get id = some client → ∃ secret, (client, secret) ∈ s.registered
  issued : ∀ record ∈ s.issued, ∃ used, s.engine.codes.get record.code = some { record with used }
  codes : ∀ code record, s.engine.codes.get code = some record → { record with used := false } ∈ s.issued
  used : ∀ code record, s.engine.codes.get code = some record →
    (record.used = true ↔ ∃ e ∈ s.exchanged, e.1.code = code)
  exchanged : ∀ e ∈ s.exchanged, Entitled d s e
  once : (s.exchanged.map fun e => e.1.code).Nodup

lemma inv_empty (d : OAuth2Deployment) : Inv d {} where
  clientsBelow := Store.below_empty _
  codesBelow := Store.below_empty _
  registered _ _ h := absurd h List.not_mem_nil
  clients _ _ h := nomatch h
  issued _ h := absurd h List.not_mem_nil
  codes _ _ h := nomatch h
  used _ _ h := nomatch h
  exchanged _ h := absurd h List.not_mem_nil
  once := List.nodup_nil

lemma inv_registerClient (h : Inv d s) (firmId : String) (redirectUris : List String) (secret : String) :
    Inv d (s.step d (.registerClient firmId redirectUris secret)) where
  clientsBelow := (h.clientsBelow.mono (Nat.le_succ _)).save (Nat.lt_succ_self _)
  codesBelow := h.codesBelow.mono (Nat.le_succ _)
  registered client secret' hmem := by
    rcases List.mem_append.mp hmem with hold | hnew
    · obtain ⟨hget, hhash⟩ := h.registered client secret' hold
      have hne : client.clientId ≠ s.engine.uuids := (h.clientsBelow _ _ hget).ne
      refine ⟨?_, hhash⟩
      simp only [step, OAuth2Engine.registerClient, Store.get_save]
      rw [if_neg hne, hget]
    · obtain ⟨rfl, rfl⟩ := Prod.mk.inj (List.mem_singleton.mp hnew)
      exact ⟨Store.get_save_self .., rfl⟩
  clients id client hget := by
    rcases Store.of_get_save hget with rfl | hget
    · exact ⟨secret, List.mem_append_right _ (List.mem_singleton_self _)⟩
    · obtain ⟨secret', hmem⟩ := h.clients id client hget
      exact ⟨secret', List.mem_append_left _ hmem⟩
  issued := h.issued
  codes := h.codes
  used := h.used
  exchanged e he := (h.exchanged e he).mono (List.Subset.refl _) (List.subset_append_left ..)
  once := h.once

/-- A code is issued under a new draw, unused. -/
lemma inv_issueAuthorizationCode (h : Inv d s) (clientId : Uuid) (userId firmId redirectUri : String)
    (now : ℕ) : Inv d (s.step d (.issueAuthorizationCode clientId userId firmId redirectUri now)) := by
  have hfree : s.engine.codes.get s.engine.uuids = none := h.codesBelow.get_eq_none le_rfl
  simp only [step, OAuth2Engine.issueAuthorizationCode]
  cases hclient : s.engine.clients.get clientId with
  | none => exact h
  | some client =>
    dsimp only
    split_ifs with huri
    · refine ⟨h.clientsBelow.mono (Nat.le_succ _),
        (h.codesBelow.mono (Nat.le_succ _)).save (Nat.lt_succ_self _), h.registered, h.clients, ?_, ?_, ?_,
        fun e he => (h.exchanged e he).mono (List.subset_append_left ..) (List.Subset.refl _), h.once⟩
      · intro record hrecord
        rcases List.mem_append.mp hrecord with hold | hnew
        · obtain ⟨used, hget⟩ := h.issued record hold
          refine ⟨used, ?_⟩
          rw [Store.get_save, if_neg (h.codesBelow _ _ hget).ne, hget]
        · obtain rfl := List.mem_singleton.mp hnew
          exact ⟨false, Store.get_save_self ..⟩
      · intro code record hget
        rcases Store.of_get_save hget with rfl | hget
        · exact List.mem_append_right _ (List.mem_singleton_self _)
        · exact List.mem_append_left _ (h.codes code record hget)
      · intro code record hget
        rcases Store.get_save_cases hget with ⟨rfl, rfl⟩ | ⟨-, hget⟩
        · refine iff_of_false Bool.false_ne_true ?_
          -- What was exchanged is in the store, and nothing is under a new draw.
          rintro ⟨e, he, hcode⟩
          obtain ⟨record, hrecord, -, -, -, -, -, hmatches, -⟩ := h.exchanged e he
          obtain ⟨used, hstored⟩ := h.issued record hrecord
          rw [← hmatches.code, hcode] at hstored
          exact nomatch hfree.symm.trans hstored
        · exact h.used code record hget
    · exact h

lemma inv_exchangeCode (h : Inv d s) (r : ExchangeRequest) : Inv d (s.step d (.exchangeCode r)) := by
  simp only [step]
  rcases exchangeCode_cases d s.engine r with ⟨e, hfail⟩ | ⟨client, record, hclient, hsecret, hcode, hused,
    hmatches, hok⟩
  · rw [hfail]
    exact h
  · rw [hok]
    have hkey : record.code = r.code := Store.key_of_get hcode
    have hunused : ¬ ∃ e ∈ s.exchanged, e.1.code = r.code := by
      rw [← h.used _ _ hcode, hused]
      exact Bool.false_ne_true
    have hissued : record ∈ s.issued := by
      have hmem := h.codes _ _ hcode
      rwa [← hused] at hmem
    refine ⟨h.clientsBelow, h.codesBelow.save (by rw [hkey]; exact h.codesBelow _ _ hcode), h.registered,
      h.clients, ?_, ?_, ?_, ?_, ?_⟩
    · intro record' hrecord'
      obtain ⟨used, hget⟩ := h.issued record' hrecord'
      rw [Store.get_save]
      split_ifs with heq
      · have hstored := (congrArg s.engine.codes.get (heq.trans hkey)).symm.trans hget
        obtain rfl := Option.some.inj (hcode.symm.trans hstored)
        exact ⟨true, rfl⟩
      · exact ⟨used, hget⟩
    · intro code record' hget
      rcases Store.of_get_save hget with rfl | hget
      · have hmem := h.codes _ _ hcode
        exact hmem
      · exact h.codes code record' hget
    · intro code record' hget
      rcases Store.get_save_cases hget with ⟨rfl, rfl⟩ | ⟨hne, hget⟩
      · exact iff_of_true rfl ⟨_, List.mem_append_right _ (List.mem_singleton_self _), hkey.symm⟩
      · rw [h.used code record' hget]
        constructor
        · rintro ⟨e, he, hcode'⟩
          exact ⟨e, List.mem_append_left _ he, hcode'⟩
        · rintro ⟨e, he, hcode'⟩
          rcases List.mem_append.mp he with hold | hnew
          · exact ⟨e, hold, hcode'⟩
          · obtain rfl := List.mem_singleton.mp hnew
            exact absurd (hcode'.symm.trans hkey.symm) hne
    · intro e he
      rcases List.mem_append.mp he with hold | hnew
      · exact h.exchanged e hold
      · obtain rfl := List.mem_singleton.mp hnew
        obtain ⟨secret, hregistered⟩ := h.clients _ _ hclient
        refine ⟨record, hissued, client, secret, hregistered, ?_, ?_, hmatches, rfl⟩
        · exact (Store.key_of_get hclient).trans hmatches.clientId
        · exact hsecret.trans (h.registered _ _ hregistered).2
    · rw [List.map_append, List.nodup_append]
      refine ⟨h.once, List.nodup_singleton _, ?_⟩
      intro code hold code' hnew heq
      obtain ⟨e, he, hcode'⟩ := List.mem_map.mp hold
      exact hunused ⟨e, he, hcode'.trans (heq.trans (List.mem_singleton.mp hnew))⟩

/-- **The step lemma.** -/
theorem inv_step (h : Inv d s) (op : GrantOperation) : Inv d (s.step d op) := by
  cases op with
  | registerClient firmId redirectUris secret => exact inv_registerClient h firmId redirectUris secret
  | issueAuthorizationCode clientId userId firmId redirectUri now =>
      exact inv_issueAuthorizationCode h clientId userId firmId redirectUri now
  | exchangeCode r => exact inv_exchangeCode h r

/-- **Authorization codes are used once**, and for what they were issued for: after any calls with any
arguments at any times, each code was exchanged once at most, by a request that presented its client with
the digest of the secret and its address, before it expired; an exchange that fails changes nothing; and a
code that was not exchanged is answered with tokens for its user when all this is presented. -/
theorem codes_singleUse (d : OAuth2Deployment) (ops : List GrantOperation) :
    (∀ code, ((run (step d) {} ops).exchanged.filter fun e => e.1.code = code).length ≤ 1) ∧
    (∀ e ∈ (run (step d) {} ops).exchanged, Entitled d (run (step d) {} ops) e) ∧
    (∀ r e, ((run (step d) {} ops).engine.exchangeCode d r).1 = .error e →
      ((run (step d) {} ops).engine.exchangeCode d r).2 = (run (step d) {} ops).engine) ∧
    ∀ record ∈ (run (step d) {} ops).issued,
      (∀ e ∈ (run (step d) {} ops).exchanged, e.1.code ≠ record.code) →
      ∀ client secret, (client, secret) ∈ (run (step d) {} ops).registered →
        ∀ r : ExchangeRequest, r.clientId = client.clientId → r.clientSecret = secret →
          r.Matches record →
          ((run (step d) {} ops).engine.exchangeCode d r).1 = .ok (OAuth2Engine.tokenPair d record r) := by
  have hinv : Inv d (run (step d) {} ops) := run_inv ops (inv_empty d) fun s op hs => inv_step hs op
  refine ⟨fun code => ?_, hinv.exchanged, fun r e herror => ?_, ?_⟩
  · have hcount := List.nodup_iff_count_le_one.mp hinv.once code
    rwa [List.count_eq_countP, List.countP_map, List.countP_eq_length_filter] at hcount
  · rcases exchangeCode_cases d (run (step d) {} ops).engine r with ⟨e', hfail⟩ | ⟨_, _, _, _, _, _, _, hok⟩
    · rw [hfail]
    · rw [hok] at herror
      cases herror
  · rintro record hrecord hnew client secret hregistered r hclientId rfl hmatches
    obtain ⟨hclient, hhash⟩ := hinv.registered client _ hregistered
    obtain ⟨used, hget⟩ := hinv.issued record hrecord
    have hunused : used = false := by
      rw [← Bool.not_eq_true]
      intro hused
      obtain ⟨e, he, hcode⟩ := (hinv.used _ _ hget).mp hused
      exact hnew e he hcode
    subst hunused
    exact exchangeCode_ok { record with used := false } (hclientId ▸ hclient) hhash.symm hget rfl
      ⟨hmatches.code, hmatches.clientId, hmatches.redirectUri, hmatches.inTime⟩

end Grants

end Tmis.IdentityPlatform
