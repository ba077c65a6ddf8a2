/-
  PredictIQ.Idempotency.Owners: whom a replayed response belongs to.

  A response is replayed to a request that has the key and the user id of the
  one it was cached for.  `Mistaken` names the ways in which two requests have
  both and are still not the same caller's on the same path: `Authorization`
  values that differ behind their first 32 characters, credentials in headers
  that cannot be read as text, and a path that goes on with `:` where the other
  ends.  `replayed_to_owner_iff` says that there is no other, in any run.
-/
import PredictIQ.Foundation.Utf16
import PredictIQ.Idempotency.Middleware

namespace PredictIQ.Idempotency

open Foundation Cache

/-! ## §1. User ids. -/

section Identities

variable {K : Crates} {cfg : IdempotencyConfig K.network} {i j : Identity}

theorem isSeparator_colon : IsSeparator ":" ':' := rfl

theorem isSeparator_bar : IsSeparator "|" '|' := rfl

/-- The address of a client has no bar in it. -/
def Identity.Plain : Identity → Prop
  | .client ip _ => '|' ∉ ip.toList
  | _ => True

theorem identity_plain (cfg : IdempotencyConfig K.network) (req : Request K.network.Addr) : (req.identity cfg).Plain := by
  have hsocket : '|' ∉ ((req.connectInfo.map K.network.toString).getD "unknown").toList := by
    cases req.connectInfo with
    | none =>
        show '|' ∉ "unknown".toList
        decide
    | some ip => exact K.network.toString_plain ip
  have hip : '|' ∉ (extractClientIp cfg req).toList := by
    unfold extractClientIp
    dsimp only
    generalize Option.or _ _ = found
    generalize (if cfg.trustedProxyCidrs.isEmpty = true then cfg.trustProxy else _) = proxyTrusted
    split
    · cases found with
      | none => exact hsocket
      | some ip => exact K.network.toString_plain ip
    · exact hsocket
  unfold Request.identity
  split <;> trivial

/-- Two `Authorization` values that agree as far as they are looked at. -/
def Identity.Clipped (i j : Identity) : Prop :=
  ∃ s t, i = .authorization s ∧ j = .authorization t ∧ s ≠ t ∧ s.toList.take 32 = t.toList.take 32

/-- Two callers of one user id. -/
def Identity.Alike (i j : Identity) : Prop := i = j ∨ i.Clipped j

theorem Identity.Alike.symm (h : i.Alike j) : j.Alike i := by
  rcases h with rfl | ⟨s, t, hi, hj, hne, htake⟩
  · exact .inl rfl
  · exact .inr ⟨t, s, hj, hi, hne.symm, htake.symm⟩

/-- Where the forms of user ids begin. -/
theorem kind_ne {s t a b : String} (h : (s.toList.take 2) ≠ (t.toList.take 2)) (hs : 2 ≤ s.toList.length)
    (ht : 2 ≤ t.toList.length) : s ++ a ≠ t ++ b := by
  intro heq
  have htake := congrArg (fun x : String => x.toList.take 2) heq
  simp only [String.toList_append] at htake
  rw [List.take_append_of_le_length hs, List.take_append_of_le_length ht] at htake
  exact h htake

theorem ofList_injective : Function.Injective String.ofList := fun l l' h => by
  rw [← String.toList_ofList (l := l), h, String.toList_ofList]

theorem append_left_injective (s : String) : Function.Injective (s ++ ·) := fun a b h => by
  have hlist := congrArg String.toList h
  simp only [String.toList_append, List.append_cancel_left_eq, String.toList_inj] at hlist
  exact hlist

/-- **User ids** of two callers are equal if the callers are, or by a clip. -/
theorem toUserId_eq_iff (hi : i.Plain) (hj : j.Plain) : i.toUserId K = j.toUserId K ↔ i.Alike j := by
  constructor
  · intro h
    cases i with
    | apiKey key =>
        cases j with
        | apiKey key' => exact .inl (congrArg _ (K.sha256Hex_injective (append_left_injective "api:" h)))
        | authorization value => exact absurd h (kind_ne (by decide) (by decide) (by decide))
        | client ip userAgent => exact absurd h (kind_ne (by decide) (by decide) (by decide))
    | authorization value =>
        cases j with
        | apiKey key => exact absurd h (kind_ne (by decide) (by decide) (by decide))
        | authorization value' =>
            have htake := ofList_injective (append_left_injective "auth:" h)
            by_cases hsame : value = value'
            · exact .inl (congrArg _ hsame)
            · exact .inr ⟨value, value', rfl, rfl, hsame, htake⟩
        | client ip userAgent => exact absurd h (kind_ne (by decide) (by decide) (by decide))
    | client ip userAgent =>
        cases j with
        | apiKey key => exact absurd h (kind_ne (by decide) (by decide) (by decide))
        | authorization value => exact absurd h (kind_ne (by decide) (by decide) (by decide))
        | client ip' userAgent' =>
            have hjoined := K.sha256Hex_injective (append_left_injective "anon:" h)
            obtain ⟨rfl, rfl⟩ := joined_inj isSeparator_bar hi hj hjoined
            exact .inl rfl
  · rintro (rfl | ⟨s, t, rfl, rfl, -, htake⟩)
    · rfl
    · exact congrArg (fun l => "auth:" ++ String.ofList l) htake

end Identities

/-! ## §2. Requests that are taken for one another. -/

section Requests

variable {K : Crates} {cfg : IdempotencyConfig K.network} {r₁ r₂ : Request K.network.Addr} {raw₁ raw₂ : String}

/-- A header that is read as text is known by its text. -/
theorem toStr_inj {v w : HeaderValue} {s : String} (hv : toStr v = some s) (hw : toStr w = some s) : v = w := by
  have hbytes : ∀ {x : HeaderValue}, toStr x = some s → s.toList.map Char.toNat = x.map UInt8.toNat := by
    intro x hx
    unfold toStr at hx
    split at hx
    · cases hx
      rw [String.toList_ofList, List.map_map]
      refine List.map_congr_left fun b _ => Utf16.toNat_ofNat_of_isValidChar (.inl ?_)
      exact b.toNat_lt.trans (by decide)
    · cases hx
  exact List.map_injective_iff.mpr (fun _ _ h => UInt8.toNat_inj.mp h) ((hbytes hv).symm.trans (hbytes hw))

/-- What a caller is told by: a whole header, or the address with the `User-Agent`. -/
inductive Credential where
  | apiKey (value : HeaderValue)
  | authorization (value : HeaderValue)
  | client (ip : String) (userAgent : Option HeaderValue)
  deriving DecidableEq

def Request.credential (cfg : IdempotencyConfig K.network) (req : Request K.network.Addr) : Credential :=
  match req.xApiKey, req.authorization with
  | some value, _ => .apiKey value
  | none, some value => .authorization value
  | none, none => .client (extractClientIp cfg req) req.userAgent

/-- A header that is absent, or not of visible ASCII. -/
def Unread (v : Option HeaderValue) : Prop := v.bind toStr = none

theorem Unread.of_none {v : Option HeaderValue} (h : v = none) : Unread v := by
  rw [h]
  rfl

/-- Two requests whose credentials differ where the middleware does not look. -/
inductive Confused {Addr : Type} (r₁ r₂ : Request Addr) : Prop where
  | clipped (v w s t) (hkey₁ : r₁.xApiKey = none) (hkey₂ : r₂.xApiKey = none) (hv : r₁.authorization = some v)
      (hw : r₂.authorization = some w) (hs : toStr v = some s) (ht : toStr w = some t) (hne : s ≠ t)
      (htake : s.toList.take 32 = t.toList.take 32)
  | apiKey (hne : r₁.xApiKey ≠ r₂.xApiKey) (h₁ : Unread r₁.xApiKey) (h₂ : Unread r₂.xApiKey)
  | authorization (hkey₁ : r₁.xApiKey = none) (hkey₂ : r₂.xApiKey = none) (hne : r₁.authorization ≠ r₂.authorization)
      (h₁ : Unread r₁.authorization) (h₂ : Unread r₂.authorization)
  | userAgent (hkey₁ : r₁.xApiKey = none) (hkey₂ : r₂.xApiKey = none) (hauth₁ : r₁.authorization = none)
      (hauth₂ : r₂.authorization = none) (hne : r₁.userAgent ≠ r₂.userAgent)
      (h₁ : Unread r₁.userAgent ∨ r₁.userAgent = some []) (h₂ : Unread r₂.userAgent ∨ r₂.userAgent = some [])

variable (cfg) in
/-- Two requests that carry one credential, one path and one key. -/
structure SameSender (r₁ r₂ : Request K.network.Addr) : Prop where
  credential : r₁.credential cfg = r₂.credential cfg
  path : r₁.path = r₂.path
  rawKey : r₁.rawKey = r₂.rawKey

/-- Two callers that are confused, or two paths one of which goes on with a
colon where the other ends. -/
def Mistaken {Addr : Type} (r₁ r₂ : Request Addr) : Prop :=
  Confused r₁ r₂ ∨ Continues ":" r₁.path r₂.path ∨ Continues ":" r₂.path r₁.path

/-- What is read of a key is the key, or it is of no text. -/
theorem bind_toStr_inj {v w : Option HeaderValue} {s : String} (hv : v.bind toStr = some s)
    (hw : w.bind toStr = some s) : v = w := by
  obtain ⟨x, rfl, hx⟩ := Option.bind_eq_some_iff.mp hv
  obtain ⟨y, rfl, hy⟩ := Option.bind_eq_some_iff.mp hw
  exact congrArg some (toStr_inj hx hy)

theorem identity_apiKey {req : Request K.network.Addr} {key : String} (h : req.xApiKey.bind toStr = some key) :
    req.identity cfg = .apiKey key := by
  unfold Request.identity
  rw [h]

theorem identity_authorization {req : Request K.network.Addr} {value : String} (hkey : Unread req.xApiKey)
    (h : req.authorization.bind toStr = some value) : req.identity cfg = .authorization value := by
  unfold Request.identity
  rw [hkey, h]

theorem identity_client {req : Request K.network.Addr} (hkey : Unread req.xApiKey) (h : Unread req.authorization) :
    req.identity cfg = .client (extractClientIp cfg req) ((req.userAgent.bind toStr).getD "") := by
  unfold Request.identity
  rw [hkey, h]

/-- A header that counts as the empty text. -/
theorem unread_or_nil_of_getD {v : Option HeaderValue} (h : (v.bind toStr).getD "" = "") : Unread v ∨ v = some [] := by
  cases hv : v.bind toStr with
  | none => exact .inl hv
  | some s =>
      rw [hv] at h
      cases h
      exact .inr (bind_toStr_inj hv rfl)

theorem bind_toStr_of_getD_ne {v : Option HeaderValue} {s : String} (h : (v.bind toStr).getD "" = s) (hne : s ≠ "") :
    v.bind toStr = some s := by
  cases hv : v.bind toStr with
  | none =>
      rw [hv] at h
      exact absurd h.symm hne
  | some t =>
      rw [hv] at h
      exact congrArg some h

theorem xApiKey_eq_of_alike (h : (r₁.identity cfg).Alike (r₂.identity cfg)) {key : String}
    (h₁ : r₁.xApiKey.bind toStr = some key) : r₁.xApiKey = r₂.xApiKey := by
  rw [identity_apiKey h₁] at h
  rcases h with h | ⟨s, t, hs, -⟩
  · unfold Request.identity at h
    split at h <;> cases h
    exact bind_toStr_inj h₁ ‹_›
  · cases hs

theorem authorization_of_alike (h : (r₁.identity cfg).Alike (r₂.identity cfg)) (hkey₁ : Unread r₁.xApiKey)
    (hkey₂ : Unread r₂.xApiKey) {s : String} (h₁ : r₁.authorization.bind toStr = some s) :
    r₁.authorization = r₂.authorization
      ∨ ∃ t, r₂.authorization.bind toStr = some t ∧ s ≠ t ∧ s.toList.take 32 = t.toList.take 32 := by
  rw [identity_authorization hkey₁ h₁] at h
  cases h₂ : r₂.authorization.bind toStr with
  | none =>
      rw [identity_client hkey₂ h₂] at h
      rcases h with h | ⟨s', t, -, ht, -⟩
      · cases h
      · cases ht
  | some t =>
      rw [identity_authorization hkey₂ h₂] at h
      rcases h with h | ⟨s', t', hs, ht, hne, htake⟩
      · cases h
        exact .inl (bind_toStr_inj h₁ h₂)
      · cases hs
        cases ht
        exact .inr ⟨t, rfl, hne, htake⟩

theorem client_of_alike (h : (r₁.identity cfg).Alike (r₂.identity cfg)) (hkey₁ : Unread r₁.xApiKey)
    (hkey₂ : Unread r₂.xApiKey) (hauth₁ : Unread r₁.authorization) (hauth₂ : Unread r₂.authorization) :
    extractClientIp cfg r₁ = extractClientIp cfg r₂
      ∧ (r₁.userAgent.bind toStr).getD "" = (r₂.userAgent.bind toStr).getD "" := by
  rw [identity_client hkey₁ hauth₁, identity_client hkey₂ hauth₂] at h
  rcases h with h | ⟨s, t, hs, -⟩
  · exact Identity.client.inj h
  · cases hs

theorem xApiKey_eq (h : (r₁.identity cfg).Alike (r₂.identity cfg)) (hclear : ¬Confused r₁ r₂) :
    r₁.xApiKey = r₂.xApiKey := by
  cases h₁ : r₁.xApiKey.bind toStr with
  | some key => exact xApiKey_eq_of_alike h h₁
  | none =>
      cases h₂ : r₂.xApiKey.bind toStr with
      | some key => exact (xApiKey_eq_of_alike h.symm h₂).symm
      | none => exact by_contra fun hne => hclear (.apiKey hne h₁ h₂)

theorem authorization_eq (h : (r₁.identity cfg).Alike (r₂.identity cfg)) (hclear : ¬Confused r₁ r₂)
    (hkey₁ : r₁.xApiKey = none) (hkey₂ : r₂.xApiKey = none) : r₁.authorization = r₂.authorization := by
  cases hs : r₁.authorization.bind toStr with
  | some s =>
      rcases authorization_of_alike h (.of_none hkey₁) (.of_none hkey₂) hs with heq | ⟨t, ht, hne, htake⟩
      · exact heq
      · obtain ⟨v, hv, hs⟩ := Option.bind_eq_some_iff.mp hs
        obtain ⟨w, hw, ht⟩ := Option.bind_eq_some_iff.mp ht
        exact absurd (.clipped v w s t hkey₁ hkey₂ hv hw hs ht hne htake) hclear
  | none =>
      cases ht : r₂.authorization.bind toStr with
      | none => exact by_contra fun hne => hclear (.authorization hkey₁ hkey₂ hne hs ht)
      | some t =>
          rcases authorization_of_alike h.symm (.of_none hkey₂) (.of_none hkey₁) ht with heq | ⟨s, hs', -⟩
          · exact heq.symm
          · cases hs.symm.trans hs'

theorem userAgent_eq (hclear : ¬Confused r₁ r₂) (hkey₁ : r₁.xApiKey = none) (hkey₂ : r₂.xApiKey = none)
    (hauth₁ : r₁.authorization = none) (hauth₂ : r₂.authorization = none)
    (htext : (r₁.userAgent.bind toStr).getD "" = (r₂.userAgent.bind toStr).getD "") : r₁.userAgent = r₂.userAgent := by
  by_cases hblank : (r₂.userAgent.bind toStr).getD "" = ""
  · exact by_contra fun hne => hclear (.userAgent hkey₁ hkey₂ hauth₁ hauth₂ hne
      (unread_or_nil_of_getD (htext.trans hblank)) (unread_or_nil_of_getD hblank))
  · exact bind_toStr_inj (bind_toStr_of_getD_ne htext hblank) (bind_toStr_of_getD_ne rfl hblank)

/-- **Requests of one user id** have one credential or are confused. -/
theorem credential_of_alike (h : (r₁.identity cfg).Alike (r₂.identity cfg)) (hclear : ¬Confused r₁ r₂) :
    r₁.credential cfg = r₂.credential cfg := by
  have hkey := xApiKey_eq h hclear
  unfold Request.credential
  cases h₁ : r₁.xApiKey with
  | some key => rw [← hkey, h₁]
  | none =>
      have h₂ : r₂.xApiKey = none := hkey.symm.trans h₁
      have hauth := authorization_eq h hclear h₁ h₂
      cases ha₁ : r₁.authorization with
      | some value => rw [h₂, ← hauth, ha₁]
      | none =>
          have ha₂ : r₂.authorization = none := hauth.symm.trans ha₁
          obtain ⟨hip, htext⟩ := client_of_alike h (.of_none h₁) (.of_none h₂) (.of_none ha₁) (.of_none ha₂)
          rw [h₂, ha₂]
          exact congrArg₂ _ hip (userAgent_eq hclear h₁ h₂ ha₁ ha₂ htext)

theorem xApiKey_eq_of_credential (h : r₁.credential cfg = r₂.credential cfg) : r₁.xApiKey = r₂.xApiKey := by
  unfold Request.credential at h
  cases h₁ : r₁.xApiKey <;> cases h₂ : r₂.xApiKey <;> rw [h₁, h₂] at h
  case some.some => exact congrArg some (Credential.apiKey.inj h)
  case none.some => cases hauth : r₁.authorization <;> rw [hauth] at h <;> cases h
  case some.none => cases hauth : r₂.authorization <;> rw [hauth] at h <;> cases h

theorem authorization_eq_of_credential (h : r₁.credential cfg = r₂.credential cfg) (hkey₁ : r₁.xApiKey = none)
    (hkey₂ : r₂.xApiKey = none) : r₁.authorization = r₂.authorization := by
  unfold Request.credential at h
  rw [hkey₁, hkey₂] at h
  cases h₁ : r₁.authorization <;> cases h₂ : r₂.authorization <;> rw [h₁, h₂] at h
  case some.some => exact congrArg some (Credential.authorization.inj h)
  case none.some => cases h
  case some.none => cases h

/-- Confused requests have two credentials. -/
theorem Confused.credential_ne (h : Confused r₁ r₂) : r₁.credential cfg ≠ r₂.credential cfg := by
  intro hsame
  cases h with
  | clipped v w s t hkey₁ hkey₂ hv hw hs ht hne htake =>
      have hauth := authorization_eq_of_credential hsame hkey₁ hkey₂
      rw [hv, hw] at hauth
      cases hauth
      exact hne (Option.some.inj (hs.symm.trans ht))
  | apiKey hne h₁ h₂ => exact hne (xApiKey_eq_of_credential hsame)
  | authorization hkey₁ hkey₂ hne h₁ h₂ => exact hne (authorization_eq_of_credential hsame hkey₁ hkey₂)
  | userAgent hkey₁ hkey₂ hauth₁ hauth₂ hne h₁ h₂ =>
      unfold Request.credential at hsame
      rw [hkey₁, hkey₂, hauth₁, hauth₂] at hsame
      exact hne (Credential.client.inj hsame).2

/-- A key of the cache holds its user id, and then the path and the key. -/
theorem joined_of_cacheKey {userId p p' k k' : String}
    (h : idempotencyCacheKey userId p k = idempotencyCacheKey userId p' k') : p ++ ":" ++ k = p' ++ ":" ++ k' := by
  have hlist := congrArg String.toList h
  unfold idempotencyCacheKey at hlist
  rw [← String.toList_inj]
  simpa only [String.toList_append, List.append_assoc, List.append_cancel_left_eq] using hlist

/-- **Requests with one key and one user id** are one sender's unless they are mistaken for one another's. -/
theorem sameSender_iff_of_cacheKey (h₁ : r₁.rawKey = some raw₁) (h₂ : r₂.rawKey = some raw₂)
    (huser : extractUserIdentity cfg r₁ = extractUserIdentity cfg r₂)
    (hkey : cacheKeyOf cfg r₁ raw₁ = cacheKeyOf cfg r₂ raw₂) : SameSender cfg r₁ r₂ ↔ ¬Mistaken r₁ r₂ := by
  unfold cacheKeyOf at hkey
  rw [huser] at hkey
  have hjoined := eq_iff_of_joined isSeparator_colon (joined_of_cacheKey hkey)
  have halike := (toUserId_eq_iff (identity_plain cfg r₁) (identity_plain cfg r₂)).mp huser
  constructor
  · rintro ⟨hsame, hpath, hraw⟩ (hconfused | hpaths)
    · exact hconfused.credential_ne hsame
    · rw [h₁, h₂] at hraw
      obtain ⟨hforth, hback⟩ := hjoined.mp ⟨hpath, Option.some.inj hraw⟩
      exact hpaths.elim hforth hback
  · intro hmistaken
    obtain ⟨hpath, hraw⟩ := hjoined.mpr ⟨fun h => hmistaken (.inr (.inl h)), fun h => hmistaken (.inr (.inr h))⟩
    refine ⟨credential_of_alike halike fun h => hmistaken (.inl h), hpath, ?_⟩
    rw [h₁, h₂, hraw]

end Requests

/-! ## §3. What a request has heard. -/

section Visits

open Monitor

variable {K : Crates} (cfg : IdempotencyConfig K.network)

/-- What a request has read last, and where, and what its handler has answered. -/
structure Visit (K : Crates) where
  found : Option (String × CachedResponse)
  run : Option (Request K.network.Addr × Response)

namespace Visit

variable (φ : Visit K)

def read (key : String) : Except String (Option CachedResponse) → Visit K
  | .ok (some cached) => { φ with found := some (key, cached) }
  | _ => φ

def next : (q : Command K.setting) → Except String (Cache.Reply q) → Visit K
  | .get key _, .ok text => φ.read key (K.setting.parse (.plain ()) text)
  | .outside (.next req), .ok response => { φ with run := some (req, response) }
  | _, _ => φ

/-- A response is cached for the request that it answers, under its key. -/
def Caches (key : String) (text : K.Text) : Prop :=
  ∃ req response bytes rawKey, φ.run = some (req, response) ∧ response.body = some bytes ∧ req.rawKey = some rawKey
    ∧ key = cacheKeyOf cfg req rawKey ∧ K.cachedResponse.toString (cachedOf cfg req response bytes) = .ok text

/-- What is replayed has been read under the key of the request, and is its owner's. -/
def Replays (req : Request K.network.Addr) (answer : Answer) : Prop :=
  ∃ rawKey cached, req.rawKey = some rawKey ∧ φ.found = some (cacheKeyOf cfg req rawKey, cached)
    ∧ cached.owner = extractUserIdentity cfg req ∧ answer = replay cached

def allows : Command K.setting → Prop
  | .setEx key text _ => φ.Caches cfg key text
  | .outside (.respond req answer) => answer.replayed = some true → φ.Replays cfg req answer
  | .setNxEx .. | .incrWithTtl .. => False
  | _ => True

end Visit

variable (K) in
def visitMonitor : Monitor (Cache.Reply (W := K.setting)) String (Visit K) :=
  ⟨⟨none, none⟩, Visit.next, Visit.allows cfg⟩

theorem breaker_quiet (q : Command K.setting) (hq : q.isBreaker = true) : (visitMonitor K cfg).Quiet q := by
  intro φ
  cases q <;> first | exact ⟨trivial, fun r => rfl⟩ | cases hq

variable {cfg} {req : Request K.network.Addr} {rawKey : String}

/-- Looking a key up. -/
theorem triple_lookup (key : String) :
    (visitMonitor K cfg).Triple (fun _ => True)
      (RedisCacheConfig.okSome (cfg.cache.getJson (W := K.setting) (.plain ()) key))
      (fun φ found => ∀ cached, found = some cached → φ.found = some (key, cached)) (fun _ => True) := by
  have hget : (visitMonitor K cfg).Triple (fun _ => True) (cfg.cache.getJson (W := K.setting) (.plain ()) key)
      (fun φ found => ∀ cached, found = some cached → φ.found = some (key, cached)) (fun _ => True) := by
    refine triple_exec (breaker_quiet cfg) ?_ fun _ _ _ => trivial
    refine fun φ _ => obeys_call_bind.mpr ⟨trivial, fun text => ?_, fun e => trivial⟩
    show (visitMonitor K cfg).Obeys _ (φ.read key (K.setting.parse (.plain ()) text)) (.done _)
    cases K.setting.parse (.plain ()) text with
    | error e => exact trivial
    | ok found =>
        rintro cached rfl
        rfl
  exact triple_attempt_bind hget (fun found => triple_pure fun φ hφ => hφ) fun e => triple_pure fun φ _ => nofun

theorem triple_execute (hraw : req.rawKey = some rawKey) :
    (visitMonitor K cfg).Triple (fun _ => True) (execute K cfg req (cacheKeyOf cfg req rawKey))
      (fun _ answer => answer.replayed ≠ some true) (fun _ => True) := by
  refine triple_bind (B := fun φ response => φ.run = some (req, response))
    (triple_call (fun _ _ => trivial) (fun _ _ _ => rfl) fun _ _ _ => trivial) fun response => ?_
  cases hbody : response.body with
  | none => exact triple_pure fun _ _ => nofun
  | some bytes =>
      have hset : ∀ text, K.cachedResponse.toString (cachedOf cfg req response bytes) = .ok text →
          (visitMonitor K cfg).Triple (fun φ => φ.run = some (req, response))
            (cfg.cache.exec (ask (W := K.setting) (.setEx (cacheKeyOf cfg req rawKey) text cfg.idempotencyWindowSecs)))
            (fun φ _ => φ.run = some (req, response)) (fun φ => φ.run = some (req, response)) := by
        intro text htext
        refine triple_exec (breaker_quiet cfg) ?_ fun φ _ hφ => hφ
        refine triple_call (fun φ hφ => ?_) (fun φ _ hφ => hφ) fun φ e hφ => hφ
        exact ⟨req, response, bytes, rawKey, hφ, hbody, hraw, rfl, htext⟩
      have hjson : (visitMonitor K cfg).Triple (fun φ => φ.run = some (req, response))
          (cfg.cache.setJson (W := K.setting) () (cacheKeyOf cfg req rawKey) (cachedOf cfg req response bytes)
            cfg.idempotencyWindowSecs) (fun φ _ => φ.run = some (req, response))
          (fun φ => φ.run = some (req, response)) := by
        unfold RedisCacheConfig.setJson
        cases htext : K.cachedResponse.toString (cachedOf cfg req response bytes) with
        | error e => exact triple_fail fun _ h => h
        | ok text => exact hset text htext
      dsimp only
      split
      · exact triple_attempt_bind hjson (fun _ => triple_pure fun _ _ => nofun) fun e => triple_pure fun _ _ => nofun
      · exact triple_pure fun _ _ => nofun

/-- **The middleware** caches and replays only what its visit supports. -/
theorem obeys_idempotencyMiddleware (req : Request K.network.Addr) :
    (visitMonitor K cfg).Obeys (fun _ _ => True) (visitMonitor K cfg).start (idempotencyMiddleware K cfg req) := by
  refine Triple.obeys (A := fun _ => True) (B := fun _ _ => True) (E := fun _ => True) ?_ trivial
  have hrespond : ∀ answer, (visitMonitor K cfg).Triple
      (fun φ => answer.replayed = some true → φ.Replays cfg req answer) (respond K req answer) (fun _ _ => True)
      (fun _ => True) := fun answer =>
    triple_call (fun φ hφ => hφ) (fun _ _ _ => trivial) fun _ _ _ => trivial
  unfold idempotencyMiddleware
  cases hraw : req.rawKey with
  | none =>
      refine triple_bind (triple_call (B := fun _ _ => True) (fun _ _ => trivial) (fun _ _ _ => trivial)
        fun _ _ _ => trivial) fun response => ?_
      exact (hrespond _).strengthen fun φ _ => nofun
  | some rawKey =>
      refine triple_bind (B := fun φ answer => answer.replayed = some true → φ.Replays cfg req answer) ?_ hrespond
      refine triple_bind (triple_lookup _) fun found => ?_
      cases found with
      | none => exact (triple_execute hraw).conseq (fun _ _ => trivial) (fun _ _ hne h => absurd h hne) fun _ h => h
      | some cached =>
          dsimp only
          split
          · exact triple_pure fun _ _ => nofun
          · rename_i howner
            have howner : cached.owner = extractUserIdentity cfg req := by simpa using howner
            exact triple_pure fun φ hφ _ => ⟨rawKey, cached, hraw, hφ cached rfl, howner, rfl⟩

end Visits

/-! ## §4. Where a response comes from. -/

section Origins

variable {K : Crates} (cfg : IdempotencyConfig K.network) (log : Log K)

/-- The response to a request is cached under a key. -/
def CachedFor (req : Request K.network.Addr) (key : String) (cached : CachedResponse) : Prop :=
  ∃ p response bytes rawKey, (p, ⟨.outside (.next req), .ok response⟩) ∈ log ∧ response.body = some bytes
    ∧ req.rawKey = some rawKey ∧ key = cacheKeyOf cfg req rawKey ∧ cached = cachedOf cfg req response bytes

/-- Request `r₂` is answered from what is cached for `r₁`. -/
def ReplayOf (r₁ r₂ : Request K.network.Addr) (answer : Answer) : Prop :=
  ∃ rawKey cached, r₂.rawKey = some rawKey ∧ cached.owner = extractUserIdentity cfg r₂ ∧ answer = replay cached
    ∧ CachedFor cfg log r₁ (cacheKeyOf cfg r₂ rawKey) cached

variable {cfg log} {log' : Log K} {r₁ r₂ : Request K.network.Addr} {key : String} {cached : CachedResponse} {a : Answer}

theorem CachedFor.mono (h : CachedFor cfg log r₁ key cached) (hlog : log ⊆ log') : CachedFor cfg log' r₁ key cached := by
  obtain ⟨p, response, bytes, rawKey, hmem, hrest⟩ := h
  exact ⟨p, response, bytes, rawKey, hlog hmem, hrest⟩

theorem ReplayOf.mono (h : ReplayOf cfg log r₁ r₂ a) (hlog : log ⊆ log') : ReplayOf cfg log' r₁ r₂ a := by
  obtain ⟨rawKey, cached, hraw, howner, ha, hcached⟩ := h
  exact ⟨rawKey, cached, hraw, howner, ha, hcached.mono hlog⟩

/-- **A replay** stays with its sender unless the two are mistaken. -/
theorem ReplayOf.sameSender_iff (h : ReplayOf cfg log r₁ r₂ a) : SameSender cfg r₁ r₂ ↔ ¬Mistaken r₁ r₂ := by
  obtain ⟨rawKey, cached, hraw, howner, -, p, response, bytes, rawKey', -, -, hraw', hkey, rfl⟩ := h
  exact sameSender_iff_of_cacheKey hraw' hraw howner hkey.symm

end Origins

/-! ## §5. The cache and the requests. -/

section Standings

variable {K : Crates} {cfg : IdempotencyConfig K.network} {visits : Nat → Visit K} {b b' : Backend K.setting}
  {log : Log K} {p : Nat} {q : Command K.setting}

def IsCacheKey (key : String) : Prop := ∃ userId routePath rawKey, key = idempotencyCacheKey userId routePath rawKey

/-- Everything that is cached, has been found or is replayed is cached for somebody. -/
structure Standing (cfg : IdempotencyConfig K.network) (visits : Nat → Visit K) (b : Backend K.setting) (log : Log K) :
    Prop where
  persisted : ∀ key text cached, IsCacheKey key → b.get key = some text → K.cachedResponse.fromStr text = .ok cached →
    ∃ req, CachedFor cfg log req key cached
  found : ∀ p key cached, IsCacheKey key → (visits p).found = some (key, cached) → ∃ req, CachedFor cfg log req key cached
  run : ∀ p req response, (visits p).run = some (req, response) → (p, ⟨.outside (.next req), .ok response⟩) ∈ log
  replayed : ∀ p req answer, (p, ⟨.outside (.respond req answer), .ok ()⟩) ∈ log → answer.replayed = some true →
    ∃ r₁, ReplayOf cfg log r₁ req answer

theorem Standing.restart (h : Standing cfg visits b log) (p : Nat) :
    Standing cfg (Function.update visits p (visitMonitor K cfg).start) b log := by
  refine ⟨h.persisted, fun p' key cached hkey hfound => ?_, fun p' req response hrun => ?_, h.replayed⟩
  · rw [Function.update_apply] at hfound
    split at hfound
    · cases hfound
    · exact h.found p' key cached hkey hfound
  · rw [Function.update_apply] at hrun
    split at hrun
    · cases hrun
    · exact h.run p' req response hrun

/-- What an answer shows a request of the cache. -/
theorem found_next {φ : Visit K} {r : Except String (Cache.Reply q)} {key : String} {cached : CachedResponse}
    (hr : Answers b b' q r) (h : (φ.next q r).found = some (key, cached)) :
    φ.found = some (key, cached) ∨ ∃ text, b.get key = some text ∧ K.cachedResponse.fromStr text = .ok cached := by
  cases q with
  | get k f =>
      cases r with
      | error e => exact .inl h
      | ok found =>
          obtain ⟨rfl, -⟩ := found_of_answers hr
          have h : (φ.read k (K.setting.parse (.plain ()) (b.get k))).found = some (key, cached) := h
          cases hget : b.get k with
          | none =>
              rw [hget] at h
              exact .inl h
          | some text =>
              rw [hget] at h
              have h : (φ.read k ((K.cachedResponse.fromStr text).map some)).found = some (key, cached) := h
              cases hread : K.cachedResponse.fromStr text with
              | error e =>
                  rw [hread] at h
                  exact .inl h
              | ok value =>
                  rw [hread] at h
                  cases h
                  exact .inr ⟨text, hget, hread⟩
  | outside q =>
      cases q with
      | next req => cases r <;> exact .inl h
      | respond req answer => exact .inl h
  | _ => exact .inl h

/-- What an answer shows it of its handler. -/
theorem run_next {φ : Visit K} {r : Except String (Cache.Reply q)} {req : Request K.network.Addr} {response : Response}
    (h : (φ.next q r).run = some (req, response)) : φ.run = some (req, response)
      ∨ (⟨q, r⟩ : Exchange (Cache.Reply (W := K.setting)) String) = ⟨.outside (.next req), .ok response⟩ := by
  cases q with
  | get k f =>
      cases r with
      | error e => exact .inl h
      | ok found =>
          have h : (φ.read k (K.setting.parse (.plain ()) found)).run = some (req, response) := h
          rcases hparse : K.setting.parse (.plain ()) found with e | (_ | cached) <;> rw [hparse] at h <;> exact .inl h
  | outside q =>
      cases q with
      | next req =>
          cases r with
          | error e => exact .inl h
          | ok value =>
              cases h
              exact .inr rfl
      | respond req answer => exact .inl h
  | _ => exact .inl h

/-- **One answer.** -/
theorem Standing.answer {r : Except String (Cache.Reply q)} (h : Standing cfg visits b log)
    (hallows : (visits p).allows cfg q) (hr : Answers b b' q r) :
    Standing cfg (Function.update visits p ((visits p).next q r)) b' (log ++ [(p, ⟨q, r⟩)]) := by
  have hlogged : (p, (⟨q, r⟩ : Exchange (Cache.Reply (W := K.setting)) String)) ∈ log ++ [(p, ⟨q, r⟩)] :=
    List.mem_append_right _ List.mem_cons_self
  have hlog : log ⊆ log ++ [(p, ⟨q, r⟩)] := List.subset_append_left _ _
  have hpersisted : ∀ key text cached, IsCacheKey key → b'.get key = some text →
      K.cachedResponse.fromStr text = .ok cached → ∃ req, CachedFor cfg (log ++ [(p, ⟨q, r⟩)]) req key cached := by
    intro key text cached hkey hget hread
    rcases get_of_answers hr hget with hold | hleaves
    · obtain ⟨req, hreq⟩ := h.persisted key text cached hkey hold hread
      exact ⟨req, hreq.mono hlog⟩
    · cases q with
      | setEx k t seconds =>
          obtain ⟨rfl, rfl⟩ := hleaves
          obtain ⟨req, response, bytes, rawKey, hrun, hbytes, hraw, hk, htext⟩ := hallows
          obtain ⟨text', htext', hread'⟩ := K.roundTrip (cachedOf cfg req response bytes)
          cases htext.symm.trans htext'
          cases hread.symm.trans hread'
          exact ⟨req, p, response, bytes, rawKey, hlog (h.run p req response hrun), hbytes, hraw, hk, rfl⟩
      | setNxEx k t seconds => exact hallows.elim
      | incrWithTtl k seconds => exact hallows.elim
      | _ => exact hleaves.elim
  refine ⟨hpersisted, fun p' key cached hkey hfound => ?_, fun p' req response hrun => ?_, fun p' req answer hmem hback => ?_⟩
  · rw [Function.update_apply] at hfound
    split at hfound
    · rcases found_next hr hfound with hold | ⟨text, hget, hread⟩
      · obtain ⟨req, hreq⟩ := h.found p key cached hkey hold
        exact ⟨req, hreq.mono hlog⟩
      · obtain ⟨req, hreq⟩ := h.persisted key text cached hkey hget hread
        exact ⟨req, hreq.mono hlog⟩
    · obtain ⟨req, hreq⟩ := h.found p' key cached hkey hfound
      exact ⟨req, hreq.mono hlog⟩
  · rw [Function.update_apply] at hrun
    split at hrun
    · rename_i hp
      rcases run_next hrun with hold | hnew
      · exact hlog (hp ▸ h.run p req response hold)
      · rw [hp, ← hnew]
        exact hlogged
    · exact hlog (h.run p' req response hrun)
  · rcases List.mem_append.mp hmem with hold | hnew
    · obtain ⟨r₁, hr₁⟩ := h.replayed p' req answer hold hback
      exact ⟨r₁, hr₁.mono hlog⟩
    · cases List.mem_singleton.mp hnew
      obtain ⟨rawKey, cached, hraw, hfound, howner, hanswer⟩ := hallows hback
      obtain ⟨r₁, hr₁⟩ := h.found p _ cached ⟨_, _, _, rfl⟩ hfound
      exact ⟨r₁, rawKey, cached, hraw, howner, hanswer, hr₁.mono hlog⟩

/-- **One step.** -/
theorem Standing.step {m : System K} {a : Action K} (h : Standing cfg (m.phase (visitMonitor K cfg)) m.store m.log)
    (hm : Machine.Monitored (visitMonitor K cfg) m) :
    Standing cfg ((step K cfg m a).phase (visitMonitor K cfg)) (step K cfg m a).store (step K cfg m a).log := by
  refine Machine.phases_step (I := Standing cfg) hm h (fun _ _ _ p hI => hI.restart p)
    (fun p q b' r ha _ hallows hr => h.answer hallows (answers_of_reply ha hr)) fun w _ => ?_
  cases w with
  | tick ms =>
      exact ⟨fun key text cached hkey hget => h.persisted key text cached hkey (get_of_tick hget), h.found, h.run,
        h.replayed⟩

/-- Nobody has been answered. -/
theorem standing_start (hb : ∀ key, IsCacheKey key → b.get key = none) :
    Standing cfg (fun _ => (visitMonitor K cfg).start) b [] where
  persisted key text cached hkey hget := by cases (hb key hkey).symm.trans hget
  found _ _ _ _ hfound := by cases hfound
  run _ _ _ hrun := by cases hrun
  replayed _ _ _ hmem := by cases hmem

/-- **Every run**, from a cache without responses. -/
theorem standing_run (cfg : IdempotencyConfig K.network) {b : Backend K.setting} (hb : ∀ key, IsCacheKey key → b.get key = none)
    (as : List (Action K)) :
    Standing cfg ((run (Idempotency.step K cfg) (Machine.idle b) as).phase (visitMonitor K cfg))
      (run (Idempotency.step K cfg) (Machine.idle b) as).store (run (Idempotency.step K cfg) (Machine.idle b) as).log := by
  induction as using List.reverseRecOn with
  | nil => exact standing_start hb
  | append_singleton as a ih =>
      rw [run_concat]
      exact ih.step (Machine.monitored_run (fun _ req => obeys_idempotencyMiddleware req) b as)

/-- **Whom a replay belongs to.**  In every run a replayed response is one that
was cached for some request, and it stays with the owner of each request that
it was cached for unless the two are mistaken for one another. -/
theorem replayed_to_owner_iff (cfg : IdempotencyConfig K.network) (b : Backend K.setting)
    (hb : ∀ key, IsCacheKey key → b.get key = none) (as : List (Action K)) (p : Nat) (r₂ : Request K.network.Addr)
    (answer : Answer)
    (hanswer : (p, ⟨.outside (.respond r₂ answer), .ok ()⟩) ∈ (run (Idempotency.step K cfg) (Machine.idle b) as).log)
    (hreplayed : answer.replayed = some true) :
    (∃ r₁, ReplayOf cfg (run (Idempotency.step K cfg) (Machine.idle b) as).log r₁ r₂ answer)
      ∧ ∀ r₁, ReplayOf cfg (run (Idempotency.step K cfg) (Machine.idle b) as).log r₁ r₂ answer →
        (SameSender cfg r₁ r₂ ↔ ¬Mistaken r₁ r₂) :=
  ⟨(standing_run cfg hb as).replayed p r₂ answer hanswer hreplayed, fun _ h => h.sameSender_iff⟩

end Standings

/-! ## §6. Two bearer tokens, and two keys in Latin-1. -/

/-- The addresses of one network. -/
@[reducible] def sampleNetwork : Network where
  Addr := Fin 4
  Net := Unit
  parse s := (List.finRange 4).find? fun n => s = "10.0.0." ++ toString n.val
  toString n := "10.0.0." ++ toString n.val
  contains _ _ := true
  toString_plain := by decide +kernel

@[reducible] def sampleCrates : Crates where
  Text := CachedResponse
  cachedResponse := ⟨fun cached => .ok cached, fun text => .ok text⟩
  cachedEntry := ⟨fun entry => .ok entry.value, fun _ => .error "not read"⟩
  ofInt _ := ⟨0, [], none, ""⟩
  toInt _ := none
  sha256Hex := id
  network := sampleNetwork
  roundTrip cached := ⟨cached, rfl, rfl⟩
  sha256Hex_injective := Function.injective_id

def sampleIdempotency : IdempotencyConfig sampleNetwork where
  cache := sampleConfig
  trustProxy := false
  trustedProxyCidrs := []
  idempotencyWindowSecs := 86400

def bytesOf (s : String) : HeaderValue := s.toList.map fun c => c.toNat.toUInt8

/-- A request with the token of a user; what tells the users apart is not in its first 32 characters. -/
def sampleRequest (user : String) : Request (Fin 4) where
  xApiKey := none
  authorization := some (bytesOf ("Bearer eyJhbGciOiJIUzI1NiIsInR5cCI6IkpXVCJ9." ++ user))
  userAgent := none
  idempotencyKey := some (bytesOf "order-1")
  xForwardedFor := none
  xRealIp := none
  connectInfo := some 3
  path := "/api/v1/newsletter/subscribe"

/-- A request with a key that is not ASCII. -/
def sampleLatin (name : UInt8) : Request (Fin 4) where
  xApiKey := some (bytesOf "key-" ++ [name])
  authorization := none
  userAgent := none
  idempotencyKey := some (bytesOf "order-1")
  xForwardedFor := none
  xRealIp := none
  connectInfo := some 3
  path := "/api/v1/newsletter/subscribe"

def sampleResponse : Response := ⟨200, some (bytesOf "application/json"), some (bytesOf "done")⟩

def sampleAnswers (p n : Nat) : List (Action sampleCrates) := List.replicate n (.answer p ⟨false, sampleResponse⟩)

abbrev sampleAfter (as : List (Action sampleCrates)) : System sampleCrates :=
  run (step sampleCrates sampleIdempotency) (Machine.idle ⟨1700000000000, 0, 0, ∅, ()⟩) as

/-- One request after another. -/
def sampleTwice (first second : Request (Fin 4)) : List (Action sampleCrates) :=
  .start 0 first :: sampleAnswers 0 12 ++ .start 1 second :: sampleAnswers 1 6

/-- What is cached for a request. -/
def sampleCached (req : Request (Fin 4)) : CachedResponse :=
  cachedOf (K := sampleCrates) sampleIdempotency req sampleResponse (bytesOf "done")

def hasRun (m : System sampleCrates) (p : Nat) (req : Request (Fin 4)) (response : Response) : Bool :=
  m.log.any fun x => match x with
    | (p', ⟨.outside (.next req'), .ok response'⟩) => p' = p && req' = req && response' = response
    | _ => false

def hasAnswered (m : System sampleCrates) (p : Nat) (req : Request (Fin 4)) (answer : Answer) : Bool :=
  m.log.any fun x => match x with
    | (p', ⟨.outside (.respond req' answer'), .ok _⟩) => p' = p && req' = req && answer' = answer
    | _ => false

theorem mem_of_hasRun {m : System sampleCrates} {p : Nat} {req : Request (Fin 4)} {response : Response}
    (h : hasRun m p req response = true) : (p, ⟨.outside (.next req), .ok response⟩) ∈ m.log := by
  obtain ⟨x, hx, h⟩ := List.any_eq_true.mp h
  split at h
  · simp only [Bool.and_eq_true, decide_eq_true_eq] at h
    obtain ⟨⟨rfl, rfl⟩, rfl⟩ := h
    exact hx
  · cases h

theorem mem_of_hasAnswered {m : System sampleCrates} {p : Nat} {req : Request (Fin 4)} {answer : Answer}
    (h : hasAnswered m p req answer = true) : (p, ⟨.outside (.respond req answer), .ok ()⟩) ∈ m.log := by
  obtain ⟨x, hx, h⟩ := List.any_eq_true.mp h
  split at h
  · simp only [Bool.and_eq_true, decide_eq_true_eq] at h
    obtain ⟨⟨rfl, rfl⟩, rfl⟩ := h
    exact hx
  · cases h

/-- The same request twice. -/
theorem sampleRetry_owned :
    (∃ r₁, ReplayOf sampleIdempotency (sampleAfter (sampleTwice (sampleRequest "alice") (sampleRequest "alice"))).log r₁
        (sampleRequest "alice") (replay (sampleCached (sampleRequest "alice"))))
      ∧ ∀ r₁, ReplayOf sampleIdempotency (sampleAfter (sampleTwice (sampleRequest "alice") (sampleRequest "alice"))).log r₁
          (sampleRequest "alice") (replay (sampleCached (sampleRequest "alice"))) →
        (SameSender (K := sampleCrates) sampleIdempotency r₁ (sampleRequest "alice")
          ↔ ¬Mistaken r₁ (sampleRequest "alice")) := by
  have hanswered : hasAnswered (sampleAfter (sampleTwice (sampleRequest "alice") (sampleRequest "alice"))) 1
      (sampleRequest "alice") (replay (sampleCached (sampleRequest "alice"))) = true := by decide +kernel
  have hreplayed : (replay (sampleCached (sampleRequest "alice"))).replayed = some true := by decide +kernel
  exact replayed_to_owner_iff (K := sampleCrates) sampleIdempotency ⟨1700000000000, 0, 0, ∅, ()⟩ (fun _ _ => rfl) _ 1 _ _
    (mem_of_hasAnswered hanswered) hreplayed

/-- The second request is answered with what is cached for the first, and is somebody else's. -/
def Misdelivered (first second : Request (Fin 4)) : Prop :=
  (1, ⟨.outside (.respond second (replay (sampleCached first))), .ok ()⟩) ∈ (sampleAfter (sampleTwice first second)).log
    ∧ (replay (sampleCached first)).replayed = some true
    ∧ ReplayOf sampleIdempotency (sampleAfter (sampleTwice first second)).log first second (replay (sampleCached first))
    ∧ ¬SameSender (K := sampleCrates) sampleIdempotency first second

theorem misdelivered {first second : Request (Fin 4)}
    (hlog : (hasAnswered (sampleAfter (sampleTwice first second)) 1 second (replay (sampleCached first))
      && hasRun (sampleAfter (sampleTwice first second)) 0 first sampleResponse) = true)
    (hreplayed : (replay (sampleCached first)).replayed = some true)
    (hraw₁ : Request.rawKey (K := sampleCrates) first = some "order-1")
    (hraw₂ : Request.rawKey (K := sampleCrates) second = some "order-1")
    (hkey : cacheKeyOf (K := sampleCrates) sampleIdempotency second "order-1"
      = cacheKeyOf (K := sampleCrates) sampleIdempotency first "order-1")
    (huser : (sampleCached first).owner = extractUserIdentity (K := sampleCrates) sampleIdempotency second)
    (hother : first.credential (K := sampleCrates) sampleIdempotency
      ≠ second.credential (K := sampleCrates) sampleIdempotency) : Misdelivered first second := by
  obtain ⟨hanswered, hrun⟩ := Bool.and_eq_true_iff.mp hlog
  exact ⟨mem_of_hasAnswered hanswered, hreplayed, ⟨"order-1", sampleCached first, hraw₂, huser, rfl, 0, sampleResponse,
    bytesOf "done", "order-1", mem_of_hasRun hrun, rfl, hraw₁, hkey, rfl⟩, fun h => hother h.credential⟩

/-- **Bob gets the response to Alice**, and one key the response to another. -/
theorem sampleTokens_mistaken :
    Misdelivered (sampleRequest "alice") (sampleRequest "bob") ∧ Misdelivered (sampleLatin 0xE9) (sampleLatin 0xE8) :=
  ⟨misdelivered (by decide +kernel) (by decide +kernel) (by decide +kernel) (by decide +kernel) (by decide +kernel)
      (by decide +kernel) (by decide +kernel),
    misdelivered (by decide +kernel) (by decide +kernel) (by decide +kernel) (by decide +kernel) (by decide +kernel)
      (by decide +kernel) (by decide +kernel)⟩

end PredictIQ.Idempotency
