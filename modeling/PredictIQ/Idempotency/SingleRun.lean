/-
  PredictIQ.Idempotency.SingleRun: how often the handler runs for one key.

  All requests here are repeats of one: they have its caller, its path and its
  key.  Nothing reserves the key between the lookup that misses and the
  `SETEX` of the response, so the handler runs again for whoever looks the key
  up in between (`sampleRace_runs_twice`).  `Orderly` says of a step that it
  is no such lookup, and none after the window; `runs_once` says that the
  handler then runs once, and that every request gets its response.
-/
import PredictIQ.Idempotency.Owners

namespace PredictIQ.Idempotency

open Foundation Cache Monitor

/-! ## §1. The stages of a request. -/

/-- Where a request stands: before its lookup, behind a miss or a hit, behind
its handler, behind its `SETEX`.  A request that has met an error or an open
circuit is excused. -/
inductive Stage where
  | looking
  | missed
  | found (cached : CachedResponse)
  | handled (response : Response)
  | stored (response : Response)
  | excused
  deriving DecidableEq

section Stages

variable {K : Crates} (cfg : IdempotencyConfig K.network) (r₀ : Request K.network.Addr) (rawKey : String)

namespace Stage

/-- The lookup has missed or hit. -/
def look : Except String (Option CachedResponse) → Stage
  | .ok (some cached) => .found cached
  | .ok none => .missed
  | .error _ => .excused

def hear (s : Stage) : (q : Command K.setting) → Cache.Reply q → Stage
  | .loadOpenedAt, openedAt => if openedAt = (0 : Nat) then s else .excused
  | .get _ _, text => look (K.setting.parse (.plain ()) text)
  | .outside (.next _), response => .handled response
  | .setEx .., _ =>
      match s with
      | .handled response => .stored response
      | _ => s
  | _, _ => s

def next (s : Stage) (q : Command K.setting) : Except String (Cache.Reply q) → Stage
  | .error _ => .excused
  | .ok v => if s = .excused then .excused else s.hear q v

/-- What a request answers at a stage. -/
def Answers (s : Stage) (answer : Answer) : Prop :=
  match s with
  | .found cached => cached.owner = extractUserIdentity cfg r₀ → answer = replay cached
  | .stored response => answer.status = response.status ∧ answer.body = response.body
  | .handled response => response.isSuccess = false ∨ response.body = none
  | _ => False

/-- What it may ask, if it is not excused. -/
def asks (s : Stage) : Command K.setting → Prop
  | .get key _ => s = .looking ∧ key = cacheKeyOf cfg r₀ rawKey
  | .outside (.next _) => s = .missed
  | .setEx key text seconds => ∃ response bytes, s = .handled response ∧ response.body = some bytes
      ∧ key = cacheKeyOf cfg r₀ rawKey ∧ seconds = cfg.idempotencyWindowSecs
      ∧ K.cachedResponse.toString (cachedOf cfg r₀ response bytes) = .ok text
  | .outside (.respond _ answer) => s.Answers cfg r₀ answer
  | .loadOpenedAt | .poolGet => True
  | .storeFailureCount n => n = 0
  | .storeOpenedAt ms => ms = 0
  | _ => False

/-- Where a request may end. -/
def Ends (s : Stage) : Prop := s = .excused ∨ ∃ answer, s.Answers cfg r₀ answer

/-- The response is on its way into the cache. -/
def isPending : Stage → Bool
  | .missed | .handled _ => true
  | _ => false

end Stage

variable (K) in
def stageMonitor : Monitor (Cache.Reply (W := K.setting)) String Stage :=
  ⟨.looking, Stage.next, fun s q => s = .excused ∨ s.asks cfg r₀ rawKey q⟩

theorem steady_stageMonitor : Steady (stageMonitor K cfg r₀ rawKey) .excused where
  absorbing q := ⟨.inl rfl, fun r => by cases r <;> rfl⟩
  error _ _ _ := rfl
  loadOpenedAt s := by
    refine ⟨.inr trivial, ?_, fun openedAt h => ?_⟩
    · cases s <;> rfl
    · show (if s = .excused then Stage.excused else if openedAt = 0 then s else .excused) = .excused
      rw [if_neg h, ite_self]
  poolGet s := ⟨.inr trivial, by cases s <;> rfl⟩
  storeFailureCount s := ⟨.inr rfl, by cases s <;> rfl⟩
  storeOpenedAt s := ⟨.inr rfl, by cases s <;> rfl⟩

/-! ## §2. The middleware keeps to its stages. -/

/-- Two requests with one caller, as the middleware knows it, one path and one key. -/
structure SameOwner (r₁ r₂ : Request K.network.Addr) : Prop where
  caller : r₁.identity cfg = r₂.identity cfg
  path : r₁.path = r₂.path
  rawKey : r₁.rawKey = r₂.rawKey

variable {cfg r₀ rawKey} {req : Request K.network.Addr}

/-- Looking the key up. -/
theorem leads_lookup :
    (stageMonitor K cfg r₀ rawKey).Leads .excused (· = .looking)
      (RedisCacheConfig.okSome (cfg.cache.getJson (W := K.setting) (.plain ()) (cacheKeyOf cfg r₀ rawKey)))
      (fun s found => s = Stage.look (.ok found)) := by
  have hget : (stageMonitor K cfg r₀ rawKey).Leads .excused (· = .looking)
      (cfg.cache.getJson (W := K.setting) (.plain ()) (cacheKeyOf cfg r₀ rawKey))
      (fun s found => s = Stage.look (.ok found)) := by
    refine leads_exec_of_steady (steady_stageMonitor cfg r₀ rawKey) ?_
    rintro s rfl
    refine obeys_call_bind.mpr ⟨.inr ⟨rfl, rfl⟩, fun text => ?_, fun e => rfl⟩
    show (stageMonitor K cfg r₀ rawKey).Obeys _ (Stage.look (K.setting.parse (.plain ()) text)) (.done _)
    cases K.setting.parse (.plain ()) text with
    | error e => exact rfl
    | ok found => exact .inr rfl
  exact leads_attempt_bind (steady_stageMonitor cfg r₀ rawKey).absorbing hget fun found => leads_pure fun s hs => hs

theorem leads_execute (huser : extractUserIdentity cfg req = extractUserIdentity cfg r₀) :
    (stageMonitor K cfg r₀ rawKey).Leads .excused (· = .missed) (execute K cfg req (cacheKeyOf cfg r₀ rawKey))
      (fun s answer => s.Answers cfg r₀ answer) := by
  have hsteady := steady_stageMonitor cfg r₀ rawKey
  refine leads_bind hsteady.absorbing (B := fun s response => s = .handled response)
    (leads_call (fun s hs => .inr hs) (fun s response hs => ?_) fun _ _ _ => rfl) fun response => ?_
  · subst hs
    exact .inr rfl
  · cases hbody : response.body with
    | none => exact leads_pure fun s hs => hs ▸ .inr hbody
    | some bytes =>
        dsimp only
        split
        · have hcached : cachedOf cfg req response bytes = cachedOf cfg r₀ response bytes := by
            unfold cachedOf
            rw [huser]
          obtain ⟨text, htext, -⟩ := K.roundTrip (cachedOf cfg r₀ response bytes)
          have hset : (stageMonitor K cfg r₀ rawKey).Leads .excused (· = .handled response)
              (cfg.cache.setJson (W := K.setting) () (cacheKeyOf cfg r₀ rawKey) (cachedOf cfg req response bytes)
                cfg.idempotencyWindowSecs) (fun s _ => s = .stored response) := by
            unfold RedisCacheConfig.setJson
            rw [hcached, htext]
            refine leads_exec_of_steady hsteady (leads_call (fun s hs => ?_) (fun s _ hs => ?_) fun _ _ _ => rfl)
            · exact .inr ⟨response, bytes, hs, hbody, rfl, rfl, htext⟩
            · subst hs
              exact .inr rfl
          refine leads_attempt_bind hsteady.absorbing hset fun _ => leads_pure fun s hs => ?_
          subst hs
          exact ⟨rfl, hbody.symm⟩
        · rename_i hsuccess
          exact leads_pure fun s hs => hs ▸ .inl (Bool.eq_false_iff.mpr hsuccess)

/-- **A repeat** of the request keeps to the stages. -/
theorem obeys_repeat (hraw : r₀.rawKey = some rawKey) (hreq : SameOwner cfg r₀ req) :
    (stageMonitor K cfg r₀ rawKey).Obeys (fun s _ => s.Ends cfg r₀) .looking (idempotencyMiddleware K cfg req) := by
  have hsteady := steady_stageMonitor cfg r₀ rawKey
  have huser : extractUserIdentity cfg req = extractUserIdentity cfg r₀ := by
    unfold extractUserIdentity
    rw [hreq.caller]
  have hkey : cacheKeyOf cfg req rawKey = cacheKeyOf cfg r₀ rawKey := by
    unfold cacheKeyOf
    rw [huser, hreq.path]
  have hanswer : (stageMonitor K cfg r₀ rawKey).Leads .excused (· = .looking)
      (replayOrExecute K cfg req (cacheKeyOf cfg req rawKey)) (fun s answer => s.Answers cfg r₀ answer) := by
    rw [hkey]
    refine leads_bind hsteady.absorbing leads_lookup fun found => ?_
    cases found with
    | none => exact leads_execute huser
    | some cached =>
        dsimp only
        rw [huser]
        split
        · rename_i hne
          exact leads_pure fun s hs => hs ▸ fun howner => absurd howner (by simpa using hne)
        · exact leads_pure fun s hs => hs ▸ fun _ => rfl
  have hrespond : ∀ answer, (stageMonitor K cfg r₀ rawKey).Leads .excused (fun s => s.Answers cfg r₀ answer)
      (respond K req answer) (fun s _ => ∃ answer, s.Answers cfg r₀ answer) := by
    intro answer
    refine leads_call (fun s hs => .inr hs) (fun s _ hs => .inr ⟨answer, ?_⟩) fun _ _ _ => rfl
    cases s <;> exact hs
  unfold idempotencyMiddleware
  rw [← hreq.rawKey, hraw]
  refine (leads_bind hsteady.absorbing hanswer hrespond .looking rfl).mono fun s res hs => ?_
  cases res with
  | ok u => exact hs
  | error e => exact .inl hs

end Stages

/-! ## §3. What the stages say of the cache. -/

section Books

variable {K : Crates} {cfg : IdempotencyConfig K.network} {r₀ : Request K.network.Addr} {rawKey : String} {t₀ : Nat}

/-- The responses of the handler. -/
def runsOf (log : Log K) : List Response :=
  log.filterMap fun x => match x.2 with
    | ⟨.outside (.next _), .ok response⟩ => some response
    | _ => none

/-- A success that can be read. -/
def Response.IsGood (response : Response) : Prop := response.isSuccess = true ∧ response.body.isSome = true

/-- How the requests, the cache and the handler's runs go together: nobody has
come, or one request is on its way from its miss to its `SETEX`, or the
response is there. -/
inductive Books (cfg : IdempotencyConfig K.network) (r₀ : Request K.network.Addr) (rawKey : String) (t₀ : Nat)
    (stages : Nat → Stage) (b : Backend K.setting) : List Response → Prop where
  | blank : b.get (cacheKeyOf cfg r₀ rawKey) = none → (∀ p, stages p = .looking) → Books cfg r₀ rawKey t₀ stages b []
  | missed (holder : Nat) : b.get (cacheKeyOf cfg r₀ rawKey) = none → (∀ p, p ≠ holder → stages p = .looking) →
      stages holder = .missed → Books cfg r₀ rawKey t₀ stages b []
  | handled (holder : Nat) (response : Response) : b.get (cacheKeyOf cfg r₀ rawKey) = none →
      (∀ p, p ≠ holder → stages p = .looking) → stages holder = .handled response →
      Books cfg r₀ rawKey t₀ stages b [response]
  | filled (response : Response) (bytes : List UInt8) (entry : KeyEntry K.Text) : response.body = some bytes →
      b.keys.lookup (cacheKeyOf cfg r₀ rawKey) = some entry →
      K.cachedResponse.fromStr entry.text = .ok (cachedOf cfg r₀ response bytes) →
      t₀ + 1000 * cfg.idempotencyWindowSecs ≤ entry.expiresAtMs →
      (∀ p, stages p = .looking ∨ stages p = .found (cachedOf cfg r₀ response bytes) ∨ stages p = .stored response) →
      Books cfg r₀ rawKey t₀ stages b [response]

/-- Every answer is the one run's. -/
def Answered (log : Log K) : Prop :=
  ∀ p req answer, (p, ⟨.outside (.respond req answer), .ok ()⟩) ∈ log →
    ∃ response, runsOf log = [response] ∧ answer.status = response.status ∧ answer.body = response.body

structure Single (cfg : IdempotencyConfig K.network) (r₀ : Request K.network.Addr) (rawKey : String) (t₀ : Nat)
    (stages : Nat → Stage) (b : Backend K.setting) (log : Log K) : Prop where
  closed : b.openedAtMs = 0
  since : t₀ ≤ b.nowMs
  books : Books cfg r₀ rawKey t₀ stages b (runsOf log)
  answered : Answered log

variable {stages : Nat → Stage} {b b' : Backend K.setting} {log : Log K} {runs : List Response} {p : Nat}

/-- Nobody is excused. -/
theorem Books.not_excused (h : Books cfg r₀ rawKey t₀ stages b runs) (p : Nat) : stages p ≠ .excused := by
  cases h with
  | blank _ hlooking => simp [hlooking p]
  | missed holder _ hlooking hholder =>
      by_cases hp : p = holder
      · simp [hp, hholder]
      · simp [hlooking p hp]
  | handled holder response _ hlooking hholder =>
      by_cases hp : p = holder
      · simp [hp, hholder]
      · simp [hlooking p hp]
  | filled response bytes entry _ _ _ _ hstages => rcases hstages p with hp | hp | hp <;> simp [hp]

theorem Books.length_le (h : Books cfg r₀ rawKey t₀ stages b runs) : runs.length ≤ 1 := by
  cases h <;> simp

/-- They go by what is under the key. -/
theorem Books.congr (h : Books cfg r₀ rawKey t₀ stages b runs)
    (hnone : b.get (cacheKeyOf cfg r₀ rawKey) = none → b'.get (cacheKeyOf cfg r₀ rawKey) = none)
    (hkeys : b'.keys = b.keys) : Books cfg r₀ rawKey t₀ stages b' runs := by
  cases h with
  | blank hget hlooking => exact .blank (hnone hget) hlooking
  | missed holder hget hlooking hholder => exact .missed holder (hnone hget) hlooking hholder
  | handled holder response hget hlooking hholder => exact .handled holder response (hnone hget) hlooking hholder
  | filled response bytes entry hbytes hlookup htext hexpires hstages =>
      exact .filled response bytes entry hbytes (hkeys ▸ hlookup) htext hexpires hstages

/-- Books in which a good response is kept. -/
structure Kept (cfg : IdempotencyConfig K.network) (r₀ : Request K.network.Addr) (rawKey : String) (t₀ : Nat)
    (stages : Nat → Stage) (b : Backend K.setting) (runs : List Response) (response : Response) : Prop where
  runs : runs = [response]
  body : ∃ bytes entry, response.body = some bytes ∧ b.keys.lookup (cacheKeyOf cfg r₀ rawKey) = some entry
    ∧ K.cachedResponse.fromStr entry.text = .ok (cachedOf cfg r₀ response bytes)
    ∧ t₀ + 1000 * cfg.idempotencyWindowSecs ≤ entry.expiresAtMs
    ∧ ∀ p, stages p = .looking ∨ stages p = .found (cachedOf cfg r₀ response bytes) ∨ stages p = .stored response

/-- **Once a request has its answer**, where every response was good, that is kept. -/
theorem Books.kept (h : Books cfg r₀ rawKey t₀ stages b runs) (hgood : ∀ response ∈ runs, response.IsGood)
    {answer : Answer} (hanswer : (stages p).Answers cfg r₀ answer) :
    ∃ response, Kept cfg r₀ rawKey t₀ stages b runs response := by
  cases h with
  | blank hget hlooking =>
      rw [hlooking p] at hanswer
      exact hanswer.elim
  | missed holder hget hlooking hholder =>
      by_cases hp : p = holder
      · rw [hp, hholder] at hanswer
        exact hanswer.elim
      · rw [hlooking p hp] at hanswer
        exact hanswer.elim
  | handled holder response hget hlooking hholder =>
      obtain ⟨hsuccess, hbody⟩ := hgood response List.mem_cons_self
      by_cases hp : p = holder
      · rw [hp, hholder] at hanswer
        rcases hanswer with hfailed | hnone
        · cases hfailed.symm.trans hsuccess
        · rw [hnone] at hbody
          cases hbody
      · rw [hlooking p hp] at hanswer
        exact hanswer.elim
  | filled response bytes entry hbytes hlookup htext hexpires hstages =>
      exact ⟨response, rfl, bytes, entry, hbytes, hlookup, htext, hexpires, hstages⟩

/-- A request that ends, where every response was good, leaves the books in order. -/
theorem Books.restart (h : Books cfg r₀ rawKey t₀ stages b runs) (hgood : ∀ response ∈ runs, response.IsGood)
    (hend : (stages p).Ends cfg r₀) : Books cfg r₀ rawKey t₀ (Function.update stages p .looking) b runs := by
  obtain ⟨answer, hanswer⟩ := hend.resolve_left (h.not_excused p)
  obtain ⟨response, hruns, bytes, entry, hbytes, hlookup, htext, hexpires, hstages⟩ := h.kept hgood hanswer
  subst hruns
  refine .filled response bytes entry hbytes hlookup htext hexpires fun p' => ?_
  rw [Function.update_apply]
  split
  · exact .inl rfl
  · exact hstages p'

/-- A content type that was read as a text is a header again. -/
theorem isSome_toHeaderValue {v : HeaderValue} {s : String} (h : toStr v = some s) : (toHeaderValue s).isSome = true := by
  have hchar : ∀ n < 256, (32 ≤ n ∧ n < 127) ∨ n = 9 →
      ((32 ≤ (Char.ofNat n).toNat && (Char.ofNat n).toNat != 127) || (Char.ofNat n).toNat = 9) = true := by
    decide +kernel
  unfold toStr at h
  split at h
  · rename_i hvisible
    cases h
    unfold toHeaderValue
    rw [if_pos]
    · rfl
    · rw [String.toList_ofList, List.all_map, List.all_eq_true]
      intro c hc
      have hc := List.all_eq_true.mp hvisible c hc
      simp only [Bool.or_eq_true, Bool.and_eq_true, decide_eq_true_eq, UInt8.le_iff_toNat_le, UInt8.lt_iff_toNat_lt,
        ← UInt8.toNat_inj] at hc
      exact hchar c.toNat c.toNat_lt hc
  · cases h

variable (cfg r₀) in
/-- A replay has the status and the body of the response. -/
theorem replay_cachedOf {response : Response} (bytes : List UInt8) (hsuccess : response.isSuccess = true) :
    (replay (cachedOf cfg r₀ response bytes)).status = response.status
      ∧ (replay (cachedOf cfg r₀ response bytes)).body = some bytes := by
  have hstatus : statusOf response.status = response.status := by
    simp only [Response.isSuccess, Bool.and_eq_true, decide_eq_true_eq] at hsuccess
    exact if_pos ⟨by omega, by omega⟩
  unfold replay
  cases hct : (cachedOf cfg r₀ response bytes).contentType with
  | none => exact ⟨hstatus, rfl⟩
  | some ct =>
      obtain ⟨v, hv, hct⟩ := Option.bind_eq_some_iff.mp hct
      obtain ⟨v', hv'⟩ := Option.isSome_iff_exists.mp (isSome_toHeaderValue hct)
      dsimp only
      rw [hv']
      exact ⟨hstatus, rfl⟩

/-- Only a run of the handler is a run. -/
theorem runsOf_of_not_next {q : Command K.setting} (hq : ∀ req, q ≠ .outside (.next req))
    (r : Except String (Cache.Reply q)) : runsOf (log ++ [(p, ⟨q, r⟩)]) = runsOf log := by
  unfold runsOf
  rw [List.filterMap_append]
  have hnone : [((p, ⟨q, r⟩) : Nat × Exchange (Cache.Reply (W := K.setting)) String)].filterMap (fun x => match x.2 with
      | ⟨.outside (.next _), .ok response⟩ => some response
      | _ => none) = [] := by
    cases q with
    | outside q =>
        cases q with
        | next req => exact absurd rfl (hq req)
        | respond req answer => rfl
    | _ => rfl
  rw [hnone, List.append_nil]

theorem runsOf_next (req : Request K.network.Addr) (response : Response) :
    runsOf (log ++ [(p, ⟨.outside (.next req), .ok response⟩)]) = runsOf log ++ [response] := List.filterMap_append

/-- An answer that is no run of the handler, and no answer to a request unless it is the run's. -/
theorem Answered.grow (h : Answered log) {q : Command K.setting} (hq : ∀ req, q ≠ .outside (.next req))
    (r : Except String (Cache.Reply q))
    (hx : ∀ req answer, q = .outside (.respond req answer) →
      ∃ response, runsOf log = [response] ∧ answer.status = response.status ∧ answer.body = response.body) :
    Answered (log ++ [(p, ⟨q, r⟩)]) := by
  intro p' req answer hmem
  rw [runsOf_of_not_next hq]
  rcases List.mem_append.mp hmem with hold | hnew
  · exact h p' req answer hold
  · exact hx req answer (congrArg (fun x => x.2.question) (List.mem_singleton.mp hnew)).symm

/-- A lookup in order misses first, and then hits. -/
theorem Books.look {text : Option K.Text} (h : Books cfg r₀ rawKey t₀ stages b runs)
    (htext : text = b.get (cacheKeyOf cfg r₀ rawKey)) (hidle : ∀ p, (stages p).isPending = false)
    (hnow : b.nowMs < t₀ + 1000 * cfg.idempotencyWindowSecs) :
    Books cfg r₀ rawKey t₀ (Function.update stages p (Stage.look (K.setting.parse (.plain ()) text))) b runs := by
  subst htext
  cases h with
  | blank hget hlooking =>
      rw [hget]
      refine .missed p hget (fun p' hp' => ?_) (Function.update_self ..)
      rw [Function.update_of_ne hp']
      exact hlooking p'
  | missed holder hget hlooking hholder =>
      -- nobody looks up between a miss and the `SETEX` that follows
      have hpending := hidle holder
      rw [hholder] at hpending
      cases hpending
  | handled holder response hget hlooking hholder =>
      have hpending := hidle holder
      rw [hholder] at hpending
      cases hpending
  | filled response bytes entry hbytes hlookup htext hexpires hstages =>
      have hget : b.get (cacheKeyOf cfg r₀ rawKey) = some entry.text :=
        get_eq_some_iff.mpr ⟨entry, hlookup, by omega, rfl⟩
      rw [hget]
      refine .filled response bytes entry hbytes hlookup htext hexpires fun p' => ?_
      rw [Function.update_apply]
      split
      · refine .inr (.inl ?_)
        show Stage.look ((K.cachedResponse.fromStr entry.text).map some) = _
        rw [htext]
        rfl
      · exact hstages p'

/-- The one who has missed runs the handler. -/
theorem Books.handle (h : Books cfg r₀ rawKey t₀ stages b runs) (hp : stages p = .missed) (response : Response) :
    runs = [] ∧ Books cfg r₀ rawKey t₀ (Function.update stages p (.handled response)) b [response] := by
  cases h with
  | blank hget hlooking => cases hp.symm.trans (hlooking p)
  | missed holder hget hlooking hholder =>
      have hholds : p = holder := by
        by_contra hne
        cases hp.symm.trans (hlooking p hne)
      refine ⟨rfl, .handled p response hget (fun p' hp' => ?_) (Function.update_self ..)⟩
      rw [Function.update_of_ne hp']
      exact hlooking p' (hholds ▸ hp')
  | handled holder response' hget hlooking hholder =>
      by_cases hholds : p = holder
      · cases hp.symm.trans (hholds ▸ hholder)
      · cases hp.symm.trans (hlooking p hholds)
  | filled response' bytes entry hbytes hlookup htext hexpires hstages =>
      rcases hstages p with hp' | hp' | hp' <;> cases hp.symm.trans hp'

/-- It stores the response. -/
theorem Books.store {response : Response} {bytes : List UInt8} {text : K.Text}
    (h : Books cfg r₀ rawKey t₀ stages b runs) (hp : stages p = .handled response) (hbytes : response.body = some bytes)
    (htext : K.cachedResponse.toString (cachedOf cfg r₀ response bytes) = .ok text) (hsince : t₀ ≤ b.nowMs) :
    Books cfg r₀ rawKey t₀ (Function.update stages p (.stored response))
      (b.setEx (cacheKeyOf cfg r₀ rawKey) text cfg.idempotencyWindowSecs) runs := by
  obtain ⟨text', htext', hread⟩ := K.roundTrip (cachedOf cfg r₀ response bytes)
  cases htext.symm.trans htext'
  cases h with
  | blank hget hlooking => cases hp.symm.trans (hlooking p)
  | missed holder hget hlooking hholder =>
      by_cases hholds : p = holder
      · cases hp.symm.trans (hholds ▸ hholder)
      · cases hp.symm.trans (hlooking p hholds)
  | handled holder response' hget hlooking hholder =>
      have hholds : p = holder := by
        by_contra hne
        cases hp.symm.trans (hlooking p hne)
      subst hholds
      cases hp.symm.trans hholder
      have hlookup : (b.setEx (cacheKeyOf cfg r₀ rawKey) text cfg.idempotencyWindowSecs).keys.lookup
          (cacheKeyOf cfg r₀ rawKey) = some ⟨text, b.nowMs + 1000 * cfg.idempotencyWindowSecs⟩ :=
        (Store.lookup_insert_eq ..).trans (if_pos rfl)
      refine .filled response bytes _ hbytes hlookup hread (Nat.add_le_add_right hsince _) fun p' => ?_
      rw [Function.update_apply]
      split
      · exact .inr (.inr rfl)
      · exact .inl (hlooking p' ‹_›)
  | filled response' bytes' entry _ _ _ _ hstages => rcases hstages p with hp' | hp' | hp' <;> cases hp.symm.trans hp'

/-- An answer is the run's. -/
theorem Books.answers {answer : Answer} (h : Books cfg r₀ rawKey t₀ stages b runs)
    (hgood : ∀ response ∈ runs, response.IsGood) (hanswer : (stages p).Answers cfg r₀ answer) :
    ∃ response, runs = [response] ∧ answer.status = response.status ∧ answer.body = response.body := by
  obtain ⟨response, hruns, bytes, entry, hbytes, -, -, -, hstages⟩ := h.kept hgood hanswer
  refine ⟨response, hruns, ?_⟩
  subst hruns
  rcases hstages p with hp | hp | hp <;> rw [hp] at hanswer
  · exact hanswer.elim
  · obtain rfl := hanswer rfl
    obtain ⟨hstatus, hbody⟩ := replay_cachedOf cfg r₀ bytes (hgood response List.mem_cons_self).1
    exact ⟨hstatus, hbody.trans hbytes.symm⟩
  · exact hanswer

end Books

/-! ## §4. Runs. -/

section Runs

variable {K : Crates} {cfg : IdempotencyConfig K.network} {r₀ : Request K.network.Addr} {rawKey : String} {t₀ : Nat}
  {stages : Nat → Stage} {b b' : Backend K.setting} {log : Log K} {p : Nat}

/-- **One answer** but the handler's. -/
theorem Single.grow {q : Command K.setting} {s : Stage} (h : Single cfg r₀ rawKey t₀ stages b log)
    (hq : ∀ req, q ≠ .outside (.next req)) (r : Except String (Cache.Reply q)) (hclosed : b'.openedAtMs = 0)
    (hsince : t₀ ≤ b'.nowMs) (hbooks : Books cfg r₀ rawKey t₀ (Function.update stages p s) b' (runsOf log))
    (hx : ∀ req answer, q = .outside (.respond req answer) →
      ∃ response, runsOf log = [response] ∧ answer.status = response.status ∧ answer.body = response.body) :
    Single cfg r₀ rawKey t₀ (Function.update stages p s) b' (log ++ [(p, ⟨q, r⟩)]) :=
  ⟨hclosed, hsince, (runsOf_of_not_next hq r).symm ▸ hbooks, h.answered.grow hq r hx⟩

/-- **One answer.** -/
theorem Single.answer {q : Command K.setting} {o : Cache.Choice K.setting} {v : Cache.Reply q}
    (h : Single cfg r₀ rawKey t₀ stages b log) (hasks : (stages p).asks cfg r₀ rawKey q)
    (hexec : exec o b q = some (v, b'))
    (hlook : ∀ key f, q = .get key f → (∀ p, (stages p).isPending = false)
      ∧ b.nowMs < t₀ + 1000 * cfg.idempotencyWindowSecs)
    (hgood : ∀ response ∈ runsOf (log ++ [(p, ⟨q, .ok v⟩)]), response.IsGood) :
    Single cfg r₀ rawKey t₀ (Function.update stages p ((stages p).next q (.ok v))) b' (log ++ [(p, ⟨q, .ok v⟩)]) := by
  have hnext : (stages p).next q (.ok v) = (stages p).hear q v := if_neg (h.books.not_excused p)
  rw [hnext]
  have hsame : Books cfg r₀ rawKey t₀ (Function.update stages p (stages p)) b (runsOf log) := by
    rw [Function.update_eq_self]
    exact h.books
  cases q with
  | loadOpenedAt =>
      cases hexec
      have hstage : (stages p).hear (K := K) .loadOpenedAt b.openedAtMs = stages p := if_pos h.closed
      rw [hstage]
      exact h.grow (fun _ hq => by cases hq) _ h.closed h.since hsame (fun _ _ hq => by cases hq)
  | poolGet =>
      cases hexec
      exact h.grow (fun _ hq => by cases hq) _ h.closed h.since hsame (fun _ _ hq => by cases hq)
  | storeFailureCount n =>
      cases hexec
      exact h.grow (fun _ hq => by cases hq) _ h.closed h.since (hsame.congr id rfl) (fun _ _ hq => by cases hq)
  | storeOpenedAt ms =>
      cases hexec
      exact h.grow (fun _ hq => by cases hq) _ hasks h.since (hsame.congr id rfl) (fun _ _ hq => by cases hq)
  | get key f =>
      cases hexec
      obtain ⟨-, rfl⟩ := hasks
      obtain ⟨hidle, hnow⟩ := hlook _ f rfl
      exact h.grow (fun _ hq => by cases hq) _ h.closed h.since (h.books.look rfl hidle hnow) (fun _ _ hq => by cases hq)
  | setEx key text seconds =>
      obtain ⟨response, bytes, hp, hbytes, rfl, rfl, htext⟩ := hasks
      have hstage : (stages p).hear (K := K) (.setEx (cacheKeyOf cfg r₀ rawKey) text cfg.idempotencyWindowSecs) v
          = .stored response := by
        rw [hp]
        rfl
      rw [hstage]
      simp only [exec] at hexec
      split at hexec
      · cases hexec
      · cases hexec
        exact h.grow (fun _ hq => by cases hq) _ h.closed h.since (h.books.store hp hbytes htext h.since) (fun _ _ hq => by cases hq)
  | outside q =>
      cases q with
      | next req =>
          cases hexec
          -- the first run, so that nobody has been answered before
          obtain ⟨hnone, hbooks⟩ := h.books.handle hasks o.world
          refine ⟨h.closed, h.since, ?_, fun p' req' answer hmem => ?_⟩
          · rw [runsOf_next, hnone]
            exact hbooks.congr id rfl
          · rcases List.mem_append.mp hmem with hold | hnew
            · obtain ⟨response, hruns, -, -⟩ := h.answered p' req' answer hold
              cases hnone.symm.trans hruns
            · cases List.mem_singleton.mp hnew
      | respond req answer =>
          cases hexec
          rw [runsOf_of_not_next fun _ hq => by cases hq] at hgood
          refine h.grow (fun _ hq => by cases hq) _ h.closed h.since (hsame.congr id rfl) fun req' answer' heq => ?_
          cases heq
          exact h.books.answers hgood hasks
  | _ => exact hasks.elim

variable (cfg r₀) in
/-- The requests that repeat one. -/
abbrev Repeat : Type := {req : Request K.network.Addr // SameOwner cfg r₀ req}

variable (cfg r₀) in
abbrev RepeatAction : Type := Act Nat (Repeat cfg r₀) String (Cache.Choice K.setting) Cache.Outside

variable (cfg r₀) in
/-- The middleware, where all requests are repeats of one. -/
def stepRepeats : System K → RepeatAction cfg r₀ → System K :=
  Machine.step (server K.setting) (fun _ req => idempotencyMiddleware K cfg req.val) Cache.outside

variable (cfg r₀ rawKey) in
/-- Nobody looks the key up between the lookup of another request that has missed and its `SETEX`. -/
def Orderly (t : Transition (System K) (RepeatAction cfg r₀)) : Prop :=
  ∀ key f, t.pre.performs t.act = some (.get key f) →
    ∀ p, (t.pre.phase (stageMonitor K cfg r₀ rawKey) p).isPending = false

/-- Who looks the key up does so within the window. -/
def InWindow (t₀ : Nat) (t : Transition (System K) (RepeatAction cfg r₀)) : Prop :=
  ∀ key f, t.pre.performs t.act = some (.get key f) → t.pre.store.nowMs < t₀ + 1000 * cfg.idempotencyWindowSecs

/-- The handler has run once at most, and every request that is answered has its response. -/
def RunOnce (log : Log K) : Prop := (runsOf log).length ≤ 1 ∧ Answered log

/-- **One step** in order, where the handler answers successes. -/
theorem Single.step {m : System K} {a : RepeatAction cfg r₀}
    (h : (∀ response ∈ runsOf m.log, response.IsGood) →
      Single cfg r₀ rawKey t₀ (m.phase (stageMonitor K cfg r₀ rawKey)) m.store m.log)
    (hm : Machine.MonitoredTo (stageMonitor K cfg r₀ rawKey) (fun s _ => s.Ends cfg r₀) m) (hhealthy : a.failing = none)
    (hwindow : InWindow t₀ ⟨m, a, stepRepeats cfg r₀ m a⟩) (horderly : Orderly cfg r₀ rawKey ⟨m, a, stepRepeats cfg r₀ m a⟩) :
    (∀ response ∈ runsOf (stepRepeats cfg r₀ m a).log, response.IsGood) →
      Single cfg r₀ rawKey t₀ ((stepRepeats cfg r₀ m a).phase (stageMonitor K cfg r₀ rawKey))
        (stepRepeats cfg r₀ m a).store (stepRepeats cfg r₀ m a).log := by
  refine Machine.phases_step_to (I := fun stages b log => (∀ response ∈ runsOf log, response.IsGood) →
    Single cfg r₀ rawKey t₀ stages b log) hm h (fun stages b log p res hI hend hgood => ?_)
    (fun p q b' r ha hq hallows hr hgood => ?_) (fun p ha => ?_) fun w _ hgood => ?_
  · have h := hI hgood
    exact ⟨h.closed, h.since, h.books.restart hgood hend, h.answered⟩
  · have hsingle := h fun response hmem => hgood response (by
      show response ∈ List.filterMap _ (m.log ++ _)
      rw [List.filterMap_append]
      exact List.mem_append_left _ hmem)
    have hasks := hallows.resolve_left (hsingle.books.not_excused p)
    rcases Machine.reply_cases (server K.setting) ha hr with ⟨o, v, rfl, rfl, hexec⟩ | ⟨e, rfl, -, -⟩ | ⟨o, e, v, rfl, -, -⟩
    · refine hsingle.answer hasks hexec (fun key f hget => ?_) hgood
      have hperforms : m.performs (.answer p o : RepeatAction cfg r₀) = some (.get key f) := hget ▸ hq
      exact ⟨horderly key f hperforms, hwindow key f hperforms⟩
    · cases hhealthy
    · cases hhealthy
  · subst ha
    cases hhealthy
  · have h := h hgood
    cases w with
    | tick ms =>
        refine ⟨h.closed, h.since.trans (Nat.le_add_right _ _), h.books.congr (fun hnone => ?_) rfl, h.answered⟩
        cases hget : (Cache.outside (.tick ms) m.store).get (cacheKeyOf cfg r₀ rawKey) with
        | none => rfl
        | some text => cases hnone.symm.trans (get_of_tick hget)

/-- **The handler runs once**, and every request gets its response, in a run
without failures in which every lookup comes before any other request's miss
or after its `SETEX`. -/
theorem runs_once (cfg : IdempotencyConfig K.network) (r₀ : Request K.network.Addr) (rawKey : String)
    (hraw : r₀.rawKey = some rawKey) (b : Backend K.setting) (hclosed : b.openedAtMs = 0)
    (hblank : b.get (cacheKeyOf cfg r₀ rawKey) = none) (as : List (RepeatAction cfg r₀))
    (hsteps : ∀ t ∈ trace (stepRepeats cfg r₀) (Machine.idle b) as,
      t.act.failing = none ∧ InWindow b.nowMs t ∧ Orderly cfg r₀ rawKey t)
    (hgood : ∀ response ∈ runsOf (run (stepRepeats cfg r₀) (Machine.idle b) as).log, response.IsGood) :
    RunOnce (run (stepRepeats cfg r₀) (Machine.idle b) as).log := by
  have hobeys : ∀ (p : Nat) (req : Repeat cfg r₀), (stageMonitor K cfg r₀ rawKey).Obeys (fun s _ => s.Ends cfg r₀)
      .looking (idempotencyMiddleware K cfg req.val) := fun _ req => obeys_repeat hraw req.property
  have hstart : Single cfg r₀ rawKey b.nowMs (fun _ => .looking) b [] :=
    ⟨hclosed, le_rfl, .blank hblank fun _ => rfl, fun _ _ _ hmem => by cases hmem⟩
  have hrun := (run_invariant_of (stepRepeats cfg r₀) (fun m =>
    Machine.MonitoredTo (stageMonitor K cfg r₀ rawKey) (fun s _ => s.Ends cfg r₀) m
      ∧ ((∀ response ∈ runsOf m.log, response.IsGood) →
        Single cfg r₀ rawKey b.nowMs (m.phase (stageMonitor K cfg r₀ rawKey)) m.store m.log))
    (fun t => t.act.failing = none ∧ InWindow b.nowMs t ∧ Orderly cfg r₀ rawKey t)
    ⟨Machine.monitoredTo_idle b, fun _ => hstart⟩
    (fun m a h ha => ⟨h.1.step hobeys a, Single.step h.2 h.1 ha.1 ha.2.1 ha.2.2⟩) as hsteps).2 hgood
  exact ⟨hrun.books.length_le, hrun.answered⟩

end Runs

/-! ## §5. Two requests. -/

abbrev sampleKey : Request sampleCrates.network.Addr := sampleRequest "alice"

def sampleRepeat : Repeat (K := sampleCrates) sampleIdempotency sampleKey := ⟨sampleKey, rfl, rfl, rfl⟩

def sampleReplies (p n : Nat) : List (RepeatAction (K := sampleCrates) sampleIdempotency sampleKey) :=
  List.replicate n (.answer p ⟨false, sampleResponse⟩)

abbrev sampleStart : System sampleCrates := Machine.idle ⟨1700000000000, 0, 0, ∅, ()⟩

/-- The second request comes when the first has been answered. -/
def sampleInTurn : List (RepeatAction (K := sampleCrates) sampleIdempotency sampleKey) :=
  .start 0 sampleRepeat :: sampleReplies 0 12 ++ .start 1 sampleRepeat :: sampleReplies 1 6

/-- Only the processes 0 and 1 are started. -/
def startsFirstTwo : RepeatAction (K := sampleCrates) sampleIdempotency sampleKey → Bool
  | .start p _ => p = 0 || p = 1
  | _ => true

/-- Both look the key up before either has stored a response. -/
def sampleRace : List (RepeatAction (K := sampleCrates) sampleIdempotency sampleKey) :=
  .start 0 sampleRepeat :: .start 1 sampleRepeat :: sampleReplies 0 3 ++ sampleReplies 1 3 ++ sampleReplies 0 9
    ++ sampleReplies 1 9

/-- A step that does not fail, and looks the key up only within the window. -/
def isTimely (t : Transition (System sampleCrates) (RepeatAction (K := sampleCrates) sampleIdempotency sampleKey)) : Bool :=
  decide (t.act.failing = none) && match t.pre.performs t.act with
    | some (.get _ _) => t.pre.store.nowMs < 1700000000000 + 1000 * 86400
    | _ => true

/-- It looks the key up only when neither request is on its way to its `SETEX`. -/
def isOrderly (t : Transition (System sampleCrates) (RepeatAction (K := sampleCrates) sampleIdempotency sampleKey)) : Bool :=
  match t.pre.performs t.act with
  | some (.get _ _) =>
      !(t.pre.phase (stageMonitor sampleCrates sampleIdempotency sampleKey "order-1") 0).isPending
        && !(t.pre.phase (stageMonitor sampleCrates sampleIdempotency sampleKey "order-1") 1).isPending
  | _ => true

theorem isTimely_spec {t : Transition (System sampleCrates) (RepeatAction (K := sampleCrates) sampleIdempotency sampleKey)}
    (h : isTimely t = true) : t.act.failing = none ∧ InWindow 1700000000000 t := by
  obtain ⟨hhealthy, htime⟩ := Bool.and_eq_true_iff.mp h
  refine ⟨of_decide_eq_true hhealthy, fun key f hget => ?_⟩
  rw [hget] at htime
  exact of_decide_eq_true htime

theorem isOrderly_spec {t : Transition (System sampleCrates) (RepeatAction (K := sampleCrates) sampleIdempotency sampleKey)}
    (h : isOrderly t = true) (hothers : ∀ p, p ≠ 0 → p ≠ 1 → t.pre.procs p = none) :
    Orderly sampleIdempotency sampleKey "order-1" t := by
  intro key f hget p
  unfold isOrderly at h
  rw [hget] at h
  simp only [Bool.and_eq_true, Bool.not_eq_true'] at h
  by_cases h0 : p = 0
  · exact h0 ▸ h.1
  · by_cases h1 : p = 1
    · exact h1 ▸ h.2
    · simp [Machine.phase, hothers p h0 h1, stageMonitor, Stage.isPending]

/-- One after the other. -/
theorem sampleInTurn_once :
    RunOnce (run (stepRepeats (K := sampleCrates) sampleIdempotency sampleKey) sampleStart sampleInTurn).log := by
  have hsteps : (trace (stepRepeats (K := sampleCrates) sampleIdempotency sampleKey) sampleStart sampleInTurn).all
      (fun t => isTimely t && isOrderly t) = true := by
    decide +kernel
  have hgood : (runsOf (run (stepRepeats (K := sampleCrates) sampleIdempotency sampleKey) sampleStart sampleInTurn).log).all
      (fun response => response.isSuccess && response.body.isSome) = true := by
    decide +kernel
  have hstarts : sampleInTurn.all startsFirstTwo = true := by decide +kernel
  have hraw : Request.rawKey (K := sampleCrates) sampleKey = some "order-1" := by decide +kernel
  have hblank : ∀ key, (⟨1700000000000, 0, 0, ∅, ()⟩ : Backend sampleCrates.setting).get key = none := fun _ => rfl
  refine runs_once (K := sampleCrates) sampleIdempotency sampleKey "order-1" hraw ⟨1700000000000, 0, 0, ∅, ()⟩ rfl
    (hblank _) sampleInTurn (fun t ht => ?_)
    fun response hmem => Bool.and_eq_true_iff.mp (List.all_eq_true.mp hgood response hmem)
  obtain ⟨htimely, horderly⟩ := Bool.and_eq_true_iff.mp (List.all_eq_true.mp hsteps t ht)
  obtain ⟨hhealthy, hwindow⟩ := isTimely_spec htimely
  refine ⟨hhealthy, hwindow, isOrderly_spec horderly fun p h0 h1 => ?_⟩
  obtain ⟨bs, ⟨cs, has⟩, hpre, -⟩ := prefix_of_mem_trace _ ht
  rw [hpre]
  refine Machine.procs_run_eq_none _ _ _ (fun a ha task hstart => ?_) _
  have hmem : a ∈ sampleInTurn := by
    rw [← has]
    exact List.mem_append_left _ (List.mem_append_left _ ha)
  have hp := List.all_eq_true.mp hstarts a hmem
  rw [hstart] at hp
  rcases Bool.or_eq_true_iff.mp hp with hp | hp
  · exact h0 (of_decide_eq_true hp)
  · exact h1 (of_decide_eq_true hp)

/-- **A race** of two requests runs the handler twice, though nothing fails. -/
theorem sampleRace_runs_twice :
    (∀ t ∈ trace (stepRepeats (K := sampleCrates) sampleIdempotency sampleKey) sampleStart sampleRace,
        t.act.failing = none ∧ InWindow 1700000000000 t)
      ∧ (∀ response ∈ runsOf (run (stepRepeats (K := sampleCrates) sampleIdempotency sampleKey) sampleStart sampleRace).log,
        response.IsGood)
      ∧ ¬RunOnce (run (stepRepeats (K := sampleCrates) sampleIdempotency sampleKey) sampleStart sampleRace).log := by
  have hsteps : (trace (stepRepeats (K := sampleCrates) sampleIdempotency sampleKey) sampleStart sampleRace).all
      isTimely = true := by
    decide +kernel
  have hruns : runsOf (run (stepRepeats (K := sampleCrates) sampleIdempotency sampleKey) sampleStart sampleRace).log
      = [sampleResponse, sampleResponse] := by
    decide +kernel
  refine ⟨fun t ht => isTimely_spec (List.all_eq_true.mp hsteps t ht), fun response hmem => ?_, fun hrun => ?_⟩
  · rw [hruns] at hmem
    obtain rfl : response = sampleResponse := by simpa using hmem
    exact ⟨rfl, rfl⟩
  · have hlength := hrun.1
    rw [hruns] at hlength
    cases hlength
    rename_i hlength
    cases hlength

end PredictIQ.Idempotency
