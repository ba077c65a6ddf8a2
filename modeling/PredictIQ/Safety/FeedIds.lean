/-
  PredictIQ.Safety.FeedIds: the feed ids of stored markets.

  `decode_feed_id` reads 64 hex digits of either case, and is the inverse of
  writing 32 bytes in hex.  The source has a validator to call at creation and
  no creation calls it, so a market is stored with any feed id at all: all
  stored markets can be priced in the runs whose creations bring feed ids that
  decode, and in no other run.
-/
import PredictIQ.Contract.Pyth
import PredictIQ.Foundation.Hex
import PredictIQ.Safety.ResolutionWindows

namespace PredictIQ.Contract

open Foundation Tx

variable {X : Externs}

/-! ## §1. `decode_feed_id` is hex decoding of 64 digits. -/

theorem hexChar_ok {c v : UInt8} : hexChar c = .ok v ↔ Hex.value c = some v := by
  unfold hexChar Hex.value
  split_ifs <;> simp

theorem byteAt_ok {bytes : List UInt8} {i : Nat} {b : UInt8} :
    byteAt bytes i = .ok b ↔ bytes[i]? = some b := by
  unfold byteAt
  split <;> simp_all

theorem result_bind_ok {α β : Type} {x : Except ErrorCode α} {f : α → Except ErrorCode β} {b : β} :
    (x >>= f) = .ok b ↔ ∃ a, x = .ok a ∧ f a = .ok b := by
  cases x with
  | error code =>
      constructor
      · intro h
        cases h
      · intro h
        obtain ⟨_, h, _⟩ := h
        cases h
  | ok a =>
      constructor
      · intro h
        exact ⟨a, rfl, h⟩
      · intro h
        obtain ⟨_, ha, h⟩ := h
        cases ha
        exact h

/-- A turn of the loop joins the two digits at its place. -/
theorem decodeByte_ok {bytes : List UInt8} {i : Nat} {b : UInt8} :
    decodeByte bytes i = .ok b ↔ ∃ c hi c' lo, bytes[i * 2]? = some c ∧ Hex.value c = some hi
      ∧ bytes[i * 2 + 1]? = some c' ∧ Hex.value c' = some lo ∧ Hex.join hi lo = b := by
  simp only [decodeByte, result_bind_ok, byteAt_ok, hexChar_ok, pure, Except.pure, Except.ok.injEq,
    exists_and_left, Hex.join]

/-- A turn after the first is a turn over the rest of the text. -/
theorem decodeByte_succ (c c' : UInt8) (text : List UInt8) (i : Nat) :
    decodeByte (c :: c' :: text) (i + 1) = decodeByte text i := by
  unfold decodeByte byteAt
  rw [Nat.add_mul]
  rfl

/-- The loop decodes a text of that many pairs. -/
theorem mapM_decodeByte_ok {n : Nat} {text bytes : List UInt8} (hlen : text.length = 2 * n) :
    (List.range n).mapM (decodeByte text) = .ok bytes ↔ Hex.decode text = some bytes := by
  induction n generalizing text bytes with
  | zero =>
      obtain rfl := List.eq_nil_of_length_eq_zero hlen
      show Except.ok [] = Except.ok bytes ↔ some [] = some bytes
      rw [Except.ok.injEq, Option.some.injEq]
  | succ n ih =>
      rcases text with _ | ⟨c, _ | ⟨c', text⟩⟩
      · change 0 = 2 * (n + 1) at hlen
        omega
      · change 1 = 2 * (n + 1) at hlen
        omega
      change text.length + 1 + 1 = 2 * (n + 1) at hlen
      have hrest : decodeByte (c :: c' :: text) ∘ Nat.succ = decodeByte text :=
        funext fun i => decodeByte_succ c c' text i
      have htail : ∀ rest, (List.range n).mapM (decodeByte text) = .ok rest
          ↔ Hex.decode text = some rest := fun rest => ih (by omega)
      rw [List.range_succ_eq_map, List.mapM_cons, List.mapM_map, hrest, Hex.decode_cons_eq_some]
      simp only [result_bind_ok, decodeByte_ok, htail, pure, Except.pure, Except.ok.injEq]
      constructor
      · intro h
        obtain ⟨b, ⟨d, hi, d', lo, hd, hhi, hd', hlo, rfl⟩, rest, hdec, rfl⟩ := h
        obtain rfl := Option.some.inj hd
        obtain rfl := Option.some.inj hd'
        exact ⟨hi, lo, rest, hhi, hlo, hdec, rfl⟩
      · intro h
        obtain ⟨hi, lo, rest, hhi, hlo, hdec, rfl⟩ := h
        exact ⟨Hex.join hi lo, ⟨c, hi, c', lo, rfl, hhi, rfl, hlo, rfl⟩, rest, hdec, rfl⟩

/-- **A feed id is the hex of 32 bytes.** -/
theorem decodeFeedId_ok {text bytes : List UInt8} :
    decodeFeedId text = .ok bytes ↔ text.length = 64 ∧ Hex.decode text = some bytes := by
  unfold decodeFeedId
  by_cases hlen : text.length = 64
  · rw [if_neg (not_not_intro hlen), mapM_decodeByte_ok hlen]
    exact (and_iff_right hlen).symm
  · rw [if_pos hlen]
    constructor
    · intro h
      cases h
    · intro h
      exact absurd h.1 hlen

/-- The text is 64 hex digits. -/
def IsFeedId (text : List UInt8) : Prop :=
  text.length = 64 ∧ ∀ c ∈ text, (Hex.value c).isSome

theorem exists_decodeFeedId_iff {text : List UInt8} :
    (∃ bytes, decodeFeedId text = .ok bytes) ↔ IsFeedId text := by
  simp only [decodeFeedId_ok, exists_and_left, IsFeedId]
  exact and_congr_right fun hlen => Hex.exists_decode_iff (n := 32) hlen

/-! ## §2. Stored markets. -/

/-- The config's feed id decodes, so that asking for its price is asking the
Pyth contract. -/
def Priceable (config : OracleConfig) : Prop :=
  ∃ feedId, decodeFeedId config.feedBytes = .ok feedId ∧ feedId.length = 32
    ∧ ∀ client env w, fetchPythPrice client config env w
        = orTrap (client config.oracleAddress feedId) env w

/-- A config can be priced when its feed id is well formed. -/
theorem priceable_iff {config : OracleConfig} : Priceable config ↔ IsFeedId config.feedBytes := by
  rw [← exists_decodeFeedId_iff]
  constructor
  · intro h
    obtain ⟨feedId, hdec, _⟩ := h
    exact ⟨feedId, hdec⟩
  · intro h
    obtain ⟨feedId, hdec⟩ := h
    obtain ⟨hlen, htext⟩ := decodeFeedId_ok.mp hdec
    have hbytes := Hex.length_of_decode htext
    refine ⟨feedId, hdec, by omega, ?_⟩
    intro client env w
    unfold fetchPythPrice
    rw [hdec]
    rfl

/-- The validator passes exactly the configs that can be priced. -/
theorem validateOracleConfig_ok {config : OracleConfig} :
    validateOracleConfig config = .ok () ↔ Priceable config := by
  rw [priceable_iff, ← exists_decodeFeedId_iff]
  unfold validateOracleConfig verifyOracleHealth
  cases decodeFeedId config.feedBytes with
  | error code => simp [Except.isOk, Except.toBool]
  | ok feedId => simp [Except.isOk, Except.toBool]

/-- Every stored market can be priced. -/
def AllPriceable (w : World) : Prop :=
  ∀ k m, w.markets.market.lookup k = some m → Priceable m.oracleConfig

/-- The step, if it creates a market, brings a well-formed feed id. -/
def BringsFeedId (X : Externs) (x : Transition World Action) : Prop :=
  callOk X x = true → ∀ p dw, creationRequest x.act = some (p, dw) →
    IsFeedId p.oracleConfig.feedBytes

theorem LifecycleMove.oracleConfig_eq {w : World} {id : Nat} {f : LifecycleCall} {m m' : Market}
    (h : LifecycleMove X w id m f m') : m'.oracleConfig = m.oracleConfig := by
  obtain ⟨_, _, _, _, _, _, rfl⟩ := h.frame
  rfl

/-- A market keeps the oracle config of its creation. -/
theorem AllPriceable.call {env : Env} {w w' : World} {c : Call} (h : AllPriceable w)
    (hreg : Registered w) (hfeed : BringsFeedId X ⟨w, .call env c, w'⟩)
    (hsucc : Succeeds X env c w w') : AllPriceable w' := by
  intro k m' hm'
  have hchange := hsucc.effect.marketChange hreg k
  rw [hm'] at hchange
  generalize hpre : w.markets.market.lookup k = o at hchange
  cases hchange with
  | same => exact h k m' hpre
  | created _ p hc next =>
      obtain ⟨dw, _, hreq, _⟩ := hsucc.lists hc
      exact priceable_iff.mpr (hfeed (callOk_of_succeeds hsucc) p dw hreq)
  | bet b m fee counts => exact h k m hpre
  | moved _ f m _ hc move =>
      rw [move.oracleConfig_eq]
      exact h k m hpre
  | released token m => exact h k m hpre

theorem creationRequest_eq_some {a : Action} {p : MarketParams} {dw : Option Nat}
    (h : creationRequest a = some (p, dw)) : ∃ env c, a = .call env c ∧ c.kind = .creates p := by
  unfold creationRequest at h
  split at h
  · cases h
    exact ⟨_, _, rfl, rfl⟩
  · cases h
    exact ⟨_, _, rfl, rfl⟩
  · cases h

/-- What a creation brings is stored. -/
theorem stored_of_creation {x : Transition World Action} (hok : callOk X x = true)
    (hstep : x.post = step X x.pre x.act) {p : MarketParams} {dw : Option Nat}
    (hreq : creationRequest x.act = some (p, dw)) :
    ∃ k m, x.post.markets.market.lookup k = some m ∧ m.oracleConfig = p.oracleConfig := by
  obtain ⟨w, a, w'⟩ := x
  obtain ⟨env, c, ha, hc⟩ := creationRequest_eq_some hreq
  change a = .call env c at ha
  change w' = step X w a at hstep
  subst ha hstep
  obtain ⟨_, id, _, hlisted⟩ := (callOk_iff.mp hok).lists hc
  refine ⟨id, p.newMarket id (depositFor w p.creator), ?_, rfl⟩
  show (step X w (.call env c)).markets.market.lookup id = _
  rw [hlisted.markets, MarketStore.lookup_addMarket]
  exact if_pos rfl

/-- Creations that bring feed ids keep every stored market priceable. -/
theorem allPriceable_run (b : Address → Address → Nat) (t s : Nat) (as : List Action)
    (hfeeds : ∀ x ∈ trace (step X) (genesis b t s) as, BringsFeedId X x) :
    AllPriceable (run (step X) (genesis b t s) as) := by
  refine registered_run_invariant AllPriceable (BringsFeedId X) (.genesis b t s) ?_ ?_
    (fun _ _ _ h => h) (fun _ _ h => h) as hfeeds
  · intro k m hm
    cases hm
  · intro w env c w' hreg hall hfeed hsucc
    exact hall.call hreg hfeed hsucc

/-- **Feed ids.**  The stored markets can all be priced in all states of a run
when each creation of the run brings 64 hex digits, and only then.  Decoding
inverts the hex form, up to case. -/
theorem feed_ids_exact (X : Externs) (b : Address → Address → Nat) (t s : Nat)
    (as : List Action) :
    ((∀ bs, bs <+: as → AllPriceable (run (step X) (genesis b t s) bs)) ↔
        ∀ x ∈ trace (step X) (genesis b t s) as, BringsFeedId X x)
      ∧ (∀ text, (∃ bytes, decodeFeedId text = .ok bytes) ↔ IsFeedId text)
      ∧ (∀ bytes, bytes.length = 32 → decodeFeedId (Hex.encode bytes) = .ok bytes)
      ∧ ∀ text text' bytes bytes', decodeFeedId text = .ok bytes →
          decodeFeedId text' = .ok bytes' →
          (bytes = bytes' ↔ text.map Hex.lower = text'.map Hex.lower) := by
  refine ⟨⟨?_, ?_⟩, fun text => exists_decodeFeedId_iff, ?_, ?_⟩
  · intro hall x hx hok p dw hreq
    obtain ⟨bs, hbs, hpre, hpost⟩ := prefix_of_mem_trace (step X) hx
    have hstep : x.post = step X x.pre x.act := by
      rw [hpost, hpre, run_concat]
    obtain ⟨k, m, hm, hconfig⟩ := stored_of_creation hok hstep hreq
    rw [hpost] at hm
    rw [← hconfig]
    exact priceable_iff.mp (hall _ hbs k m hm)
  · intro hfeeds bs hbs
    exact allPriceable_run b t s bs fun x hx => hfeeds x (mem_trace_of_isPrefix (step X) hbs hx)
  · intro bytes hlen
    refine decodeFeedId_ok.mpr ⟨?_, Hex.decode_encode bytes⟩
    rw [Hex.length_encode, hlen]
  · intro text text' bytes bytes' h h'
    obtain ⟨_, htext⟩ := decodeFeedId_ok.mp h
    obtain ⟨_, htext'⟩ := decodeFeedId_ok.mp h'
    constructor
    · rintro rfl
      exact Hex.map_lower_eq_of_decode htext htext'
    · intro hcase
      have hsame : Hex.decode text = Hex.decode text' := by
        rw [← Hex.decode_map_lower text, hcase, Hex.decode_map_lower]
      rw [htext, htext'] at hsame
      exact Option.some.inj hsame

/-- The sample market is opened with the feed id `feed`. -/
theorem unchecked_feed_id_stored :
    let w := sampleRun [.call everybody (.initializeContract ⟨1⟩ 0),
      .call everybody (.createMarket (sampleMarket ⟨2⟩ ⟨10⟩))]
    ¬AllPriceable w := by
  intro w h
  have hdec : (w.markets.market.lookup 1).map
      (fun m => (decodeFeedId m.oracleConfig.feedBytes).isOk) = some false := by decide +kernel
  obtain ⟨m, hm, hbad⟩ := Option.map_eq_some_iff.mp hdec
  obtain ⟨feedId, hok, _⟩ := h 1 m hm
  rw [hok] at hbad
  cases hbad

end PredictIQ.Contract
