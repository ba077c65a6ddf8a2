/-
  PredictIQ.Frontend.WalletProvider: the connection state of the wallet.

  The provider stays mounted, so `cancelled` of the session restore stays
  false.  A call of `connect`, the session restore and a tick of the polling
  interval go on when the extension has answered; what it answers, and when, is
  left open.  React renders the state, and some time after that runs the
  effects of the render, if the address has changed; it runs those of one
  render before the next.  `disconnected` is not in the code: it says that
  `disconnect` has been called since the last call of `connect`.
-/
import PredictIQ.Foundation.Run
import PredictIQ.Frontend.Thrown
import Mathlib.Logic.Function.Basic

namespace PredictIQ.Frontend.WalletProvider

open Foundation

/-! ## §1. The extension. -/

/-- Which methods `window.freighterApi` has. -/
structure FreighterApi where
  isConnected : Bool
  requestAccess : Bool
  setAllowed : Bool
  getAddress : Bool
  getPublicKey : Bool
  getNetwork : Bool
  getNetworkDetails : Bool

inductive AccessReply where
  | address (address : String)
  | publicKey (publicKey : String)
  | error (message : String)

/-- What `getAddress`, or else `getPublicKey`, answers. -/
inductive AddressReply where
  | address (address : String)
  | publicKey (publicKey : String)
  | error (message : String)
  | rejected

/-- What `getNetworkDetails`, or else `getNetwork`, answers. -/
inductive NetworkReply where
  | network (network : Option String)
  | text (network : String)
  | rejected

def readAddress (api : FreighterApi) (reply : AddressReply) : Option String :=
  if api.getAddress then
    match reply with
    | .address address => some address
    | _ => none
  else if api.getPublicKey then
    match reply with
    | .publicKey publicKey => if publicKey = "" then none else some publicKey
    | _ => none
  else none

def readNetwork (api : FreighterApi) (reply : NetworkReply) : Option String :=
  if api.getNetworkDetails then
    match reply with
    | .network network => network
    | _ => none
  else if api.getNetwork then
    match reply with
    | .text network => some network
    | .network network => network
    | .rejected => none
  else none

def WALLET_NOT_INSTALLED : String := "WALLET_NOT_INSTALLED"

/-- An address that is neither null nor empty. -/
def isTruthy : Option String → Bool
  | some address => address != ""
  | none => false

/-! ## §2. The provider. -/

/-- What a call waits for: `connect`, for access, for permission or for an
address; the restore, for the state of the connection or for an address; both,
for the network, when they have set the address; a tick, for address and network. -/
inductive Stage where
  | requesting (api : FreighterApi)
  | allowing (api : FreighterApi)
  | detecting (api : FreighterApi)
  | reading (api : FreighterApi) (connects : Bool)
  | naming (api : FreighterApi) (connects : Bool)
  | polling (api : FreighterApi)
  | over

/-- `wasConnected` is the flag in the session storage, `rendered` the address of
the last render, `effect` that for which the effects ran last; `intervals` are
those that run, and the next one gets the handle `timers`. -/
structure Wallet where
  address : Option String
  network : Option String
  isConnecting : Bool
  isInstalled : Bool
  error : Option String
  pollRef : Option Nat
  freighter : Option FreighterApi
  wasConnected : Bool
  hidden : Bool
  rendered : Option String
  effect : Option (Option String)
  intervals : List Nat
  timers : Nat
  started : Nat
  calls : Nat → Stage
  disconnected : Bool

inductive Action where
  | connect
  | disconnect
  | inject (freighter : Option FreighterApi)
  | accessReply (i : Nat) (reply : Except Thrown AccessReply)
  | allowedReply (i : Nat) (reply : Except Thrown Unit)
  | connectedReply (i : Nat) (reply : Except Thrown Bool)
  | addressReply (i : Nat) (reply : AddressReply)
  | networkReply (i : Nat) (reply : NetworkReply)
  | tick (id : Nat)
  | pollReply (i : Nat) (address : AddressReply) (network : NetworkReply)
  | visibilityChange (hidden : Bool)
  | render
  | runEffects

namespace Wallet

/-- The first render, before its effects. -/
def init (freighter : Option FreighterApi) (wasConnected hidden : Bool) : Wallet :=
  ⟨none, none, false, false, none, none, freighter, wasConnected, hidden, none, none, [], 0, 0, fun _ => .over, false⟩

def goTo (s : Wallet) (i : Nat) (stage : Stage) : Wallet := { s with calls := Function.update s.calls i stage }

/-- One more call waits. -/
def begin (s : Wallet) (stage : Stage) : Wallet := { s.goTo s.started stage with started := s.started + 1 }

def disconnect (s : Wallet) : Wallet :=
  { s with address := none, network := none, error := none, wasConnected := false, disconnected := true }

/-- `connect`, up to the first promise. -/
def connect (s : Wallet) : Wallet :=
  let s := { s with disconnected := false }
  match s.freighter with
  | none => { s with isInstalled := false, error := some WALLET_NOT_INSTALLED }
  | some api =>
      { s with isConnecting := true, error := none }.begin
        (if api.requestAccess then .requesting api else if api.setAllowed then .allowing api else .reading api true)

/-- The `catch` and the `finally` of `connect`. -/
def fail (s : Wallet) (i : Nat) (err : Thrown) : Wallet :=
  { s.goTo i .over with
    error := some (if err.isError then err.text.getD "" else "Failed to connect wallet.")
    isConnecting := false }

/-- `connect` and the restore, with what they have read. -/
def receive (s : Wallet) (i : Nat) (api : FreighterApi) (connects : Bool) (nextAddress : Option String) : Wallet :=
  if isTruthy nextAddress then { s with address := nextAddress }.goTo i (.naming api connects)
  else if connects then s.fail i (.ofMessage "The wallet did not return an address. Please try again.")
  else s.goTo i .over

def accessReply (s : Wallet) (i : Nat) (api : FreighterApi) : Except Thrown AccessReply → Wallet
  | .error err => s.fail i err
  | .ok (.error message) => s.fail i (.ofMessage message)
  | .ok (.address address) => s.receive i api true (some address)
  | .ok (.publicKey publicKey) => s.receive i api true (some publicKey)

def allowedReply (s : Wallet) (i : Nat) (api : FreighterApi) : Except Thrown Unit → Wallet
  | .error err => s.fail i err
  | .ok () => s.goTo i (.reading api true)

def connectedReply (s : Wallet) (i : Nat) (api : FreighterApi) : Except Thrown Bool → Wallet
  | .ok true => s.goTo i (.reading api false)
  | .ok false | .error _ => s.goTo i .over

/-- The end of `connect` and of the restore. -/
def networkReply (s : Wallet) (i : Nat) (connects : Bool) (network : Option String) : Wallet :=
  let s := { s with network }.goTo i .over
  if connects then { s with wasConnected := true, isConnecting := false } else s

/-! The effects. -/

/-- The effect that runs once. -/
def restore (s : Wallet) : Wallet :=
  match s.freighter with
  | none => { s with isInstalled := false }
  | some api =>
      let s := { s with isInstalled := true }
      if s.wasConnected then s.begin (if api.isConnected then .detecting api else .reading api false) else s

def startPolling (s : Wallet) : Wallet :=
  { s with pollRef := some s.timers, intervals := s.timers :: s.intervals, timers := s.timers + 1 }

def stopPolling (s : Wallet) : Wallet :=
  match s.pollRef with
  | some id => { s with pollRef := none, intervals := s.intervals.erase id }
  | none => s

/-- The callback of an interval, up to its promise. -/
def tick (s : Wallet) (id : Nat) : Wallet :=
  if id ∈ s.intervals then
    match s.freighter with
    | none => { s with isInstalled := false }
    | some api => s.begin (.polling api)
  else s

/-- Setting what is set already changes nothing. -/
def pollReply (s : Wallet) (i : Nat) (nextAddress nextNetwork : Option String) : Wallet :=
  { s with address := nextAddress, network := nextNetwork }.goTo i .over

/-- The polling effect, where there is an address. -/
def poll (s : Wallet) : Wallet := if isTruthy s.rendered then s.startPolling else s

/-- The handler of the polling effect is in place. -/
def isListening (s : Wallet) : Bool := isTruthy (s.effect.getD none)

/-- The cleanup of the polling effect. -/
def cleanup (s : Wallet) : Wallet := if s.isListening then s.stopPolling else s

def runEffects (s : Wallet) : Wallet :=
  match s.effect with
  | none => { s.restore with effect := some s.rendered }.poll
  | some address => if address = s.rendered then s else { s.cleanup with effect := some s.rendered }.poll

def visibilityChange (s : Wallet) (hidden : Bool) : Wallet :=
  let s := { s with hidden }
  if s.isListening then if s.hidden then s.stopPolling else s.startPolling else s

/-- An answer is that to one call, and has the form that this waits for. -/
def step (s : Wallet) : Action → Wallet
  | .connect => s.connect
  | .disconnect => s.disconnect
  | .inject freighter => { s with freighter }
  | .accessReply i reply =>
      match s.calls i with
      | .requesting api => s.accessReply i api reply
      | _ => s
  | .allowedReply i reply =>
      match s.calls i with
      | .allowing api => s.allowedReply i api reply
      | _ => s
  | .connectedReply i reply =>
      match s.calls i with
      | .detecting api => s.connectedReply i api reply
      | _ => s
  | .addressReply i reply =>
      match s.calls i with
      | .reading api connects => s.receive i api connects (readAddress api reply)
      | _ => s
  | .networkReply i reply =>
      match s.calls i with
      | .naming api connects => s.networkReply i connects (readNetwork api reply)
      | _ => s
  | .tick id => s.tick id
  | .pollReply i address network =>
      match s.calls i with
      | .polling api => s.pollReply i (readAddress api address) (readNetwork api network)
      | _ => s
  | .visibilityChange hidden => s.visibilityChange hidden
  | .render => { s.runEffects with rendered := s.runEffects.address }
  | .runEffects => s.runEffects

/-! ## §3. What is claimed of it. -/

/-- The effects have run for the address that there is. -/
def EffectsRun (s : Wallet) : Prop := s.rendered = s.address ∧ s.effect = some s.rendered

/-- A disconnected wallet has no address, at most one interval runs, and none
without an address once the effects have run. -/
structure Sticks (s : Wallet) : Prop where
  disconnected : s.disconnected = true → s.address = none
  single : s.intervals.length ≤ 1
  quiet : s.EffectsRun → s.address = none → s.intervals = []

/-- The address that an answer brings. -/
def incoming (s : Wallet) : Action → Option String
  | .accessReply i (.ok (.address address)) | .accessReply i (.ok (.publicKey address)) =>
      match s.calls i with
      | .requesting _ => if address = "" then none else some address
      | _ => none
  | .addressReply i reply =>
      match s.calls i with
      | .reading api _ => (readAddress api reply).filter (· != "")
      | _ => none
  | .pollReply i reply _ =>
      match s.calls i with
      | .polling api => readAddress api reply
      | _ => none
  | _ => none

/-- No answer brings an address to a disconnected wallet; and no interval runs
when the page is told that it is visible. -/
def Careful (s : Wallet) (a : Action) : Prop :=
  (s.disconnected = true → s.incoming a = none)
    ∧ (a = .visibilityChange false → s.isListening = true → s.pollRef = none)

/-! ## §4. What the steps do to the address. -/

variable {s s' : Wallet} {a : Action} {i : Nat}

/-- The intervals and what the effects depend on are left alone. -/
structure SamePolling (s s' : Wallet) : Prop where
  pollRef : s'.pollRef = s.pollRef
  intervals : s'.intervals = s.intervals
  effect : s'.effect = s.effect
  rendered : s'.rendered = s.rendered

theorem SamePolling.refl (s : Wallet) : s.SamePolling s := ⟨rfl, rfl, rfl, rfl⟩

/-- What an answer does: it brings an address, or none. -/
structure Answers (s : Wallet) (a : Action) (s' : Wallet) : Prop where
  polling : s.SamePolling s'
  disconnected : s'.disconnected = s.disconnected
  address : s'.address = s.incoming a ∨ s.incoming a = none ∧ s'.address = s.address

theorem Answers.refl (h : s.incoming a = none) : s.Answers a s := ⟨.refl s, rfl, .inr ⟨h, rfl⟩⟩

theorem answers_fail (err : Thrown) (h : s.incoming a = none) : s.Answers a (s.fail i err) :=
  ⟨⟨rfl, rfl, rfl, rfl⟩, rfl, .inr ⟨h, rfl⟩⟩

theorem answers_goTo (stage : Stage) (h : s.incoming a = none) : s.Answers a (s.goTo i stage) :=
  ⟨⟨rfl, rfl, rfl, rfl⟩, rfl, .inr ⟨h, rfl⟩⟩

/-- An address that is neither null nor empty is set; with another one `connect` fails, and the restore ends. -/
theorem answers_receive (api : FreighterApi) (connects : Bool) {nextAddress : Option String}
    (h : s.incoming a = nextAddress.filter (· != "")) : s.Answers a (s.receive i api connects nextAddress) := by
  cases nextAddress with
  | none =>
      have hnone : s.incoming a = none := h
      cases connects with
      | true => exact answers_fail _ hnone
      | false => exact answers_goTo _ hnone
  | some address =>
      unfold receive
      by_cases hempty : address = ""
      · have hnone : s.incoming a = none := by simp [h, hempty]
        rw [if_neg (by simp [isTruthy, hempty])]
        cases connects with
        | true => exact answers_fail _ hnone
        | false => exact answers_goTo _ hnone
      · have hsome : s.incoming a = some address := by simp [h, Option.filter, hempty]
        rw [if_pos (by simp [isTruthy, hempty])]
        exact ⟨⟨rfl, rfl, rfl, rfl⟩, rfl, .inl hsome.symm⟩

theorem answers_accessReply (s : Wallet) (i : Nat) (reply : Except Thrown AccessReply) :
    s.Answers (.accessReply i reply) (s.step (.accessReply i reply)) := by
  simp only [step]
  split
  · next api hcall =>
      cases reply with
      | error err => exact answers_fail err rfl
      | ok reply =>
          cases reply with
          | error message => exact answers_fail _ rfl
          | address address | publicKey address =>
              apply answers_receive api true
              by_cases hempty : address = "" <;> simp [incoming, hcall, Option.filter, hempty]
  · next hcall =>
      apply Answers.refl
      simp only [incoming]
      split <;> simp_all

theorem answers_addressReply (s : Wallet) (i : Nat) (reply : AddressReply) :
    s.Answers (.addressReply i reply) (s.step (.addressReply i reply)) := by
  simp only [step]
  split
  · next api connects hcall => exact answers_receive api connects (by simp [incoming, hcall])
  · next hcall =>
      apply Answers.refl
      simp only [incoming]

theorem answers_pollReply (s : Wallet) (i : Nat) (address : AddressReply) (network : NetworkReply) :
    s.Answers (.pollReply i address network) (s.step (.pollReply i address network)) := by
  simp only [step]
  split
  · next api hcall =>
      -- a tick sets what it has read, be it null
      refine ⟨⟨rfl, rfl, rfl, rfl⟩, rfl, .inl ?_⟩
      simp [incoming, hcall, pollReply, goTo]
  · next hcall =>
      apply Answers.refl
      simp only [incoming]

/-- The effects that an action can have. -/
inductive Does (s : Wallet) : Action → Wallet → Prop
  | connects {s' : Wallet} : s.SamePolling s' → s'.address = s.address → s'.disconnected = false → Does s .connect s'
  | disconnects : Does s .disconnect s.disconnect
  | answers {a : Action} {s' : Wallet} : (∀ hidden, a ≠ .visibilityChange hidden) → s.Answers a s' → Does s a s'
  | sees (hidden : Bool) : Does s (.visibilityChange hidden) (s.visibilityChange hidden)
  | renders : Does s .render { s.runEffects with rendered := s.runEffects.address }
  | runs : Does s .runEffects s.runEffects

theorem does_step (s : Wallet) (a : Action) : s.Does a (s.step a) := by
  cases a with
  | connect =>
      simp only [step, connect]
      split <;> exact .connects ⟨rfl, rfl, rfl, rfl⟩ rfl rfl
  | disconnect => exact .disconnects
  | inject freighter => exact .answers nofun ⟨⟨rfl, rfl, rfl, rfl⟩, rfl, .inr ⟨rfl, rfl⟩⟩
  | accessReply i reply => exact .answers nofun (answers_accessReply s i reply)
  | addressReply i reply => exact .answers nofun (answers_addressReply s i reply)
  | pollReply i address network => exact .answers nofun (answers_pollReply s i address network)
  | allowedReply i reply =>
      simp only [step]
      split
      · cases reply with
        | error err => exact .answers nofun (answers_fail err rfl)
        | ok allowed => exact .answers nofun (answers_goTo _ rfl)
      · exact .answers nofun (.refl rfl)
  | connectedReply i reply =>
      simp only [step]
      split
      · unfold connectedReply
        split <;> exact .answers nofun (answers_goTo _ rfl)
      · exact .answers nofun (.refl rfl)
  | networkReply i reply =>
      simp only [step]
      split
      · unfold networkReply
        dsimp only
        split <;> exact .answers nofun ⟨⟨rfl, rfl, rfl, rfl⟩, rfl, .inr ⟨rfl, rfl⟩⟩
      · exact .answers nofun (.refl rfl)
  | tick id =>
      simp only [step, tick]
      split
      · split <;> exact .answers nofun ⟨⟨rfl, rfl, rfl, rfl⟩, rfl, .inr ⟨rfl, rfl⟩⟩
      · exact .answers nofun (.refl rfl)
  | visibilityChange hidden => exact .sees hidden
  | render => exact .renders
  | runEffects => exact .runs

/-! ## §5. What the steps do to the intervals. -/

/-- The address is left alone, and so are what was rendered of it and the calls of `disconnect`. -/
structure SameAddress (s s' : Wallet) : Prop where
  address : s'.address = s.address
  disconnected : s'.disconnected = s.disconnected
  rendered : s'.rendered = s.rendered

theorem SameAddress.refl (s : Wallet) : s.SameAddress s := ⟨rfl, rfl, rfl⟩

theorem sameAddress_stopPolling (s : Wallet) : s.SameAddress s.stopPolling := by
  unfold stopPolling
  split <;> exact ⟨rfl, rfl, rfl⟩

theorem sameAddress_cleanup (s : Wallet) : s.SameAddress s.cleanup := by
  unfold cleanup
  split
  · exact sameAddress_stopPolling s
  · exact .refl s

theorem sameAddress_poll (s : Wallet) : s.SameAddress s.poll := by
  unfold poll
  split <;> exact ⟨rfl, rfl, rfl⟩

theorem sameAddress_restore (s : Wallet) : s.SameAddress s.restore := by
  unfold restore
  split
  · exact ⟨rfl, rfl, rfl⟩
  · dsimp only
    split <;> exact ⟨rfl, rfl, rfl⟩

theorem sameAddress_runEffects (s : Wallet) : s.SameAddress s.runEffects := by
  unfold runEffects
  split
  · have hrestore := sameAddress_restore s
    have hpoll := sameAddress_poll { s.restore with effect := some s.rendered }
    exact ⟨hpoll.address.trans hrestore.address, hpoll.disconnected.trans hrestore.disconnected,
      hpoll.rendered.trans hrestore.rendered⟩
  · split
    · exact .refl s
    · have hcleanup := sameAddress_cleanup s
      have hpoll := sameAddress_poll { s.cleanup with effect := some s.rendered }
      exact ⟨hpoll.address.trans hcleanup.address, hpoll.disconnected.trans hcleanup.disconnected,
        hpoll.rendered.trans hcleanup.rendered⟩

theorem sameAddress_visibilityChange (s : Wallet) (hidden : Bool) : s.SameAddress (s.visibilityChange hidden) := by
  simp only [visibilityChange]
  split
  · split
    · have hstop := sameAddress_stopPolling { s with hidden }
      exact ⟨hstop.address, hstop.disconnected, hstop.rendered⟩
    · exact ⟨rfl, rfl, rfl⟩
  · exact ⟨rfl, rfl, rfl⟩

/-- The interval that runs is the one that is remembered, while the handler is in place. -/
structure Polling (s : Wallet) : Prop where
  intervals : s.intervals = s.pollRef.toList
  listening : s.pollRef.isSome = true → s.isListening = true

theorem Polling.same (h : s.Polling) (hsame : s.SamePolling s') : s'.Polling := by
  constructor
  · rw [hsame.intervals, hsame.pollRef]
    exact h.intervals
  · rw [hsame.pollRef, isListening, hsame.effect]
    exact h.listening

/-- Nothing runs, and nothing is remembered. -/
structure Stopped (s : Wallet) : Prop where
  pollRef : s.pollRef = none
  intervals : s.intervals = []

theorem Stopped.polling (h : s.Stopped) : s.Polling :=
  ⟨by rw [h.intervals, h.pollRef]; rfl, by simp [h.pollRef]⟩

theorem Polling.stop (h : s.Polling) : s.stopPolling.Stopped := by
  have hintervals := h.intervals
  unfold stopPolling
  split
  · next id hid =>
      rw [hid] at hintervals
      exact ⟨rfl, by simp [hintervals]⟩
  · next hnone =>
      rw [hnone] at hintervals
      exact ⟨hnone, by simp [hintervals]⟩

theorem Stopped.start (h : s.Stopped) (hlistening : s.isListening = true) : s.startPolling.Polling :=
  ⟨by simp [startPolling, h.intervals], fun _ => hlistening⟩

theorem Polling.cleanup (h : s.Polling) : s.cleanup.Stopped := by
  unfold Wallet.cleanup
  split
  · exact h.stop
  · next hnot =>
      have hnone : s.pollRef = none := by
        by_contra hsome
        exact hnot (h.listening (Option.isSome_iff_ne_none.mpr hsome))
      exact ⟨hnone, by rw [h.intervals, hnone]; rfl⟩

/-- The polling effect starts an interval where none runs, and puts its handler in place. -/
theorem Stopped.poll (h : s.Stopped) (heffect : s.effect = some s.rendered) : s.poll.Polling := by
  unfold Wallet.poll
  split
  · next htruthy => exact h.start (by simp [isListening, heffect, htruthy])
  · exact h.polling

theorem samePolling_restore (s : Wallet) : s.SamePolling s.restore := by
  unfold restore
  split
  · exact ⟨rfl, rfl, rfl, rfl⟩
  · dsimp only
    split <;> exact ⟨rfl, rfl, rfl, rfl⟩

theorem Polling.runEffects (h : s.Polling) : s.runEffects.Polling := by
  unfold Wallet.runEffects
  split
  · next heffect =>
      -- the effects run for the first time, and there was no handler
      have hstopped : s.Stopped := by
        have hcleanup := h.cleanup
        rwa [Wallet.cleanup, if_neg (by simp [isListening, heffect, isTruthy])] at hcleanup
      have hsame := samePolling_restore s
      refine Stopped.poll ⟨hsame.pollRef.trans hstopped.pollRef, hsame.intervals.trans hstopped.intervals⟩ ?_
      show some s.rendered = some s.restore.rendered
      rw [hsame.rendered]
  · next address heffect =>
      split
      · exact h
      · have hstopped := h.cleanup
        refine Stopped.poll ⟨hstopped.pollRef, hstopped.intervals⟩ ?_
        show some s.rendered = some s.cleanup.rendered
        rw [(sameAddress_cleanup s).rendered]

/-! ## §6. The invariant. -/

/-- A disconnected wallet has no address, and what runs is what is remembered. -/
structure Inv (s : Wallet) : Prop where
  disconnected : s.disconnected = true → s.address = none
  polling : s.Polling

theorem inv_init (freighter : Option FreighterApi) (wasConnected hidden : Bool) :
    (init freighter wasConnected hidden).Inv := ⟨nofun, rfl, nofun⟩

theorem Inv.sticks (h : s.Inv) : s.Sticks := by
  constructor
  · exact h.disconnected
  · rw [h.polling.intervals]
    cases s.pollRef <;> simp
  · rintro ⟨hrendered, heffect⟩ haddress
    -- the effects have run for no address, so there is no handler
    have hnot : s.isListening = false := by simp [isListening, heffect, hrendered, haddress, isTruthy]
    have hnone : s.pollRef = none := by
      by_contra hsome
      have hlistening := h.polling.listening (Option.isSome_iff_ne_none.mpr hsome)
      simp [hnot] at hlistening
    rw [h.polling.intervals, hnone]
    rfl

theorem Inv.sameAddress (h : s.Inv) (hsame : s.SameAddress s') (hpolling : s'.Polling) : s'.Inv := by
  refine ⟨?_, hpolling⟩
  rw [hsame.disconnected, hsame.address]
  exact h.disconnected

/-- The page is told whether it is visible; if it is, no interval runs. -/
theorem Polling.visibilityChange (h : s.Polling) {hidden : Bool}
    (hcareful : hidden = false → s.isListening = true → s.pollRef = none) : (s.visibilityChange hidden).Polling := by
  have hhidden : ({ s with hidden } : Wallet).Polling := ⟨h.intervals, h.listening⟩
  simp only [Wallet.visibilityChange]
  split
  · next hlistening =>
      split
      · exact hhidden.stop.polling
      · next hvisible =>
          have hnone := hcareful (by simpa using hvisible) hlistening
          refine Stopped.start ⟨hnone, ?_⟩ hlistening
          show s.intervals = []
          rw [h.intervals, hnone]
          rfl
  · exact hhidden

/-- **A careful step** keeps the invariant. -/
theorem Inv.after (h : s.Inv) (hcareful : s.Careful a) (hdoes : s.Does a s') : s'.Inv := by
  cases hdoes with
  | connects hsame haddress hconnected => exact ⟨by simp [hconnected], h.polling.same hsame⟩
  | disconnects => exact ⟨fun _ => rfl, h.polling.intervals, h.polling.listening⟩
  | answers _ hanswers =>
      refine ⟨fun hdisconnected => ?_, h.polling.same hanswers.polling⟩
      rw [hanswers.disconnected] at hdisconnected
      rcases hanswers.address with haddress | ⟨-, haddress⟩
      · rw [haddress, hcareful.1 hdisconnected]
      · rw [haddress, h.disconnected hdisconnected]
  | sees hidden =>
      refine h.sameAddress (sameAddress_visibilityChange s hidden) (h.polling.visibilityChange fun hvisible => ?_)
      subst hvisible
      exact hcareful.2 rfl
  | renders =>
      have hpolling := h.polling.runEffects
      have hrun := h.sameAddress (sameAddress_runEffects s) hpolling
      exact ⟨hrun.disconnected, hpolling.intervals, hpolling.listening⟩
  | runs => exact h.sameAddress (sameAddress_runEffects s) h.polling.runEffects

/-- **Another step** breaks the promise at once. -/
theorem careful_of_sticks (h : s.Inv) (hdoes : s.Does a s') (hsticks : s'.Sticks) : s.Careful a := by
  cases hdoes with
  | connects | disconnects | renders | runs => exact ⟨fun _ => rfl, nofun⟩
  | answers hnot hanswers =>
      refine ⟨fun hdisconnected => ?_, fun hvisible => absurd hvisible (hnot false)⟩
      have hnone := hsticks.disconnected (hanswers.disconnected.trans hdisconnected)
      rcases hanswers.address with haddress | ⟨hquiet, -⟩
      · rw [← haddress, hnone]
      · exact hquiet
  | sees hidden =>
      refine ⟨fun _ => rfl, fun hvisible hlistening => ?_⟩
      obtain rfl : hidden = false := by simpa using hvisible
      -- one interval more than there was
      have hstart : s.visibilityChange false = { s with hidden := false }.startPolling := by
        simp only [Wallet.visibilityChange]
        exact if_pos hlistening
      have hsingle := hsticks.single
      rw [hstart] at hsingle
      simp only [startPolling, h.polling.intervals, List.length_cons] at hsingle
      cases hpollRef : s.pollRef with
      | none => rfl
      | some id => simp [hpollRef] at hsingle

/-! ## §7. Runs. -/

/-- The wallet after some actions. -/
def after (freighter : Option FreighterApi) (wasConnected hidden : Bool) (actions : List Action) : Wallet :=
  run step (init freighter wasConnected hidden) actions

/-- **Disconnecting sticks**, and at most one interval runs, in all states of a run
exactly when its steps are careful. -/
theorem disconnect_sticks_iff (freighter : Option FreighterApi) (wasConnected hidden : Bool) (actions : List Action) :
    (∀ as, as <+: actions → (after freighter wasConnected hidden as).Sticks)
      ↔ ∀ t ∈ trace step (init freighter wasConnected hidden) actions, t.pre.Careful t.act := by
  have hinit := inv_init freighter wasConnected hidden
  refine throughout_iff step hinit hinit.sticks (fun s a h => ?_) (fun s a h hcareful => ?_) actions
  · have hdoes := s.does_step a
    exact ⟨careful_of_sticks h hdoes, fun hcareful => (h.after hcareful hdoes).sticks⟩
  · exact h.after hcareful (s.does_step a)

/-- An extension with all methods. -/
def allMethods : FreighterApi := ⟨true, true, true, true, true, true, true⟩

/-- A tick was waiting when `disconnect` was called; a page that was hidden when the
polling began is shown; and then one of its two intervals goes on without an address. -/
theorem comes_back_and_polls_twice :
    ¬ (after (some allMethods) false false [.runEffects, .connect, .accessReply 0 (.ok (.address "GA")), .render,
        .runEffects, .tick 0, .disconnect, .pollReply 1 (.address "GA") (.network (some "TESTNET"))]).Sticks
      ∧ ¬ (after (some allMethods) false true [.runEffects, .connect, .accessReply 0 (.ok (.address "GA")), .render,
        .runEffects, .visibilityChange false]).Sticks
      ∧ ¬ (after (some allMethods) false true [.runEffects, .connect, .accessReply 0 (.ok (.address "GA")), .render,
        .runEffects, .visibilityChange false, .disconnect, .render, .runEffects]).Sticks := by
  refine ⟨fun h => ?_, fun h => ?_, fun h => ?_⟩
  · cases h.disconnected rfl
  · exact absurd h.single (by decide)
  · cases h.quiet ⟨rfl, rfl⟩ rfl

end Wallet

end PredictIQ.Frontend.WalletProvider
