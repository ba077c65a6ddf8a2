/-
  PredictIQ.Tts.CachedAudio: a job served from the cache writes the audio that
  its own provider produces for it.

  The key of the cache is made of the requested provider, the voice id and the
  text.  What is stored under it is what the storing job got, perhaps from the
  fallback, and Google is also sent the language.  `fillsOf` says which job
  last stored an entry, and who provided the audio; every hit is right in
  every run in which that job agrees with the one that is served.
-/
import PredictIQ.Foundation.Separator
import PredictIQ.Foundation.TaskHistory
import PredictIQ.Tts.JobStages

namespace PredictIQ.Tts

open Foundation Monitor

/-! ## §1. What a process has heard. -/

def givenJob : Exchange Reply TtsError → Option TTSJob
  | ⟨.createJob _, .ok made⟩ => some made.2
  | _ => none

def givenSource : Exchange Reply TtsError → Option Source
  | ⟨.callProvider p _ _, .ok _⟩ => some (.provider p)
  | ⟨.localCacheGet _, .ok (some _)⟩ => some .cache
  | ⟨.sharedCacheGet _, .ok (some _)⟩ => some .cache
  | _ => none

/-- The job that a process has created. -/
def jobOf (heard : List (Exchange Reply TtsError)) : Option TTSJob := heard.findSome? givenJob

/-- Where the last audio it was given comes from. -/
def sourceOf (heard : List (Exchange Reply TtsError)) : Option Source := heard.reverse.findSome? givenSource

/-! ## §2. Who stored what. -/

/-- A job, and the provider that its audio is from. -/
structure Fill where
  spec : JobSpec
  provider : TTSProvider

/-- The audio that is stored. -/
def Fill.audio (W : Setting) (fill : Fill) : Buffer := W.audio fill.provider fill.spec.text fill.spec.voice

/-- The audio is from the provider that a job requests, for its text and voice
id, and for Google its language. -/
def Fill.Agrees (fill : Fill) (spec : JobSpec) : Prop :=
  fill.provider = spec.provider ∧ fill.spec.text = spec.text ∧ fill.spec.voice.voiceId = spec.voice.voiceId
    ∧ (spec.provider = .google → fill.spec.voice.language = spec.voice.language)

/-- A place in one of the two caches. -/
inductive Slot where
  | own (key : String)
  | shared (key : String)
  deriving DecidableEq

/-- The job and the provider of the audio that a process has in hand. -/
def fillOf (heard : List (Exchange Reply TtsError)) : Option Fill :=
  match jobOf heard, sourceOf heard with
  | some job, some (.provider p) => some ⟨job.spec, p⟩
  | _, _ => none

/-- Where a question looks for audio. -/
def Command.looksIn : Command → Option Slot
  | .localCacheGet key => some (.own key)
  | .sharedCacheGet key => some (.shared key)
  | _ => none

def State.held (s : State) : Slot → Option Buffer
  | .own key => (s.cache.store.lookup key).map CacheEntry.buffer
  | .shared key => (s.redis.cache.lookup key).map Expiring.value

section Fills

variable (W : Setting) (cfg : TTSConfig)

/-- Where a question stores audio; a buffer that is too large is not stored. -/
def Command.storesIn : Command → Option (Slot × Buffer)
  | .localCacheSet key buffer => if cfg.cache.any fun cache => !cache.isTooLarge buffer then some (.own key, buffer) else none
  | .sharedCacheSet key buffer _ => some (.shared key, buffer)
  | _ => none

/-- What a look-up finds. -/
def State.finds (s : State) : Slot → Option Buffer
  | .own key => cfg.cache.bind fun cache => (s.cache.get cache key s.nowMs).1
  | .shared key => s.sharedAudio key

/-- Who filled the slots, after one more step; the log tells whether it was carried out. -/
def fillsAfter (fills : Slot → Option Fill) (t : Transition System Action) : Slot → Option Fill :=
  match t.act with
  | .answer p _ | .lose p _ _ =>
      match t.pre.procs p with
      | some l =>
          match l.question.storesIn cfg with
          | some stored =>
              if t.pre.log.length < t.post.log.length then Function.update fills stored.1 (fillOf l.heard) else fills
          | none => fills
      | none => fills
  | _ => fills

/-- Who last filled the slots in a history. -/
def fillsOf (history : List (Transition System Action)) : Slot → Option Fill :=
  history.foldl (fillsAfter cfg) fun _ => none

/-- A job that is served finds what an agreeing job has stored. -/
def HitAgrees (history : List (Transition System Action)) (t : Transition System Action) : Prop :=
  ∀ p o l slot job, t.act = .answer p o → t.pre.procs p = some l → l.question.looksIn = some slot →
    (t.pre.store.finds cfg slot).isSome = true → jobOf l.heard = some job →
    ∃ fill, fillsOf cfg history slot = some fill ∧ fill.Agrees job.spec

/-- What is asked of a run: what a job served from the cache writes is what its
own provider produces for it. -/
def CacheFaithful (now : Int) (as : List Action) : Prop :=
  ∀ t ∈ trace (step W cfg) (Machine.idle (State.initial now)) as, ∀ p l job path buffer, t.act.asker = some p →
    t.pre.procs p = some l → l.question = .writeFile path buffer → jobOf l.heard = some job →
    sourceOf l.heard = some .cache → buffer = W.audio job.spec.provider job.spec.text job.spec.voice

end Fills

section Heard

variable {W : Setting} {cfg : TTSConfig} {heard : List (Exchange Reply TtsError)} {x : Exchange Reply TtsError}
  {φ : Stage}

theorem jobOf_concat : jobOf (heard ++ [x]) = (jobOf heard).or (givenJob x) := by
  unfold jobOf
  rw [List.findSome?_append]
  simp

theorem sourceOf_concat : sourceOf (heard ++ [x]) = (givenSource x).or (sourceOf heard) := by
  unfold sourceOf
  rw [List.reverse_append]
  simp [List.findSome?_cons]
  cases givenSource x <;> rfl

/-- What a stage remembers of what was heard. -/
def Stage.Remembers (heard : List (Exchange Reply TtsError)) : Stage → Prop
  | .idle => jobOf heard = none
  | .created w => ∃ job, jobOf heard = some job ∧ job.spec = w.spec
  | .working w given =>
      (∃ job, jobOf heard = some job ∧ job.spec = w.spec) ∧ ∀ given', given = some given' → sourceOf heard = some given'.1
  | _ => True

/-- An exchange that brings no job and no audio. -/
theorem Stage.Remembers.concat (h : φ.Remembers heard) (hjob : φ = .idle → givenJob x = none) (hsource : givenSource x = none) :
    φ.Remembers (heard ++ [x]) := by
  have hkept : ∀ job, jobOf heard = some job → jobOf (heard ++ [x]) = some job := fun job hheard => by
    rw [jobOf_concat, hheard]
    rfl
  cases φ with
  | idle =>
      show jobOf _ = none
      rw [jobOf_concat, show jobOf heard = none from h, hjob rfl]
      rfl
  | created w =>
      obtain ⟨job, hheard, hspec⟩ := h
      exact ⟨job, hkept job hheard, hspec⟩
  | working w given =>
      obtain ⟨⟨job, hheard, hspec⟩, hgiven⟩ := h
      refine ⟨⟨job, hkept job hheard, hspec⟩, fun given' heq => ?_⟩
      rw [sourceOf_concat, hsource]
      exact hgiven given' heq
  | saved w given | finished w | stranded w | seen id path | failed | excused => trivial

/-- Audio that is heard is remembered. -/
theorem Stage.Remembers.hear {source : Source} (buffer : Buffer) (h : φ.Remembers heard) (hjob : givenJob x = none)
    (hsource : givenSource x = some source) : (φ.hear source buffer).Remembers (heard ++ [x]) := by
  have hjobs : jobOf (heard ++ [x]) = jobOf heard := by
    rw [jobOf_concat, hjob]
    exact Option.or_none
  cases φ with
  | idle => exact hjobs.trans h
  | created w =>
      obtain ⟨job, hheard, hspec⟩ := h
      exact ⟨job, hjobs.trans hheard, hspec⟩
  | working w given =>
      obtain ⟨⟨job, hheard, hspec⟩, -⟩ := h
      refine ⟨⟨job, hjobs.trans hheard, hspec⟩, fun given' heq => ?_⟩
      cases heq
      rw [sourceOf_concat, hsource]
      rfl
  | saved w given | finished w | stranded w | seen id path | failed | excused => trivial

/-- **One exchange.** -/
theorem Stage.Remembers.next (h : φ.Remembers heard) (x : Exchange Reply TtsError) :
    (φ.next x.question x.answer).Remembers (heard ++ [x]) := by
  obtain ⟨q, r⟩ := x
  cases q with
  | incr key | pexpire key windowMs | mkdir path | sharedCacheSet key buffer ttlMs =>
      cases r <;> exact h.concat (fun _ => rfl) rfl
  | checkRate key windowMs | localCacheSet key buffer | resolve id path =>
      cases r with
      | error e => trivial
      | ok v => exact h.concat (fun _ => rfl) rfl
  | createJob spec =>
      cases r with
      | error e => trivial
      | ok made =>
          cases φ with
          | idle =>
              refine ⟨made.2, ?_, rfl⟩
              rw [jobOf_concat, show jobOf heard = none from h]
              rfl
          | created w | working w given | saved w given | finished w | stranded w | seen id path | failed | excused =>
              exact h.concat nofun rfl
  | setProcessing ref =>
      cases r with
      | error e => trivial
      | ok v =>
          cases φ with
          | created w =>
              obtain ⟨job, hheard, hspec⟩ := h
              refine ⟨⟨job, ?_, hspec⟩, nofun⟩
              rw [jobOf_concat, hheard]
              rfl
          | idle | working w given | saved w given | finished w | stranded w | seen id path | failed | excused =>
              exact h.concat (fun _ => rfl) rfl
  | callProvider p text voice =>
      cases r with
      | error e => exact h.concat (fun _ => rfl) rfl
      | ok buffer => exact h.hear buffer rfl rfl
  | localCacheGet key =>
      rcases r with e | _ | buffer
      · trivial
      · exact h.concat (fun _ => rfl) rfl
      · exact h.hear buffer rfl rfl
  | sharedCacheGet key =>
      rcases r with e | _ | buffer
      · exact h.concat (fun _ => rfl) rfl
      · exact h.concat (fun _ => rfl) rfl
      · exact h.hear buffer rfl rfl
  | writeFile path buffer =>
      cases r with
      | error e => exact h.concat (fun _ => rfl) rfl
      | ok v =>
          cases φ with
          | working w given =>
              cases given with
              | none => exact h.concat (fun _ => rfl) rfl
              | some given => trivial
          | idle | created w | saved w given | finished w | stranded w | seen id path | failed | excused =>
              exact h.concat (fun _ => rfl) rfl
  | setDone ref path =>
      cases r with
      | error e => trivial
      | ok v =>
          cases φ with
          | saved w given => trivial
          | idle | created w | working w given | finished w | stranded w | seen id path | failed | excused =>
              exact h.concat (fun _ => rfl) rfl
  | setJob ref =>
      cases r with
      | ok v => exact h.concat (fun _ => rfl) rfl
      | error e =>
          cases φ with
          | finished w => trivial
          | idle | created w | working w given | saved w given | stranded w | seen id path | failed | excused =>
              exact h.concat (fun _ => rfl) rfl
  | failJob id message =>
      cases r with
      | error e => trivial
      | ok v =>
          cases φ with
          | working w given | saved w given | stranded w => trivial
          | idle | created w | finished w | seen id path | failed | excused => exact h.concat (fun _ => rfl) rfl
  | lookupJob id =>
      cases r with
      | error e => trivial
      | ok found =>
          cases φ with
          | idle =>
              have hidle : Stage.Remembers (heard ++ [⟨.lookupJob id, .ok found⟩]) .idle := h.concat (fun _ => rfl) rfl
              show (Stage.see id found.1 .idle).Remembers _
              unfold Stage.see
              cases found.1 with
              | none => exact hidle
              | some job =>
                  dsimp only
                  split
                  · trivial
                  · exact hidle
          | created w | working w given | saved w given | finished w | stranded w | seen id path | failed | excused =>
              exact h.concat (fun _ => rfl) rfl

theorem remembers_phaseAfter (heard : List (Exchange Reply TtsError)) :
    (Machine.phaseAfter (stageMonitor W cfg) heard).Remembers heard := by
  induction heard using List.reverseRecOn with
  | nil => rfl
  | append_singleton heard x ih =>
      rw [Machine.phaseAfter_concat]
      exact ih.next x

end Heard

/-! ## §3. What the caches hold. -/

section Holdings

variable {W : Setting} {cfg : TTSConfig} {s s' : State} {o : Choice} {slot : Slot} {buffer : Buffer}

/-- What is found is held. -/
theorem held_of_finds (h : s.finds cfg slot = some buffer) : s.held slot = some buffer := by
  cases slot with
  | own key =>
      obtain ⟨cache, -, hget⟩ := Option.bind_eq_some_iff.mp h
      show (s.cache.store.lookup key).map CacheEntry.buffer = some buffer
      unfold AudioCache.get at hget
      cases hlookup : s.cache.store.lookup key with
      | none =>
          rw [hlookup] at hget
          cases hget
      | some entry =>
          rw [hlookup] at hget
          dsimp only at hget
          split at hget
          · cases hget
          · exact hget
  | shared key =>
      show (s.redis.cache.lookup key).map Expiring.value = some buffer
      obtain ⟨entry, hentry, hvalue⟩ := Option.map_eq_some_iff.mp h
      rw [(Option.filter_eq_some_iff.mp hentry).1]
      exact congrArg some hvalue

/-- **What is held after a question**: what it stores, and what was held. -/
theorem held_exec {q : Command} {v : Reply q} (hexec : exec W cfg o s q = some (v, s')) (hheld : s'.held slot = some buffer) :
    q.storesIn cfg = some (slot, buffer) ∨ (s.held slot = some buffer ∧ ∀ b, q.storesIn cfg ≠ some (slot, b)) := by
  cases q with
  | localCacheGet key =>
      refine .inr ⟨?_, fun _ hstores => by cases hstores⟩
      have hcall : s.cacheCall cfg (fun cache c => c.call cache o.rounds (.get key s.nowMs)) = some (v, s') := hexec
      unfold State.cacheCall at hcall
      split at hcall
      · cases hcall
        exact hheld
      · rename_i cache _
        cases hcall
        cases slot with
        | shared key' => exact hheld
        | own key' =>
            -- a look-up deletes an entry, or counts a hit of it
            have hget : ((s.cache.get cache key s.nowMs).2.store.lookup key').map CacheEntry.buffer = some buffer := hheld
            rw [AudioCache.lookup_get] at hget
            show (s.cache.store.lookup key').map CacheEntry.buffer = some buffer
            split at hget
            · rename_i hkey
              subst hkey
              rw [Option.map_map] at hget
              obtain ⟨entry, hentry, rfl⟩ := Option.map_eq_some_iff.mp hget
              rw [(Option.filter_eq_some_iff.mp hentry).1]
              rfl
            · exact hget
  | localCacheSet key b =>
      obtain ⟨⟨result, s₁⟩, hcall, hs₁⟩ := Option.map_eq_some_iff.mp hexec
      cases hs₁
      unfold State.cacheCall at hcall
      split at hcall
      · rename_i hnone
        cases hcall
        exact .inr ⟨hheld, by simp [Command.storesIn, hnone]⟩
      · rename_i cache hcache
        obtain ⟨⟨result', c'⟩, hset, hs'⟩ := Option.map_eq_some_iff.mp hcall
        cases hs'
        obtain ⟨c₁, hset, hc₁⟩ := Option.map_eq_some_iff.mp hset
        cases hc₁
        cases slot with
        | shared key' =>
            refine .inr ⟨hheld, fun b' hstores => ?_⟩
            simp only [Command.storesIn] at hstores
            split at hstores <;> cases hstores
        | own key' =>
            obtain ⟨entry, hlookup, rfl⟩ := Option.map_eq_some_iff.mp hheld
            rcases AudioCache.lookup_set hset hlookup with ⟨rfl, hfits, rfl⟩ | ⟨hout, hold⟩
            · exact .inl (by simp [Command.storesIn, hcache, hfits])
            · refine .inr ⟨by rw [State.held, hold]; rfl, fun b' hstores => ?_⟩
              simp only [Command.storesIn, hcache, Option.any_some] at hstores
              split at hstores
              · rename_i hfits
                cases hstores
                rw [hout rfl] at hfits
                cases hfits
              · cases hstores
  | sharedCacheSet key b ttlMs =>
      cases hexec
      cases slot with
      | own key' => exact .inr ⟨hheld, fun _ hstores => by cases hstores⟩
      | shared key' =>
          have hlookup : ((s.redis.cache.insert key ⟨b, s.nowMs + ttlMs⟩).lookup key').map Expiring.value = some buffer := hheld
          rw [Store.lookup_insert_eq] at hlookup
          split at hlookup
          · rename_i hkey
            cases hlookup
            exact .inl (by rw [hkey]; rfl)
          · rename_i hkey
            refine .inr ⟨hlookup, fun b' hstores => ?_⟩
            cases hstores
            exact hkey rfl
  | incr key | pexpire key windowMs =>
      simp only [exec] at hexec
      split at hexec <;> cases hexec <;> exact .inr ⟨hheld, fun _ hstores => by cases hstores⟩
  | setJob ref =>
      simp only [exec] at hexec
      split at hexec
      · cases hexec
        exact .inr ⟨hheld, fun _ hstores => by cases hstores⟩
      · cases hexec
  | failJob id message =>
      simp only [exec] at hexec
      split at hexec <;> cases hexec <;> exact .inr ⟨hheld, fun _ hstores => by cases hstores⟩
  | checkRate key windowMs | createJob spec | setProcessing ref | sharedCacheGet key | callProvider p text voice
  | mkdir path | writeFile path b | setDone ref path | lookupJob id | resolve id path =>
      cases hexec
      exact .inr ⟨hheld, fun _ hstores => by cases hstores⟩

end Holdings

/-! ## §4. Every run. -/

section Runs

variable (W : Setting)

/-- Audio in hand is what a provider produces for the job: the requested one, if it is from the cache. -/
def Stage.Genuine : Stage → Prop
  | .working w (some (.cache, buffer)) => buffer = W.audio w.spec.provider w.spec.text w.spec.voice
  | .working w (some (.provider p, buffer)) => buffer = W.audio p w.spec.text w.spec.voice
  | .excused => False
  | _ => True

/-- The caches hold what the fills say, and audio in hand is genuine. -/
structure Genuine (fills : Slot → Option Fill) (stages : Nat → Stage) (s : State) : Prop where
  held : ∀ slot buffer, s.held slot = some buffer → ∃ fill, fills slot = some fill ∧ buffer = fill.audio W
  sound : ∀ p, (stages p).Genuine W

variable {W} {cfg : TTSConfig} {fills : Slot → Option Fill} {stages : Nat → Stage} {s s' : State} {m : System}
  {a : Action} {p : Nat} {φ : Stage} {spec : JobSpec}

/-- **The audio of an agreeing job** is what the own provider produces. -/
theorem Fill.Agrees.audio_eq {fill : Fill} (h : fill.Agrees spec) :
    fill.audio W = W.audio spec.provider spec.text spec.voice := by
  obtain ⟨hprovider, htext, hvoice, hlanguage⟩ := h
  unfold Fill.audio Setting.audio
  rw [hprovider, htext, hvoice]
  cases hgoogle : spec.provider with
  | elevenlabs => rfl
  | google => simp only [hlanguage hgoogle]

/-- **What can meet under one key**: the jobs request one provider, and agree
but for the fallback, the language, and a voice id that has a colon in it. -/
theorem agrees_iff_of_cacheKey {fill : Fill} (hkey : W.cacheKey fill.spec.text fill.spec.voice.voiceId fill.spec.provider
      = W.cacheKey spec.text spec.voice.voiceId spec.provider) :
    fill.Agrees spec ↔ fill.provider = fill.spec.provider
      ∧ (spec.provider = .google → fill.spec.voice.language = spec.voice.language)
      ∧ ¬Continues ":" fill.spec.voice.voiceId spec.voice.voiceId
      ∧ ¬Continues ":" spec.voice.voiceId fill.spec.voice.voiceId := by
  have hcolon : IsSeparator ":" ':' := rfl
  have hname : ∀ provider : TTSProvider, ':' ∉ provider.name.toList := by
    intro provider
    cases provider <;> decide
  have hassoc : ∀ a b c : String, a ++ ":" ++ b ++ ":" ++ c = a ++ ":" ++ (b ++ ":" ++ c) := fun a b c => by
    simp only [String.append_assoc]
  have hjoined := W.sha256Hex_injective hkey
  rw [hassoc, hassoc] at hjoined
  obtain ⟨hprovider, hrest⟩ := joined_inj hcolon (hname _) (hname _) hjoined
  have hsame : fill.spec.provider = spec.provider := by
    cases hfill : fill.spec.provider <;> cases hspec : spec.provider <;> simp [hfill, hspec, TTSProvider.name] at hprovider ⊢
  have hparts := eq_iff_of_joined hcolon hrest
  unfold Fill.Agrees
  rw [hsame, ← hparts]
  exact ⟨fun ⟨hp, htext, hvoice, hlanguage⟩ => ⟨hp, hlanguage, hvoice, htext⟩,
    fun ⟨hp, hlanguage, hvoice, htext⟩ => ⟨hp, htext, hvoice, hlanguage⟩⟩

/-- A process comes to another stage. -/
theorem Genuine.move (h : Genuine W fills stages s) (hφ : φ.Genuine W) :
    Genuine W fills (Function.update stages p φ) s := by
  refine ⟨h.held, fun p' => ?_⟩
  rw [Function.update_apply]
  split
  · exact hφ
  · exact h.sound p'

/-- The stage after an exchange that brings no audio. -/
theorem Stage.Genuine.next (h : φ.Genuine W) {x : Exchange Reply TtsError} (hsource : givenSource x = none)
    (hanswered : x.question.isAwait = false → ∃ v, x.answer = .ok v) : (φ.next x.question x.answer).Genuine W := by
  obtain ⟨q, r⟩ := x
  have hok : q.isAwait = false → ∀ e, r ≠ .error e := by
    intro hq e he
    obtain ⟨v, hv⟩ := hanswered hq
    cases he.symm.trans hv
  cases q with
  | incr key | pexpire key windowMs | mkdir path | sharedCacheSet key buffer ttlMs => cases r <;> exact h
  | checkRate key windowMs | localCacheSet key buffer | resolve id path =>
      cases r with
      | error e => exact absurd rfl (hok rfl e)
      | ok v => exact h
  | callProvider p text voice =>
      cases r with
      | error e => exact h
      | ok buffer => cases hsource
  | localCacheGet key =>
      rcases r with e | _ | buffer
      · exact absurd rfl (hok rfl e)
      · exact h
      · cases hsource
  | sharedCacheGet key =>
      rcases r with e | _ | buffer
      · exact h
      · exact h
      · cases hsource
  | setJob ref =>
      cases r with
      | ok v => exact h
      | error e => cases φ <;> exact h
  | writeFile path buffer =>
      cases r with
      | error e => exact h
      | ok v =>
          cases φ with
          | working w given => cases given <;> trivial
          | idle | created w | saved w given | finished w | stranded w | seen id path | failed | excused => exact h
  | createJob spec | setProcessing ref | setDone ref path | failJob id message =>
      cases r with
      | error e => exact absurd rfl (hok rfl e)
      | ok v => cases φ <;> first | exact h | trivial
  | lookupJob id =>
      cases r with
      | error e => exact absurd rfl (hok rfl e)
      | ok found =>
          cases φ with
          | idle =>
              show (Stage.see id found.1 .idle).Genuine W
              unfold Stage.see
              dsimp only
              split
              · split <;> trivial
              · trivial
          | created w | working w given | saved w given | finished w | stranded w | seen id path | failed | excused =>
              exact h

/-- **One answer** moves a process to a genuine stage, when what it finds agrees with its job. -/
theorem Genuine.next (h : Genuine W fills stages s) {q : Command} {r : Except TtsError (Reply q)} (ha : a.asker = some p)
    (hallows : (stageMonitor W cfg).allows (stages p) q) (hr : Machine.reply (server W cfg) s a q = some (s', r))
    (hagrees : ∀ o slot w given, a = .answer p o → q.looksIn = some slot → stages p = .working w given →
      (s.finds cfg slot).isSome = true → ∃ fill, fills slot = some fill ∧ fill.Agrees w.spec) :
    ((stages p).next q r).Genuine W := by
  have hsound := h.sound p
  have hpermits : (stages p).permits W cfg q := by
    refine hallows.resolve_left fun hexcused => ?_
    rw [hexcused] at hsound
    exact hsound
  -- a look-up that finds audio
  have hhit : ∀ o slot buffer, a = .answer p o → q.looksIn = some slot → s.finds cfg slot = some buffer →
      (∃ w given, stages p = .working w given) → ((stages p).hear .cache buffer).Genuine W := by
    rintro o slot buffer hact hlooks hfinds ⟨w, given, hp⟩
    obtain ⟨fill, hfill, hfit⟩ := hagrees o slot w given hact hlooks hp (by rw [hfinds]; rfl)
    obtain ⟨fill', hfill', hbuffer⟩ := h.held slot buffer (held_of_finds hfinds)
    obtain rfl := Option.some.inj (hfill.symm.trans hfill')
    rw [hp]
    show buffer = W.audio w.spec.provider w.spec.text w.spec.voice
    rw [hbuffer, hfit.audio_eq]
  cases hsource : givenSource ⟨q, r⟩ with
  | none =>
      refine hsound.next (x := ⟨q, r⟩) hsource fun hq => ?_
      rcases Machine.reply_cases (server W cfg) ha hr with ⟨o, v, -, rfl, -⟩ | ⟨e, rfl, -, -⟩ | ⟨o, e, v, rfl, -, -⟩
      · exact ⟨v, rfl⟩
      · have hq : q.isAwait = false := hq
        simp [Machine.reply, server, hq] at hr
      · have hq : q.isAwait = false := hq
        simp [Machine.reply, server, hq] at hr
  | some source =>
      rcases Machine.reply_cases (server W cfg) ha hr with ⟨o, v, hact, rfl, hexec⟩ | ⟨e, -, rfl, -⟩ | ⟨o, e, v, -, rfl, -⟩
      · have hexec : exec W cfg o s q = some (v, s') := hexec
        cases q with
        | callProvider provider text voice =>
            obtain ⟨w, given, hp, rfl, rfl⟩ := hpermits
            cases hexec
            show ((stages p).hear _ _).Genuine W
            rw [hp]
            rfl
        | localCacheGet key =>
            obtain ⟨w, given, hp, -⟩ := hpermits
            have hcall : s.cacheCall cfg (fun cache c => c.call cache o.rounds (.get key s.nowMs)) = some (v, s') := hexec
            cases v with
            | none => cases hsource
            | some buffer =>
                refine hhit o (.own key) buffer hact rfl ?_ ⟨w, given, hp⟩
                unfold State.cacheCall at hcall
                split at hcall
                · cases hcall
                · rename_i cache hcache
                  show cfg.cache.bind _ = _
                  rw [hcache]
                  exact congrArg Prod.fst (Option.some.inj hcall)
        | sharedCacheGet key =>
            obtain ⟨w, given, hp, -⟩ := hpermits
            cases v with
            | none => cases hsource
            | some buffer => exact hhit o (.shared key) buffer hact rfl (congrArg Prod.fst (Option.some.inj hexec)) ⟨w, given, hp⟩
        | incr key | pexpire key windowMs | setJob ref | checkRate key windowMs | createJob spec | setProcessing ref
        | localCacheSet key b | sharedCacheSet key b ttlMs | mkdir path | writeFile path b | setDone ref path
        | failJob id message | lookupJob id | resolve id path => cases hsource
      · cases q <;> cases hsource
      · cases q <;> cases hsource

/-- A step that nothing is logged of fills nothing. -/
theorem fillsAfter_of_log {t : Transition System Action} (h : t.post.log = t.pre.log) :
    fillsAfter cfg fills t = fills := by
  unfold fillsAfter
  rw [h]
  split
  · split
    · split
      · exact if_neg (lt_irrefl _)
      · rfl
    · rfl
  · split
    · split
      · exact if_neg (lt_irrefl _)
      · rfl
    · rfl
  · rfl

/-- Who filled the slots after a question that is carried out. -/
theorem fillsAfter_of_carried {l : Live Reply TtsError} {m' : System} (hl : m.procs p = some l)
    (ha : (∃ o, a = .answer p o) ∨ ∃ o e, a = .lose p o e) (hlog : m.log.length < m'.log.length) :
    fillsAfter cfg fills ⟨m, a, m'⟩
      = match l.question.storesIn cfg with
        | some stored => Function.update fills stored.1 (fillOf l.heard)
        | none => fills := by
  rcases ha with ⟨o, rfl⟩ | ⟨o, e, rfl⟩ <;> simp only [fillsAfter, hl, if_pos hlog]

/-- What a process stores is what it has in hand. -/
theorem fill_of_storesIn {l : Live Reply TtsError} {slot : Slot} {buffer : Buffer}
    (hphase : m.phase (stageMonitor W cfg) p = Machine.phaseAfter (stageMonitor W cfg) l.heard)
    (hsound : (m.phase (stageMonitor W cfg) p).Genuine W)
    (hpermits : (m.phase (stageMonitor W cfg) p).permits W cfg l.question)
    (hstores : l.question.storesIn cfg = some (slot, buffer)) :
    ∃ fill, fillOf l.heard = some fill ∧ buffer = fill.audio W := by
  have hgiven : ∃ w provider, m.phase (stageMonitor W cfg) p = .working w (some (.provider provider, buffer)) := by
    cases hq : l.question with
    | localCacheSet key b =>
        rw [hq] at hstores hpermits
        simp only [Command.storesIn] at hstores
        split at hstores
        · cases hstores
          obtain ⟨w, provider, hp, -⟩ := hpermits
          exact ⟨w, provider, hp⟩
        · cases hstores
    | sharedCacheSet key b ttlMs =>
        rw [hq] at hstores hpermits
        cases hstores
        obtain ⟨w, provider, hp, -⟩ := hpermits
        exact ⟨w, provider, hp⟩
    | incr key | pexpire key windowMs | setJob ref | checkRate key windowMs | createJob spec | setProcessing ref
    | localCacheGet key | sharedCacheGet key | callProvider provider text voice | mkdir path | writeFile path b
    | setDone ref path | failJob id message | lookupJob id | resolve id path =>
        rw [hq] at hstores
        cases hstores
  obtain ⟨w, provider, hp⟩ := hgiven
  have hremembers : (Machine.phaseAfter (stageMonitor W cfg) l.heard).Remembers l.heard := remembers_phaseAfter l.heard
  rw [← hphase, hp] at hremembers
  obtain ⟨⟨job, hjob, hspec⟩, hsource⟩ := hremembers
  rw [hp] at hsound
  refine ⟨⟨job.spec, provider⟩, ?_, ?_⟩
  · unfold fillOf
    rw [hjob, hsource _ rfl]
  · show buffer = W.audio provider job.spec.text job.spec.voice
    rw [hspec]
    exact hsound

/-- **One step** in which a hit agrees. -/
theorem Genuine.step (h : Genuine W fills (m.phase (stageMonitor W cfg)) m.store)
    (hm : Machine.Monitored (stageMonitor W cfg) m)
    (hagrees : ∀ p o l slot job, a = .answer p o → m.procs p = some l → l.question.looksIn = some slot →
      (m.store.finds cfg slot).isSome = true → jobOf l.heard = some job →
      ∃ fill, fills slot = some fill ∧ fill.Agrees job.spec) :
    Genuine W (fillsAfter cfg fills ⟨m, a, Tts.step W cfg m a⟩) ((Tts.step W cfg m a).phase (stageMonitor W cfg))
      (Tts.step W cfg m a).store := by
  rcases m.step_cases (server W cfg) (body W cfg) (outside cfg) a with hstep | ⟨p, task, rfl, hp, hstep⟩
    | ⟨p, l, s', r, ha, hl, hr, hstep⟩ | ⟨p, rfl, hstep⟩ | ⟨w, rfl, hstep⟩
  · have hstep : Tts.step W cfg m a = m := hstep
    rw [hstep, fillsAfter_of_log (t := ⟨m, a, m⟩) rfl]
    exact h
  · have hstep : Tts.step W cfg m (.start p task) = m.launch p (body W cfg p task) := hstep
    rw [hstep, Machine.phase_launch (stageMonitor W cfg) hp]
    exact h
  · have hstep : Tts.step W cfg m a = m.deliver p l s' r := hstep
    have hphase : m.phase (stageMonitor W cfg) p = Machine.phaseAfter (stageMonitor W cfg) l.heard := by
      unfold Machine.phase
      rw [hl]
    have hallows := (hm p l hl).1
    have hnext : ((m.phase (stageMonitor W cfg) p).next l.question r).Genuine W := by
      refine h.next ha hallows hr fun o slot w given hact hlooks hgiven hfinds => ?_
      have hremembers : (Machine.phaseAfter (stageMonitor W cfg) l.heard).Remembers l.heard := remembers_phaseAfter l.heard
      rw [← hphase, hgiven] at hremembers
      obtain ⟨⟨job, hjob, hspec⟩, -⟩ := hremembers
      exact hspec ▸ hagrees p o l slot job hact hl hlooks hfinds hjob
    rw [hstep, Machine.phase_deliver (stageMonitor W cfg) hl]
    have hmoved : ∀ {fills' : Slot → Option Fill} {s'' : State}, (∀ slot buffer, s''.held slot = some buffer →
        ∃ fill, fills' slot = some fill ∧ buffer = fill.audio W) →
        Genuine W fills' (Function.update (m.phase (stageMonitor W cfg)) p (Machine.phaseOf (stageMonitor W cfg) (l.rest r)
          ((m.phase (stageMonitor W cfg) p).next l.question r))) s'' := by
      intro fills' s'' hheld
      refine Genuine.move ⟨hheld, h.sound⟩ ?_
      unfold Machine.phaseOf
      split
      · trivial
      · exact hnext
    have hlog : m.log.length < (m.deliver p l s' r).log.length := by simp [Machine.deliver]
    have hcarried : ((∃ o, a = .answer p o) ∨ ∃ o e, a = .lose p o e) →
        (∃ o v, exec W cfg o m.store l.question = some (v, s')) →
        ∀ slot buffer, s'.held slot = some buffer →
          ∃ fill, fillsAfter cfg fills ⟨m, a, m.deliver p l s' r⟩ slot = some fill ∧ buffer = fill.audio W := by
      rintro hact ⟨o, v, hexec⟩ slot buffer hheld
      rw [fillsAfter_of_carried hl hact hlog]
      have hpermits : (m.phase (stageMonitor W cfg) p).permits W cfg l.question := by
        refine hallows.resolve_left fun hexcused => ?_
        have hsound := h.sound p
        rw [hexcused] at hsound
        exact hsound
      rcases held_exec hexec hheld with hstores | ⟨hold, hnot⟩
      · rw [hstores]
        dsimp only
        rw [Function.update_self]
        exact fill_of_storesIn hphase (h.sound p) hpermits hstores
      · cases hstores : l.question.storesIn cfg with
        | none => exact h.held slot buffer hold
        | some stored =>
            have hne : slot ≠ stored.1 := by
              rintro rfl
              exact hnot stored.2 hstores
            dsimp only
            rw [Function.update_of_ne hne]
            exact h.held slot buffer hold
    rcases Machine.reply_cases (server W cfg) ha hr with ⟨o, v, rfl, -, hexec⟩ | ⟨e, rfl, -, rfl⟩ | ⟨o, e, v, rfl, -, hexec⟩
    · exact hmoved (hcarried (.inl ⟨o, rfl⟩) ⟨o, v, hexec⟩)
    · exact hmoved h.held
    · exact hmoved (hcarried (.inr ⟨o, e, rfl⟩) ⟨o, v, hexec⟩)
  · have hstep : Tts.step W cfg m (.crash p) = m.halt p := hstep
    rw [hstep, Machine.phase_halt]
    exact h.move trivial
  · have hstep : Tts.step W cfg m (.outside w) = { m with store := outside cfg w m.store } := hstep
    rw [hstep]
    cases w <;> exact ⟨h.held, h.sound⟩

/-- **Every run** in which hits agree. -/
theorem genuine_run (now : Int) (as : List Action)
    (hagrees : ∀ history t rest, trace (step W cfg) (Machine.idle (State.initial now)) as = history ++ t :: rest →
      HitAgrees cfg history t) :
    Genuine W (fillsOf cfg (trace (step W cfg) (Machine.idle (State.initial now)) as))
      ((Foundation.run (step W cfg) (Machine.idle (State.initial now)) as).phase (stageMonitor W cfg))
      (Foundation.run (step W cfg) (Machine.idle (State.initial now)) as).store := by
  induction as using List.reverseRecOn with
  | nil =>
      refine ⟨fun slot buffer hheld => ?_, fun p => trivial⟩
      cases slot <;> cases hheld
  | append_singleton as a ih =>
      rw [trace_concat] at hagrees ⊢
      rw [run_concat]
      have hold := ih fun history t rest hsplit => hagrees history t _ (by rw [hsplit, List.append_assoc]; rfl)
      have hnew := hold.step (monitored now as) (hagrees _ _ [] rfl)
      unfold fillsOf at hnew ⊢
      rw [List.foldl_append]
      exact hnew

/-- **Caching does not change the audio** in every run in which a job is served
only what an agreeing job has stored. -/
theorem cache_faithful (W : Setting) (cfg : TTSConfig) (now : Int) (as : List Action)
    (hagrees : ∀ history t rest, trace (step W cfg) (Machine.idle (State.initial now)) as = history ++ t :: rest →
      HitAgrees cfg history t) : CacheFaithful W cfg now as := by
  intro t ht p l job path buffer _ hl hq hjob hsource
  obtain ⟨bs, cs, rfl, hpre, -⟩ := mem_trace _ ht
  rw [hpre] at hl
  have hgenuine := genuine_run now bs fun history t rest hsplit => hagrees history t _
    (by rw [trace_append, hsplit, List.append_assoc]; rfl)
  have hm : Machine.Monitored (stageMonitor W cfg) (Foundation.run (step W cfg) (Machine.idle (State.initial now)) bs) :=
    monitored now bs
  have hallows := (hm p l hl).1
  have hphase : (Foundation.run (step W cfg) (Machine.idle (State.initial now)) bs).phase (stageMonitor W cfg) p
      = Machine.phaseAfter (stageMonitor W cfg) l.heard := by
    unfold Machine.phase
    rw [hl]
  have hsound := hgenuine.sound p
  rw [hq] at hallows
  rcases hallows with hexcused | ⟨w, source, hp, -⟩
  · rw [hexcused] at hsound
    cases hsound
  · have hremembers : (Machine.phaseAfter (stageMonitor W cfg) l.heard).Remembers l.heard := remembers_phaseAfter l.heard
    rw [← hphase, hp] at hremembers
    obtain ⟨⟨job', hjob', hspec⟩, hsource'⟩ := hremembers
    obtain rfl := Option.some.inj (hjob.symm.trans hjob')
    obtain rfl : .cache = source := Option.some.inj (hsource.symm.trans (hsource' _ rfl))
    rw [hp] at hsound
    rw [hspec]
    exact hsound

end Runs

/-! ## §5. One key, two languages. -/

instance (fill : Fill) (spec : JobSpec) : Decidable (fill.Agrees spec) :=
  inferInstanceAs (Decidable (fill.provider = spec.provider ∧ fill.spec.text = spec.text
    ∧ fill.spec.voice.voiceId = spec.voice.voiceId
    ∧ (spec.provider = .google → fill.spec.voice.language = spec.voice.language)))

/-- A look-up of a transition finds what an agreeing job has stored. -/
def agreesAt (cfg : TTSConfig) (fills : Slot → Option Fill) (t : Transition System Action) : Bool :=
  match t.act with
  | .answer p _ =>
      match t.pre.procs p with
      | some l =>
          match l.question.looksIn, jobOf l.heard with
          | some slot, some job =>
              !(t.pre.store.finds cfg slot).isSome || (fills slot).any fun fill => decide (fill.Agrees job.spec)
          | _, _ => true
      | none => true
  | _ => true

def allAgree (cfg : TTSConfig) : (Slot → Option Fill) → List (Transition System Action) → Bool
  | _, [] => true
  | fills, t :: rest => agreesAt cfg fills t && allAgree cfg (fillsAfter cfg fills t) rest

theorem hitAgrees_of_agreesAt {cfg : TTSConfig} {history : List (Transition System Action)} {t : Transition System Action}
    (h : agreesAt cfg (fillsOf cfg history) t = true) : HitAgrees cfg history t := by
  intro p o l slot job hact hl hlooks hfinds hjob
  simp only [agreesAt, hact, hl, hlooks, hjob, hfinds, Bool.not_true, Bool.false_or] at h
  obtain ⟨fill, hfill, hagrees⟩ := (Option.any_eq_true _ _).mp h
  exact ⟨fill, hfill, of_decide_eq_true hagrees⟩

theorem hitAgrees_of_allAgree {cfg : TTSConfig} {history ts : List (Transition System Action)}
    (h : allAgree cfg (fillsOf cfg history) ts = true) {before : List (Transition System Action)}
    {t : Transition System Action} {rest : List (Transition System Action)} (hsplit : ts = before ++ t :: rest) :
    HitAgrees cfg (history ++ before) t := by
  induction before generalizing history ts with
  | nil =>
      subst hsplit
      rw [List.append_nil]
      exact hitAgrees_of_agreesAt (Bool.and_eq_true _ _ ▸ h).1
  | cons t' before ih =>
      subst hsplit
      have hrest : allAgree cfg (fillsAfter cfg (fillsOf cfg history) t') (before ++ t :: rest) = true :=
        (Bool.and_eq_true _ _ ▸ h).2
      have hfills : fillsOf cfg (history ++ [t']) = fillsAfter cfg (fillsOf cfg history) t' := by
        unfold fillsOf
        rw [List.foldl_append]
        rfl
      rw [← hfills] at hrest
      have hsame : history ++ t' :: before = history ++ [t'] ++ before := by simp
      rw [hsame]
      exact ih hrest rfl

/-- What a process that is about to write was asked, whether it was served from the cache, and what it writes. -/
def aboutToWrite (m : System) (p : Nat) : Option (JobSpec × Bool × Buffer) :=
  (m.procs p).bind fun l =>
    match l.question, jobOf l.heard, sourceOf l.heard with
    | .writeFile _ buffer, some job, some .cache => some (job.spec, true, buffer)
    | .writeFile _ buffer, some job, some (.provider _) => some (job.spec, false, buffer)
    | _, _, _ => none

/-- Providers that speak the text in the language they are given. -/
@[reducible] def polyglot : Setting where
  sha256Hex text := text
  sha256Hex_injective _ _ h := h
  elevenlabs text voiceId := (voiceId ++ "|" ++ text).toList.map fun c => UInt8.ofNat c.toNat
  google text voiceId language := (voiceId ++ "|" ++ language ++ "|" ++ text).toList.map fun c => UInt8.ofNat c.toNat

/-- Google, and a local cache. -/
def cachingConfig : TTSConfig :=
  ⟨.google, false, true, "audio", none, none, some ⟨86400000, 1000, none⟩, ⟨false, false, false⟩, 3600000⟩

def sampleRequest (language : String) : Request := ⟨"Taxi", ⟨"Chirp3-HD-Ada", language, "Ada"⟩, none, none, none, none⟩

/-- A job in English is done; one in another language comes as far as its file. -/
def sampleServed (language : String) : List Action :=
  .start 0 (.enqueue (sampleRequest "en-GB")) :: List.replicate 8 (.answer 0 ⟨"aaaaaa", 0⟩)
    ++ .start 1 (.enqueue (sampleRequest language)) :: List.replicate 4 (.answer 1 ⟨"bbbbbb", 0⟩)

def sampleSpec (language : String) : JobSpec := ⟨"Taxi", ⟨"Chirp3-HD-Ada", language, "Ada"⟩, .google, false, "anonymous"⟩

theorem sampleServed_faithful :
    CacheFaithful polyglot cachingConfig 0 (sampleServed "en-GB" ++ [.answer 1 ⟨"", 0⟩])
      ∧ aboutToWrite (Foundation.run (step polyglot cachingConfig) (Machine.idle (State.initial 0)) (sampleServed "en-GB")) 1
        = some (sampleSpec "en-GB", true, polyglot.google "Taxi" "Chirp3-HD-Ada" "en-GB") := by
  have hagree : allAgree cachingConfig (fillsOf cachingConfig []) (trace (step polyglot cachingConfig)
      (Machine.idle (State.initial 0)) (sampleServed "en-GB" ++ [.answer 1 ⟨"", 0⟩])) = true := by
    decide +kernel
  exact ⟨cache_faithful polyglot cachingConfig 0 _ fun history t rest hsplit => hitAgrees_of_allAgree hagree hsplit,
    by decide +kernel⟩

/-- **German text is written in English.** -/
theorem sampleServed_unfaithful : ¬CacheFaithful polyglot cachingConfig 0 (sampleServed "de-DE" ++ [.answer 1 ⟨"", 0⟩]) := by
  intro h
  have hwrites : aboutToWrite (Foundation.run (step polyglot cachingConfig) (Machine.idle (State.initial 0))
      (sampleServed "de-DE")) 1 = some (sampleSpec "de-DE", true, polyglot.google "Taxi" "Chirp3-HD-Ada" "en-GB") := by
    decide +kernel
  obtain ⟨l, hl, hwrite⟩ := Option.bind_eq_some_iff.mp hwrites
  split at hwrite
  · rename_i path buffer job hq hjob hsource
    obtain ⟨hspec, -, hbuffer⟩ : job.spec = sampleSpec "de-DE" ∧ True ∧ buffer = polyglot.google "Taxi" "Chirp3-HD-Ada" "en-GB" := by
      simpa using hwrite
    have hwritten := h _ (mem_trace_append_cons _ _ (sampleServed "de-DE") (.answer 1 ⟨"", 0⟩) []) 1 l job path buffer rfl hl
      hq hjob hsource
    rw [hspec, hbuffer] at hwritten
    revert hwritten
    decide +kernel
  · simp at hwrite
  · cases hwrite

end PredictIQ.Tts
