import EightEen.Check
import EightEen.Posting
import EightEen.Readiness

/-!
# Who Stands Behind an Answer

One service and any number of calls of `check` that share it. The child starts, logs, is
probed, dies and is stopped, and meanwhile calls begin, wait for their `fetch`, wait for the
store and end, in any order (`SharedService.step`). No call looks at the service again once
it has begun, and no call changes it.

What a visitor is told is vouched for by the state in which the call found the service. A
call that ends in a bit, yes or no, found it ready, so what the audit of `start()` has seen
holds of the child that was asked: every circuit file loaded, every certificate of the bundle
trusted. A call that finds it not ready ends there and then without a bit, and readiness that
is lost does not come back.

## Main results

* `ready_once`: readiness is one stretch of a run.
* `answered_by_service`: a bit was read off an answer to a request that was posted for it.
* `answers_are_vouched`: what stands behind every answer, in any interleaving.
-/

open Js Transition

namespace EightEen

variable {p : Platform} {o : ServiceOptions} {files : Files} {requestTimeoutMs : Value}

/-! ### What readiness is worth -/

namespace VerifierService

/-- What the audit has seen of the child and what later output cannot take back. -/
structure Audited (files : Files) (s : VerifierService) : Prop where
  announced : s.log.started = true
  circuits : countCircuitFiles files.listing ≤ s.log.circuits
  positive : 0 < countCircuitFiles files.listing
  anchors : countPemCertificates files.bundle ≤ s.log.anchors
  trusting : 0 < s.log.anchors + s.log.vical

/-- A log only grows. -/
theorem Audited.absorb {s : VerifierService} (h : Audited files s) (chunk : List Char) :
    Audited files { s with log := s.log.absorb chunk } := by
  obtain ⟨hstarted, hcircuits, hpositive, hanchors, htrusting⟩ := h
  have hadds := Log.adds_absorb s.log chunk
  refine ⟨?_, ?_, hpositive, ?_, ?_⟩ <;> dsimp only
  · rw [hadds.started, hstarted, Bool.true_or]
  · rw [hadds.circuits]
    omega
  · rw [hadds.anchors]
    omega
  · rw [hadds.anchors, hadds.vical]
    exact Log.trusting_sumCounts (Nat.le_add_right _ _) htrusting _

/-- A service that is ready has been audited. -/
theorem audited_step {s s' : VerifierService} {e : Event} (hs : Sound files s)
    (haudited : s.ready = true → Audited files s) (hstep : step p o files s e = some s') :
    s'.ready = true → Audited files s' := by
  intro hready'
  rcases step_ready_cases hs hstep hready' with
    ⟨rfl, haudit, hloaded, hs'⟩ | ⟨pipe, chunk, rfl, hready, rfl⟩
  · have hphase : s.phase ≠ .idle := by
      cases Step.of_step hstep with
      | health _ hprobing => simp [hprobing]
    obtain ⟨hexpected, hanchors⟩ := hs.counted hphase
    obtain ⟨-, henough, htrusting⟩ := (assertTrustAnchors_ok_iff p o s).mp haudit
    subst hs'
    exact ⟨hloaded.started, hexpected ▸ hloaded.circuits, hexpected ▸ hloaded.positive,
      hanchors ▸ henough, htrusting⟩
  · exact (haudited hready).absorb chunk

/-- A service that is ready after a run has been audited against its files. -/
theorem audited_of_run {s : VerifierService} {events : List Event}
    (hrun : exec (step p o files) init events = some s) (hready : s.ready = true) :
    Audited files s := by
  have h : Sound files s ∧ (s.ready = true → Audited files s) := by
    refine exec_invariant (I := fun s => Sound files s ∧ (s.ready = true → Audited files s))
      ?_ hrun ⟨sound_init, fun h => absurd h (by simp [init])⟩
    rintro s e s' ⟨hs, haudited⟩ hstep
    exact ⟨sound_step hs hstep, audited_step hs haudited hstep⟩
  exact h.2 hready

/-- A service that is ready keeps the whole promise, in runs whose steps heed it. -/
theorem promise_of_run {s : VerifierService} {events : List Event}
    (hrun : exec (step p o files) init events = some s)
    (hheeds : Meets (step p o files) (Heeds p o) init events) (hready : s.ready = true) :
    Promise o files s := by
  have h : Sound files s ∧ (s.ready = true → Promise o files s) := by
    refine exec_invariant_of_meets
      (I := fun s => Sound files s ∧ (s.ready = true → Promise o files s)) ?_ hrun hheeds
      ⟨sound_init, fun h => absurd h (by simp [init])⟩
    rintro s e s' ⟨hs, hpromise⟩ hheed hstep
    exact ⟨sound_step hs hstep, (promise_step_iff hs hpromise hstep).mpr hheed⟩
  exact h.2 hready

/-- Only a `start()` that has resolved leaves a service ready. -/
theorem Sound.resolved {s : VerifierService} (h : Sound files s) (hready : s.ready = true) :
    s.phase = .resolved := by
  have hfacts := h.facts
  have hno : ¬s.ready = false := by simp [hready]
  cases hphase : s.phase with
  | resolved => rfl
  | idle | probing | sleeping | stopping =>
      rw [hphase] at hfacts
      exact absurd hfacts.2 hno
  | spawning | rejected =>
      rw [hphase] at hfacts
      exact absurd hfacts hno

/-- What is resolved stays resolved, and becomes ready no more. -/
theorem resolved_step {s s' : VerifierService} {e : Event} (hs : Sound files s)
    (hphase : s.phase = .resolved) (hstep : step p o files s e = some s') :
    s'.phase = .resolved ∧ (s'.ready = true → s.ready = true) := by
  refine ⟨?_, fun hready' => ?_⟩
  · cases e with
    | exit code signal =>
        rw [step, Option.ite_none_right_eq_some] at hstep
        obtain ⟨-, hstep⟩ := hstep
        obtain rfl := Option.some.inj hstep
        simp [onExit, hphase]
    | error code message =>
        rw [step, Option.ite_none_right_eq_some] at hstep
        obtain ⟨-, hstep⟩ := hstep
        obtain rfl := Option.some.inj hstep
        simp [onError, hphase]
    | data pipe chunk =>
        rw [step, Option.ite_none_right_eq_some] at hstep
        obtain ⟨-, hstep⟩ := hstep
        obtain rfl := Option.some.inj hstep
        exact hphase
    | stop =>
        obtain rfl := Option.some.inj hstep
        exact hphase
    | _ =>
        -- The other events wait for an earlier phase.
        rw [step, hphase] at hstep
        cases hstep
  · rcases step_ready_cases hs hstep hready' with ⟨rfl, -, -, -⟩ | ⟨-, -, -, hready, -⟩
    · cases Step.of_step hstep with
      | health _ hprobing => cases hphase.symm.trans hprobing
    · exact hready

/-- **Readiness is one stretch of a run**: a service that was ready and is not, is not ready
again. -/
theorem ready_once {s u t : VerifierService} {before between after : List Event}
    (hbefore : exec (step p o files) init before = some s)
    (hbetween : exec (step p o files) s between = some u)
    (hafter : exec (step p o files) u after = some t) (hwas : s.ready = true)
    (hlost : u.ready = false) : t.ready = false := by
  have hkeep : ∀ s e s', (Sound files s ∧ s.phase = .resolved) →
      step p o files s e = some s' → Sound files s' ∧ s'.phase = .resolved := by
    rintro s e s' ⟨hs, hphase⟩ hstep
    exact ⟨sound_step hs hstep, (resolved_step hs hphase hstep).1⟩
  have hs := sound_of_run hbefore
  have hu := exec_invariant hkeep hbetween ⟨hs, hs.resolved hwas⟩
  have h : (Sound files t ∧ t.phase = .resolved) ∧ t.ready = false := by
    refine exec_invariant
      (I := fun s => (Sound files s ∧ s.phase = .resolved) ∧ s.ready = false) ?_ hafter
      ⟨hu, hlost⟩
    rintro s e s' ⟨hs, hready⟩ hstep
    refine ⟨hkeep s e s' hs hstep, ?_⟩
    by_contra hready'
    rw [Bool.not_eq_false] at hready'
    exact absurd (hready.symm.trans ((resolved_step hs.1 hs.2 hstep).2 hready')) (by simp)
  exact h.2

/-! ### A service that is not ready -/

/-- A service that is not ready answers before it looks at the proof. -/
theorem beginVerify_of_not_ready {s : VerifierService} (hready : s.ready = false)
    (requestTimeoutMs proof : Value) :
    ∃ detail, s.beginVerify requestTimeoutMs proof = .returned (.notReady detail) := by
  rw [beginVerify, if_pos (by simp [hready])]
  exact ⟨_, rfl⟩

end VerifierService

open VerifierService

/-- A bit comes from a reply of the service. -/
theorem kind_of_gives {opts : ClassifyOptions} {outcome : Outcome} {verdict : Verdict} {b : Bool}
    (h : classify p outcome.toValue opts = .ok verdict) (hbit : verdict.overThreshold = some b) :
    ∃ status body, outcome = .response status body := by
  have hgives : Gives b (classify p outcome.toValue opts) := ⟨verdict, h, hbit⟩
  cases outcome with
  | response status body => exact ⟨status, body, rfl⟩
  | _ =>
      refine absurd hgives (not_gives_of_no_response p opts b fun _ hkind => ?_)
      exact absurd (Value.string.inj hkind) (by decide)

/-! ### Calls that share a service -/

/-- Where a call of `check` is: it waits for its `fetch`, it waits for the store, or it has
ended. -/
inductive Progress where
  | fetching
  | spending (verdict : Verdict) (request : SpendRequest)
  | ended (result : Completion Verdict)

/-- A call of `check`: the verifier it was made on, its argument, and the clock reading it
began with. -/
structure Checking where
  verifier : Verifier
  proof : Value
  readAt : TimeValue
  progress : Progress

/-- `check` from the outcome of `verify` to its next wait or its end. -/
def Checking.proceed (p : Platform) (c : Checking) (outcome : Outcome) : Checking :=
  { c with
    progress :=
      match c.verifier.afterReply p c.readAt c.proof outcome.toValue with
      | .settled result => .ended result
      | .spending verdict request => .spending verdict request }

/-- `check(proof)` up to its first wait. -/
def Checking.begin (p : Platform) (requestTimeoutMs : Value) (service : VerifierService)
    (verifier : Verifier) (proof : Value) (readAt : TimeValue) : Checking :=
  let c : Checking := { verifier, proof, readAt, progress := .fetching }
  match service.beginVerify requestTimeoutMs proof with
  | .returned outcome => c.proceed p outcome
  | .posting _ => c

/-- A service, and the calls that have been made on it. -/
structure SharedService where
  service : VerifierService
  calls : ℕ → Option Checking

namespace SharedService

/-- The service before `start()`, and nobody there. -/
def init : SharedService where
  service := VerifierService.init
  calls _ := none

/-- The state with this call in the place of call `i`. -/
def put (s : SharedService) (i : ℕ) (c : Checking) : SharedService :=
  { s with calls := Function.update s.calls i (some c) }

/-- What happens to the service or to a call on it. -/
inductive Event where
  /-- Something happens to the service. -/
  | service (e : VerifierService.Event)
  /-- A call begins. -/
  | check (i : ℕ) (verifier : Verifier) (proof : Value) (readAt : TimeValue)
  /-- The `fetch` of a call ends. -/
  | fetched (i : ℕ) (exchange : Exchange)
  /-- The store answers a call. -/
  | spent (i : ℕ) (answer : Completion Value)

/-- One event, or `none` if it cannot happen in this state. -/
def step (p : Platform) (o : ServiceOptions) (files : Files) (requestTimeoutMs : Value)
    (s : SharedService) : Event → Option SharedService
  | .service e => (s.service.step p o files e).map fun service => { s with service }
  | .check i verifier proof readAt =>
      match s.calls i with
      | some _ => none
      | none =>
          some (s.put i (Checking.begin p requestTimeoutMs s.service verifier proof readAt))
  | .fetched i exchange =>
      match s.calls i with
      | some c =>
          match c.progress with
          | .fetching => some (s.put i (c.proceed p (endVerify p requestTimeoutMs exchange)))
          | _ => none
      | none => none
  | .spent i answer =>
      match s.calls i with
      | some c =>
          match c.progress with
          | .spending verdict _ =>
              some (s.put i { c with progress := .ended (endSingleUse verdict answer) })
          | _ => none
      | none => none

/-- **What a step does.** -/
inductive Step (p : Platform) (o : ServiceOptions) (files : Files) (requestTimeoutMs : Value)
    (s : SharedService) : Event → SharedService → Prop
  | service (e : VerifierService.Event) (service : VerifierService)
      (hstep : s.service.step p o files e = some service) :
      Step p o files requestTimeoutMs s (.service e) { s with service }
  | check (i : ℕ) (verifier : Verifier) (proof : Value) (readAt : TimeValue)
      (hnew : s.calls i = none) :
      Step p o files requestTimeoutMs s (.check i verifier proof readAt)
        (s.put i (Checking.begin p requestTimeoutMs s.service verifier proof readAt))
  | fetched (i : ℕ) (exchange : Exchange) (c : Checking) (hc : s.calls i = some c)
      (hprogress : c.progress = .fetching) :
      Step p o files requestTimeoutMs s (.fetched i exchange)
        (s.put i (c.proceed p (endVerify p requestTimeoutMs exchange)))
  | spent (i : ℕ) (answer : Completion Value) (c : Checking) (verdict : Verdict)
      (request : SpendRequest) (hc : s.calls i = some c)
      (hprogress : c.progress = .spending verdict request) :
      Step p o files requestTimeoutMs s (.spent i answer)
        (s.put i { c with progress := .ended (endSingleUse verdict answer) })

/-- **Every step has one of the shapes of `Step`**: what the executable function does, seen by its
event. -/
theorem Step.of_step {s s' : SharedService} {e : Event}
    (h : step p o files requestTimeoutMs s e = some s') :
    Step p o files requestTimeoutMs s e s' := by
  cases e with
  | service e =>
      obtain ⟨service, hstep, rfl⟩ := Option.map_eq_some_iff.mp h
      exact .service e service hstep
  | check i verifier proof readAt =>
      rw [step] at h
      split at h <;> cases h
      next hnew => exact .check i verifier proof readAt hnew
  | fetched i exchange =>
      rw [step] at h
      split at h
      swap
      · cases h
      next c hc =>
      split at h <;> cases h
      next hprogress => exact .fetched i exchange c hc hprogress
  | spent i answer =>
      rw [step] at h
      split at h
      swap
      · cases h
      next c hc =>
      split at h <;> cases h
      next verdict request hprogress => exact .spent i answer c verdict request hc hprogress

/-- The event of the service that an event is. -/
def Event.own : Event → Option VerifierService.Event
  | .service e => some e
  | _ => none

/-- **Calls do not change the service**: what it goes through is a run of its own. -/
theorem service_run {s s' : SharedService} {events : List Event}
    (hrun : exec (step p o files requestTimeoutMs) s events = some s') :
    exec (VerifierService.step p o files) s.service (events.filterMap Event.own) =
      some s'.service := by
  have howned : ∀ (s : SharedService) e d s', Event.own e = some d →
      step p o files requestTimeoutMs s e = some s' →
      VerifierService.step p o files s.service d = some s'.service := by
    intro s e d s' hown hstep
    cases Step.of_step hstep with
    | service e service hservice =>
        obtain rfl := Option.some.inj hown
        exact hservice
    | _ => cases hown
  have hothers : ∀ (s : SharedService) e s', Event.own e = none →
      step p o files requestTimeoutMs s e = some s' → s'.service = s.service := by
    intro s e s' hown hstep
    cases Step.of_step hstep with
    | service e service hservice => cases hown
    | _ => rfl
  exact exec_filterMap howned hothers hrun

/-! ### What a call knows -/

/-- The outcome that `verify` gave the call: settled when the call began, or what its own
`fetch` ended in. -/
inductive Came (p : Platform) (requestTimeoutMs : Value) (found : VerifierService)
    (i : ℕ) (proof : Value) (done : List Event) : Outcome → Prop
  | settled (outcome : Outcome)
      (hbegun : found.beginVerify requestTimeoutMs proof = .returned outcome) :
      Came p requestTimeoutMs found i proof done outcome
  | fetched (request : ZkVerifyRequest) (exchange : Exchange)
      (hbegun : found.beginVerify requestTimeoutMs proof = .posting request)
      (hfetched : Event.fetched i exchange ∈ done) :
      Came p requestTimeoutMs found i proof done (endVerify p requestTimeoutMs exchange)

/-- Where the call is, given the service it found and the events so far. -/
def Stands (p : Platform) (requestTimeoutMs : Value) (found : VerifierService) (i : ℕ)
    (done : List Event) (c : Checking) : Prop :=
  match c.progress with
  | .fetching => ∃ request, found.beginVerify requestTimeoutMs c.proof = .posting request
  | .spending verdict request => ∃ outcome,
      Came p requestTimeoutMs found i c.proof done outcome ∧
        c.verifier.afterReply p c.readAt c.proof outcome.toValue = .spending verdict request
  | .ended result => ∃ outcome, Came p requestTimeoutMs found i c.proof done outcome ∧
      (c.verifier.afterReply p c.readAt c.proof outcome.toValue = .settled result ∨
        ∃ verdict request answer,
          c.verifier.afterReply p c.readAt c.proof outcome.toValue = .spending verdict request ∧
            result = endSingleUse verdict answer)

/-- What an outcome came of stays, whatever happens later. -/
theorem Came.append {found : VerifierService} {i : ℕ} {proof : Value} {done : List Event}
    {outcome : Outcome} (h : Came p requestTimeoutMs found i proof done outcome)
    (more : List Event) : Came p requestTimeoutMs found i proof (done ++ more) outcome := by
  cases h with
  | settled _ hbegun => exact .settled outcome hbegun
  | fetched request exchange hbegun hfetched =>
      exact .fetched request exchange hbegun (List.mem_append_left more hfetched)

/-- Where a check stands is not changed by what happens elsewhere. -/
theorem Stands.append {found : VerifierService} {i : ℕ} {done : List Event} {c : Checking}
    (h : Stands p requestTimeoutMs found i done c) (more : List Event) :
    Stands p requestTimeoutMs found i (done ++ more) c := by
  rw [Stands] at h ⊢
  split at h
  · exact h
  · obtain ⟨outcome, hcame, hafter⟩ := h
    exact ⟨outcome, hcame.append more, hafter⟩
  · obtain ⟨outcome, hcame, hafter⟩ := h
    exact ⟨outcome, hcame.append more, hafter⟩

/-- A call that has just been told its outcome. -/
theorem stands_proceed {found : VerifierService} {i : ℕ} {done : List Event} {c : Checking}
    {outcome : Outcome} (h : Came p requestTimeoutMs found i c.proof done outcome) :
    Stands p requestTimeoutMs found i done (c.proceed p outcome) := by
  rw [Stands, Checking.proceed]
  cases hafter : c.verifier.afterReply p c.readAt c.proof outcome.toValue with
  | settled result => exact ⟨outcome, h, Or.inl hafter⟩
  | spending verdict request => exact ⟨outcome, h, hafter⟩

/-- Every call stands where the service it found and its own events have brought it. -/
structure Consistent (p : Platform) (o : ServiceOptions) (files : Files)
    (requestTimeoutMs : Value) (done : List Event) (s : SharedService) : Prop where
  reached : exec (step p o files requestTimeoutMs) init done = some s
  stands : ∀ i c, s.calls i = some c → ∃ u u',
    Takes (step p o files requestTimeoutMs) init done
      (.check i c.verifier c.proof c.readAt) u u' ∧
    Stands p requestTimeoutMs u.service i done c

/-- A call keeps what it was made with. -/
theorem begin_fields (p : Platform) (requestTimeoutMs : Value) (service : VerifierService)
    (verifier : Verifier) (proof : Value) (readAt : TimeValue) :
    (Checking.begin p requestTimeoutMs service verifier proof readAt).verifier = verifier ∧
      (Checking.begin p requestTimeoutMs service verifier proof readAt).proof = proof ∧
      (Checking.begin p requestTimeoutMs service verifier proof readAt).readAt = readAt := by
  rw [Checking.begin]
  cases service.beginVerify requestTimeoutMs proof <;> exact ⟨rfl, rfl, rfl⟩

/-- A check stands at its beginning, in the service that it has found. -/
theorem stands_begin (service : VerifierService) (verifier : Verifier) (proof : Value)
    (readAt : TimeValue) (i : ℕ) (done : List Event) :
    Stands p requestTimeoutMs service i done
      (Checking.begin p requestTimeoutMs service verifier proof readAt) := by
  rw [Checking.begin]
  cases hbegun : service.beginVerify requestTimeoutMs proof with
  | returned outcome =>
      dsimp only
      exact stands_proceed (.settled outcome hbegun)
  | posting request => exact ⟨request, hbegun⟩

/-- Putting a check changes that check alone. -/
theorem calls_put (s : SharedService) (i j : ℕ) (c : Checking) :
    (s.put i c).calls j = if j = i then some c else s.calls j :=
  Function.update_apply _ _ _ _

/-- **One event** brings the call that it is about one stretch further, and leaves the
others. -/
theorem Consistent.step {done : List Event} {s s' : SharedService} {e : Event}
    (h : Consistent p o files requestTimeoutMs done s)
    (hstep : SharedService.step p o files requestTimeoutMs s e = some s') :
    Consistent p o files requestTimeoutMs (done ++ [e]) s' := by
  refine ⟨?_, ?_⟩
  · exact exec_append_eq_some_iff.mpr
      ⟨s, h.reached, exec_cons_eq_some_iff.mpr ⟨s', hstep, rfl⟩⟩
  have hold : ∀ i c, s.calls i = some c → ∃ u u',
      Takes (SharedService.step p o files requestTimeoutMs) init (done ++ [e])
        (.check i c.verifier c.proof c.readAt) u u' ∧
      Stands p requestTimeoutMs u.service i (done ++ [e]) c := by
    intro i c hc
    obtain ⟨u, u', htakes, hstands⟩ := h.stands i c hc
    exact ⟨u, u', htakes.append [e], hstands.append [e]⟩
  have hput : ∀ i c, s' = s.put i c → (∃ u u',
      Takes (SharedService.step p o files requestTimeoutMs) init (done ++ [e])
        (.check i c.verifier c.proof c.readAt) u u' ∧
      Stands p requestTimeoutMs u.service i (done ++ [e]) c) →
      ∀ j d, s'.calls j = some d → ∃ u u',
        Takes (SharedService.step p o files requestTimeoutMs) init (done ++ [e])
          (.check j d.verifier d.proof d.readAt) u u' ∧
        Stands p requestTimeoutMs u.service j (done ++ [e]) d := by
    rintro i c rfl hnew j d hd
    rw [calls_put] at hd
    split at hd
    · next hji =>
        obtain rfl := Option.some.inj hd
        subst hji
        exact hnew
    · exact hold j d hd
  cases Step.of_step hstep with
  | service e service hservice => exact hold
  | check i verifier proof readAt hnone =>
      refine hput i _ rfl ?_
      obtain ⟨hverifier, hproof, hreadAt⟩ := begin_fields p requestTimeoutMs s.service verifier
        proof readAt
      rw [hverifier, hproof, hreadAt]
      exact ⟨s, _, ⟨done, [], rfl, h.reached, hstep⟩,
        stands_begin s.service verifier proof readAt i _⟩
  | fetched i exchange c hc hprogress =>
      obtain ⟨u, u', htakes, hstands⟩ := hold i c hc
      refine hput i _ rfl ⟨u, u', htakes, ?_⟩
      rw [Stands, hprogress] at hstands
      obtain ⟨request, hbegun⟩ := hstands
      exact stands_proceed (.fetched request exchange hbegun (by simp))
  | spent i answer c verdict request hc hprogress =>
      obtain ⟨u, u', htakes, hstands⟩ := hold i c hc
      refine hput i _ rfl ⟨u, u', htakes, ?_⟩
      rw [Stands, hprogress] at hstands
      obtain ⟨outcome, hcame, hafter⟩ := hstands
      exact ⟨outcome, hcame, Or.inr ⟨verdict, request, answer, hafter, rfl⟩⟩

/-- **Every check of a run stands as its history says**, and the service has gone through the rest
of the run alone. -/
theorem consistent_of_run {s : SharedService} {events : List Event}
    (hrun : exec (step p o files requestTimeoutMs) init events = some s) :
    Consistent p o files requestTimeoutMs events s :=
  exec_history (fun _ _ _ _ h hstep => h.step hstep) hrun
    ⟨rfl, fun i c hc => by cases hc⟩

/-! ### What a visitor is told -/

/-- **A bit is the verdict of `classify`**: neither the single-use gate nor the store gives
one of its own. -/
theorem classify_of_bit {v : Verifier} {now : TimeValue} {proof raw : Value}
    {verdict : Verdict} {b : Bool} (hbit : verdict.overThreshold = some b)
    (h : v.afterReply p now proof raw = .settled (.ok verdict) ∨ ∃ w request answer,
      v.afterReply p now proof raw = .spending w request ∧
        .ok verdict = endSingleUse w answer) :
    classify p raw (v.options now) = .ok verdict := by
  rw [Verifier.afterReply] at h
  cases hc : classify p raw (v.options now) with
  | error e =>
      rw [hc] at h
      rcases h with h | ⟨w, request, answer, h, -⟩
      · cases h
      · cases h
  | ok found =>
      rw [hc] at h
      dsimp only at h
      by_cases hsingle : v.requireSingleUse.truthy = true
      swap
      · rw [if_neg hsingle] at h
        rcases h with h | ⟨w, request, answer, h, -⟩
        · exact CheckStage.settled.inj h
        · cases h
      rw [if_pos hsingle] at h
      rcases beginSingleUse_cases p found (proof.get "transcript") v.challengeSecret now with
        ⟨-, hbegin⟩ | ⟨-, -, d, hbegin⟩ | ⟨-, c, -, hbegin⟩ <;> rw [hbegin] at h
      · rcases h with h | ⟨w, request, answer, h, -⟩
        · exact CheckStage.settled.inj h
        · cases h
      · rcases h with h | ⟨w, request, answer, h, -⟩
        · obtain rfl := Except.ok.inj (CheckStage.settled.inj h)
          exact absurd hbit (by simp [unanswerable])
        · cases h
      · rcases h with h | ⟨w, request, answer, h, hend⟩
        · cases h
        · obtain ⟨rfl, -⟩ := CheckStage.spending.inj h
          obtain ⟨fresh, -, hfresh⟩ := bind_eq_ok.mp hend.symm
          split at hfresh
          · obtain rfl := Except.ok.inj hfresh
            exact absurd hbit (by simp [unanswerable])
          · exact hfresh

/-- Only an accept is worth a nonce. -/
theorem afterReply_of_not_isAccept {v : Verifier} {now : TimeValue} {proof raw : Value}
    {verdict : Verdict} (h : classify p raw (v.options now) = .ok verdict)
    (hno : ¬verdict.IsAccept) : v.afterReply p now proof raw = .settled (.ok verdict) := by
  rw [Verifier.afterReply, h]
  dsimp only
  split
  · rw [beginSingleUse, if_pos hno]
  · rfl

/-- **A bit was read off an answer** that the child gave to a request which was posted for
this very call, when the service was ready. -/
theorem Stands.answered {found : VerifierService} {i : ℕ} {done : List Event} {c : Checking}
    {verdict : Verdict} {b : Bool} (h : Stands p requestTimeoutMs found i done c)
    (hended : c.progress = .ended (.ok verdict)) (hbit : verdict.overThreshold = some b) :
    ∃ request status body, found.beginVerify requestTimeoutMs c.proof = .posting request ∧
      Event.fetched i (.answered status body) ∈ done ∧
      classify p (Outcome.response status (body.getD .null)).toValue
        (c.verifier.options c.readAt) = .ok verdict := by
  rw [Stands, hended] at h
  obtain ⟨outcome, hcame, hafter⟩ := h
  have hclassify := classify_of_bit hbit hafter
  obtain ⟨status, body, rfl⟩ := kind_of_gives hclassify hbit
  generalize hout : Outcome.response status body = outcome at hcame hclassify
  cases hcame with
  | settled _ hbegun =>
      -- What `verify` settles by itself is never a response.
      subst hout
      exfalso
      rw [VerifierService.beginVerify] at hbegun
      repeat' split at hbegun
      all_goals cases hbegun
  | fetched request exchange hbegun hfetched =>
      cases exchange with
      | answered status body => exact ⟨request, status, body, hbegun, hfetched, hclassify⟩
      | timedOut => cases hout
      | failed detail => cases hout

/-- A call that has ended stays as it is. -/
theorem ended_step {s s' : SharedService} {e : Event} {i : ℕ} {c : Checking}
    {result : Completion Verdict} (hc : s.calls i = some c)
    (hended : c.progress = .ended result)
    (hstep : SharedService.step p o files requestTimeoutMs s e = some s') :
    s'.calls i = some c := by
  have hput : ∀ j d, (∀ c', s.calls j = some c' → c'.progress ≠ .ended result) →
      (s.put j d).calls i = some c := by
    intro j d hj
    rw [calls_put, if_neg, hc]
    rintro rfl
    exact hj c hc hended
  cases Step.of_step hstep with
  | service e service hservice => exact hc
  | check j verifier proof readAt hnone =>
      refine hput j _ fun c' hc' => ?_
      rw [hnone] at hc'
      cases hc'
  | fetched j exchange d hd hprogress =>
      refine hput j _ fun c' hc' => ?_
      rw [← Option.some.inj (hd.symm.trans hc'), hprogress]
      simp
  | spent j answer d verdict request hd hprogress =>
      refine hput j _ fun c' hc' => ?_
      rw [← Option.some.inj (hd.symm.trans hc'), hprogress]
      simp

/-- Call `i` has been told that the service cannot verify, which is no bit. -/
def Refused (s : SharedService) (i : ℕ) : Prop :=
  ∃ c detail, s.calls i = some c ∧
    c.progress = .ended (.ok (unanswerable .serviceNotReady detail))

/-- **A call that finds the service not ready ends at once**, and spends nothing. -/
theorem refused_of_not_ready {s s' : SharedService} {i : ℕ} {verifier : Verifier}
    {proof : Value} {readAt : TimeValue} (hready : s.service.ready = false)
    (hstep : SharedService.step p o files requestTimeoutMs s
      (.check i verifier proof readAt) = some s') : Refused s' i := by
  cases Step.of_step hstep with
  | check _ _ _ _ hnone =>
      obtain ⟨detail, hbegun⟩ := beginVerify_of_not_ready hready requestTimeoutMs proof
      have hclassify : classify p (Outcome.notReady detail).toValue (verifier.options readAt) =
          .ok (unanswerable .serviceNotReady (.string detail)) := rfl
      refine ⟨_, .string detail, by rw [calls_put, if_pos rfl], ?_⟩
      rw [Checking.begin, hbegun]
      dsimp only
      rw [Checking.proceed]
      dsimp only
      rw [afterReply_of_not_isAccept hclassify (not_isAccept_unanswerable _ _)]

/-! ### Every answer -/

/-- What stands behind a bit that call `c` has been told. -/
structure Vouched (p : Platform) (o : ServiceOptions) (files : Files)
    (requestTimeoutMs : Value) (events : List Event) (i : ℕ) (c : Checking)
    (verdict : Verdict) (u : SharedService) : Prop where
  found : ∃ u', Takes (SharedService.step p o files requestTimeoutMs) init events
    (.check i c.verifier c.proof c.readAt) u u'
  ready : u.service.ready = true
  audited : Audited files u.service
  promise : Meets (VerifierService.step p o files) (Heeds p o) VerifierService.init
    (events.filterMap Event.own) → Promise o files u.service
  answered : ∃ request status body,
    u.service.beginVerify requestTimeoutMs c.proof = .posting request ∧
      Event.fetched i (.answered status body) ∈ events ∧
      classify p (Outcome.response status (body.getD .null)).toValue
        (c.verifier.options c.readAt) = .ok verdict

/-- The run of the service in a run that takes a step. -/
theorem service_run_of_takes {events : List Event} {e : Event} {u u' : SharedService}
    (h : Takes (SharedService.step p o files requestTimeoutMs) init events e u u') :
    ∃ before after, events.filterMap Event.own = before ++ after ∧
      exec (VerifierService.step p o files) VerifierService.init before = some u.service := by
  obtain ⟨before, after, rfl, hbefore, -⟩ := h
  refine ⟨_, _, List.filterMap_append, service_run hbefore⟩

/-- **What stands behind an answer**, in every interleaving of a service with the calls on it.
A bit, yes or no, was read off the child's answer to a request that was posted for this call
by a service that was ready, audited, and true to its promise if its run heeds it. A call
that finds the service not ready is told so and gets no bit; and once readiness is lost, that
is what every later call is told. -/
theorem answers_are_vouched {t : SharedService} {events : List Event}
    (hrun : exec (SharedService.step p o files requestTimeoutMs) init events = some t) :
    (∀ i c verdict, t.calls i = some c → c.progress = .ended (.ok verdict) →
      verdict.overThreshold ≠ none →
      ∃ u, Vouched p o files requestTimeoutMs events i c verdict u) ∧
    (∀ i verifier proof readAt u u',
      Takes (SharedService.step p o files requestTimeoutMs) init events
        (.check i verifier proof readAt) u u' → u.service.ready = false → Refused t i) ∧
    (∀ before between after s u, events = before ++ between ++ after →
      exec (SharedService.step p o files requestTimeoutMs) init before = some s →
      exec (SharedService.step p o files requestTimeoutMs) s between = some u →
      s.service.ready = true → u.service.ready = false →
      ∀ i verifier proof readAt, .check i verifier proof readAt ∈ after → Refused t i) := by
  have hrefused : ∀ i verifier proof readAt u u',
      Takes (SharedService.step p o files requestTimeoutMs) init events
        (.check i verifier proof readAt) u u' → u.service.ready = false → Refused t i := by
    intro i verifier proof readAt u u' htakes hready
    obtain ⟨before, after, -, -, hstep, hafter⟩ := htakes.split hrun
    obtain ⟨c, detail, hc, hended⟩ := refused_of_not_ready hready hstep
    refine ⟨c, detail, ?_, hended⟩
    exact exec_invariant (I := fun s => s.calls i = some c)
      (fun s e s' hs hstep => ended_step hs hended hstep) hafter hc
  refine ⟨?_, hrefused, ?_⟩
  · intro i c verdict hc hended hbit
    obtain ⟨b, hb⟩ := Option.ne_none_iff_exists'.mp hbit
    obtain ⟨u, u', htakes, hstands⟩ := (consistent_of_run hrun).stands i c hc
    have hanswered := hstands.answered hended hb
    have hready : u.service.ready = true := by
      obtain ⟨request, status, body, hbegun, -⟩ := hanswered
      exact ((u.service.beginVerify_eq_posting_iff _ _ _).mp hbegun).1
    obtain ⟨before, after, hsplit, hservice⟩ := service_run_of_takes htakes
    refine ⟨u, ⟨u', htakes⟩, hready, audited_of_run hservice hready, ?_, hanswered⟩
    intro hheeds
    rw [hsplit] at hheeds
    exact promise_of_run hservice (meets_append_iff.mp hheeds).1 hready
  · rintro before between after s u rfl hbefore hbetween hwas hlost i verifier proof readAt hmem
    obtain ⟨early, late, rfl⟩ := List.append_of_mem hmem
    obtain ⟨u₀, hu₀, hrest⟩ := exec_append_eq_some_iff.mp hrun
    obtain ⟨s₀, hs₀, hu₁⟩ := exec_append_eq_some_iff.mp hu₀
    obtain rfl : s = s₀ := Option.some.inj (hbefore.symm.trans hs₀)
    obtain rfl : u = u₀ := Option.some.inj (hbetween.symm.trans hu₁)
    obtain ⟨v, hv, hlate⟩ := exec_append_eq_some_iff.mp hrest
    obtain ⟨v', hstep, -⟩ := exec_cons_eq_some_iff.mp hlate
    refine hrefused i verifier proof readAt v v' ⟨before ++ between ++ early, late, ?_, ?_, hstep⟩
      (ready_once (service_run hbefore) (service_run hbetween) (service_run hv) hwas hlost)
    · rw [List.append_assoc, List.append_assoc, List.append_assoc]
    · exact exec_append_eq_some_iff.mpr ⟨u, hu₀, hv⟩

/-- A visitor is let in, and the service is stopped behind them. -/
def sampleVisit : List Event :=
  VerifierService.sampleStart.map .service ++
    [.check 0 openVerifier sampleProof (sampleTime 0),
      .fetched 0 (.answered 200 (some (.object [("Status", .boolean true),
        ("Claims", .object [("org.iso.18013.5.1", .array [.object
          [("ElementIdentifier", .string "age_over_18"),
            ("ElementValue", .string "9Q==")]])])]))),
      .service .stop]

/-- The bit that a call has been told. -/
def bit (s : SharedService) (i : ℕ) : Option Bool :=
  match s.calls i with
  | some ⟨_, _, _, .ended (.ok verdict)⟩ => verdict.overThreshold
  | _ => none

/-- A bit that was told comes from a check that has ended, and from its verdict. -/
theorem exists_of_bit {s : SharedService} {i : ℕ} {b : Bool} (h : s.bit i = some b) :
    ∃ c verdict, s.calls i = some c ∧ c.progress = .ended (.ok verdict) ∧
      verdict.overThreshold = some b := by
  rw [bit] at h
  split at h
  · next verifier proof readAt verdict hc => exact ⟨_, verdict, hc, rfl, h⟩
  · cases h

/-- The "yes" of the sample visit is vouched for. -/
theorem answers_are_vouched_sampleVisit :
    ∃ t c verdict u, exec (SharedService.step .sample VerifierService.sampleOptions
        VerifierService.sampleFiles (.ofNat 10000)) init sampleVisit = some t ∧
      verdict.overThreshold = some true ∧
      Vouched .sample VerifierService.sampleOptions VerifierService.sampleFiles (.ofNat 10000)
        sampleVisit 0 c verdict u := by
  have hbit : (exec (SharedService.step .sample VerifierService.sampleOptions
      VerifierService.sampleFiles (.ofNat 10000)) init sampleVisit).bind
      (fun t => t.bit 0) = some true := by
    decide +kernel
  obtain ⟨t, hrun, hbit⟩ := Option.bind_eq_some_iff.mp hbit
  obtain ⟨c, verdict, hc, hended, hb⟩ := exists_of_bit hbit
  obtain ⟨u, hu⟩ := (answers_are_vouched hrun).1 0 c verdict hc hended (by simp [hb])
  exact ⟨t, c, verdict, u, hrun, hb, hu⟩

end SharedService

end EightEen
