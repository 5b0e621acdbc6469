import EightEen.Boot

/-!
# Failed Boots

A start that fails hands its caller nothing to stop the child with, so it has to have stopped
it. This module follows the three ways to start something (`Entry`) to their ends, over every
behaviour of the child, and says when a rejection leaves no process behind.

The service cleans up after itself on most of its ways out. What it does not reckon with is
an `error` of a child that is still running, which it takes for an exit, a grace that no
timer takes, and a deadline that cannot be computed. The two layers above do not clean up at
all: what they refuse once the service is up, they refuse with the child running.

## Main results

* `rejected_not_running`: when `VerifierService.start` rejects with the child gone.
* `failed_boot_leaves_nothing`: the same for all three layers.
* `refused_policy_leaves_child`: a policy that the constructor refuses leaves the child
  running.
-/

open Js Transition

namespace EightEen

namespace VerifierService

variable {p : Platform} {o : ServiceOptions} {files : Files}

/-! ### The service -/

/-- The options let `start()` stop the child whenever it wants to. -/
structure Stoppable (p : Platform) (o : ServiceOptions) : Prop where
  grace : isDelay o.shutdownGraceMs = true
  deadline : ∀ clock : TimeValue, ∃ x, clockSum p clock.val o.startupTimeoutMs = .ok x

/-- Before `start()` has resolved, a child emits `error` only when there is no process, or
none any more. -/
def ErrorsAreFinal (s : VerifierService) : Event → Prop
  | .error _ _ => s.running = false ∨ s.phase = .resolved
  | _ => True

/-- What is taken for an exit before `start()` has resolved was one, and a rejection leaves
no process. -/
structure Cleared (s : VerifierService) : Prop where
  exit : s.phase ≠ .resolved → s.exit.isSome = true → s.running = false
  childless : s.child = false → s.exit = none
  rejected : ∀ e, s.phase = .rejected e → s.running = false

/-- A service that has just been constructed has left nothing behind. -/
theorem cleared_init : Cleared init :=
  ⟨fun _ _ => rfl, fun _ => rfl, fun _ _ => rfl⟩

/-- The stretches of `start()` reject only over a child that is not there. -/
theorem Onward.childless {s s' : VerifierService} {e : Thrown} (ho : Stoppable p o)
    (h : Onward p o s s') (hrejected : s'.phase = .rejected e) :
    s.child = false ∨ s.exit.isSome = true := by
  cases h with
  | stops reason =>
      rcases beginStop_cases p o s reason with ⟨hgone, -⟩ | ⟨-, -, hstop⟩ | ⟨hno, -⟩
      · exact hgone
      · rw [hstop] at hrejected
        cases hrejected
      · rw [ho.grace] at hno
        cases hno
  | exited x hexit => exact Or.inr (by rw [hexit]; rfl)
  | undated clock e hsum =>
      obtain ⟨x, hx⟩ := ho.deadline clock
      rw [hx] at hsum
      cases hsum
  | probes hstarted hcircuits => cases hrejected
  | sleeps => cases hrejected

/-- A stretch that keeps the child keeps the service cleared, if it rejects only when the child is
gone or has ended. -/
theorem Cleared.of_kept {s s' : VerifierService} (hs : Cleared s) (hsound : Sound files s)
    (hphase : s.phase ≠ .resolved) (hkept : Kept s s')
    (hrejected : ∀ e, s'.phase = .rejected e → s.child = false ∨ s.exit.isSome = true) :
    Cleared s' where
  exit _ := by rw [hkept.exit, hkept.running]; exact hs.exit hphase
  childless := by rw [hkept.child, hkept.exit]; exact hs.childless
  rejected e he := by
    rw [hkept.running]
    rcases hrejected e he with hchild | hexit
    · by_contra hrunning
      rw [hsound.running (by simpa using hrunning)] at hchild
      cases hchild
    · exact hs.exit hphase hexit

/-- A service over which no process runs is cleared. -/
theorem Cleared.of_not_running {s : VerifierService} (hrunning : s.running = false)
    (hchildless : s.child = false → s.exit = none) : Cleared s :=
  ⟨fun _ _ => hrunning, hchildless, fun _ _ => hrunning⟩

/-- **Each step leaves a rejected start without a process**, unless a running child emits
`error`. -/
theorem cleared_step (ho : Stoppable p o) {s s' : VerifierService} {e : Event}
    (hsound : Sound files s) (hs : Cleared s) (hfinal : ErrorsAreFinal s e)
    (hstep : step p o files s e = some s') : Cleared s' := by
  have hfacts := hsound.facts
  -- Before `start()` there is no process.
  have hidle (hphase : s.phase = .idle) : s.running = false := by
    rw [hphase] at hfacts
    by_contra hrunning
    have hchild := hsound.running (by simpa using hrunning)
    rw [hfacts.1] at hchild
    cases hchild
  cases Step.of_step hstep with
  | start created hphase =>
      rw [hphase] at hfacts
      have hexit : (count files s).exit = none := hs.childless hfacts.1
      refine ⟨fun _ h => ?_, fun h => absurd h (by simp), fun e h => by cases h⟩
      rw [hexit] at h
      cases h
  | unaddressed created e hphase => exact Cleared.of_not_running (hidle hphase) hs.childless
  | spawnThrows e hphase => exact Cleared.of_not_running (hidle hphase) hs.childless
  | spawned clock now hphase =>
      obtain ⟨deadline, honward⟩ := onward_awaitReady (p := p) (o := o) s clock now
      refine hs.of_kept hsound (by simp [hphase]) (awaitReady_kept s clock now) fun e h => ?_
      have hgone := honward.childless ho h
      exact hgone
  | exit code signal hrunning hphase =>
      refine Cleared.of_not_running rfl fun h => ?_
      exact absurd ((hsound.running hrunning).symm.trans h) (by simp)
  | exitStops code signal e hrunning hphase =>
      refine Cleared.of_not_running rfl fun h => ?_
      exact absurd ((hsound.running hrunning).symm.trans h) (by simp)
  | error code message hchild hphase =>
      rcases hfinal with hrunning | hresolved
      · exact Cleared.of_not_running hrunning fun h => absurd (hchild.symm.trans h) (by simp)
      · exact ⟨fun h => absurd hresolved h, fun h => absurd (hchild.symm.trans h) (by simp),
          fun e h => by rw [show s.phase = .rejected e from h] at hresolved; cases hresolved⟩
  | errorRejects code message e hchild hphase hwaiting =>
      have hrunning : s.running = false := hfinal.resolve_right hwaiting
      exact Cleared.of_not_running hrunning fun h => absurd (hchild.symm.trans h) (by simp)
  | data pipe chunk hchild => exact ⟨hs.exit, hs.childless, hs.rejected⟩
  | health alive hphase =>
      refine hs.of_kept hsound (by simp [hphase]) (afterProbe_kept s alive) fun e h => ?_
      rcases afterProbe_cases p o s alive with ⟨-, -, hready⟩ | honward
      · rw [hready] at h
        cases h
      · exact honward.childless ho h
  | wake now hphase =>
      have honward := onward_loopTop (p := p) (o := o) s now
      exact hs.of_kept hsound (by simp [hphase]) honward.kept fun e h => honward.childless ho h
  | graceOver reason hphase =>
      exact ⟨fun _ => hs.exit (by simp [hphase]), hs.childless, fun e h => by cases h⟩
  | stop => exact ⟨hs.exit, hs.childless, hs.rejected⟩

/-- **A rejected `start()` leaves no process.** -/
theorem rejected_not_running (ho : Stoppable p o) {s : VerifierService} {events : List Event}
    {e : Thrown} (hrun : exec (step p o files) init events = some s)
    (hfinal : Meets (step p o files) ErrorsAreFinal init events)
    (hrejected : s.phase = .rejected e) : s.running = false := by
  have hinv := exec_invariant_of_meets (I := fun s => Sound files s ∧ Cleared s)
    (fun s e s' hs hok hstep =>
      ⟨sound_step hs.1 hstep, cleared_step ho hs.1 hs.2 hok hstep⟩) hrun hfinal
    ⟨sound_init, cleared_init⟩
  exact hinv.2.rejected e hrejected

/-- How `start()` has ended, if it has. -/
def outcome (s : VerifierService) : Option (Completion Unit) :=
  match s.phase with
  | .resolved => some (.ok ())
  | .rejected e => some (.error e)
  | _ => none

/-- A call of `start()` has rejected with an error exactly when its phase says so. -/
theorem outcome_eq_error_iff {s : VerifierService} {e : Thrown} :
    s.outcome = some (.error e) ↔ s.phase = .rejected e := by
  rw [outcome]
  split <;> simp_all

end VerifierService

/-! ### The three layers -/

/-- The ways to start something. -/
inductive Entry where
  /-- `service.start()`, of a service with these options. -/
  | service (o : ServiceOptions)
  /-- `Verifier.start(opts)`. -/
  | verifier (opts : Value)
  /-- `startGate(opts)`. -/
  | gate (opts : Value)

/-- A call in progress: the service it has constructed, if it has come that far, and its end,
if it has ended. -/
structure StartCall where
  service : Option VerifierService
  result : Option (Completion Unit)

/-- The process that the call has spawned is running. -/
def StartCall.childRunning (call : StartCall) : Bool :=
  match call.service with
  | some s => s.running
  | none => false

namespace Entry

/-- The call up to `service.start()`. -/
def prepare (p : Platform) (env : Surroundings) : Entry → Completion ServiceOptions
  | .service o => .ok o
  | .verifier opts => (Verifier.prepare p env.provisioned opts).map Prepared.service
  | .gate opts => do
      prepareGate opts
      (Verifier.prepare p env.provisioned (verifierOptions opts)).map Prepared.service

/-- The call from the end of `service.start()` on. -/
def finish (p : Platform) (env : Surroundings) (entry : Entry) (started : Completion Unit) :
    Completion Unit :=
  match entry with
  | .service _ => started
  | .verifier opts => (Verifier.start p env started opts).map fun _ => ()
  | .gate opts => (startGate p env started opts).map fun _ => ()

/-- The call after these events of its service. -/
def call (p : Platform) (env : Surroundings) (files : Files) (entry : Entry)
    (events : List VerifierService.Event) : Option StartCall :=
  match entry.prepare p env with
  | .error e =>
      match events with
      | [] => some { service := none, result := some (.error e) }
      | _ => none
  | .ok o => (exec (VerifierService.step p o files) .init events).map fun s =>
      { service := some s, result := s.outcome.map (entry.finish p env) }

/-- Once the service is up, the layers above have nothing to refuse. -/
def Admitted (p : Platform) (env : Surroundings) : Entry → Prop
  | .service _ => True
  | .verifier opts => (Verifier.policyOf opts).Admitted p env
  | .gate opts =>
      (Verifier.policyOf (verifierOptions opts)).Admitted p env ∧
        ((singleUseOf opts).truthy = true → singleUseOf opts = .boolean true) ∧ Bounded opts

/-- A call that gets as far as its service has nothing to refuse once it is up, can stop it
before, and has a child that behaves. -/
structure Clean (p : Platform) (env : Surroundings) (files : Files) (entry : Entry)
    (events : List VerifierService.Event) (o : ServiceOptions) : Prop where
  admitted : entry.Admitted p env
  stoppable : VerifierService.Stoppable p o
  final : Meets (VerifierService.step p o files) VerifierService.ErrorsAreFinal .init events

/-! ### Nothing to refuse -/

/-- **A verifier whose policy is admitted is constructed**: once its service has started, nothing
of `start` throws. -/
theorem start_isOk {p : Platform} {env : Surroundings} {opts : Value} {prepared : Prepared}
    (hprepared : Verifier.prepare p env.provisioned opts = .ok prepared)
    (hpolicy : (Verifier.policyOf opts).Admitted p env) :
    ∃ v, Verifier.start p env (.ok ()) opts = .ok v := by
  obtain ⟨v, hv⟩ := (construct_isOk_iff p env prepared.requiredClaim _).mpr hpolicy
  exact ⟨v, bind_eq_ok.mpr ⟨prepared, hprepared, bind_eq_ok.mpr ⟨(), rfl, hv⟩⟩⟩

/-- **A gate is created** over a verifier with the same single use, when the bounds of the options
are usable. -/
theorem createGate_isOk {p : Platform} {opts : Value} {v : Verifier}
    (hv : v.requiresSingleUse = singleUseOf opts)
    (hsingle : (singleUseOf opts).truthy = true → singleUseOf opts = .boolean true)
    (hbounded : Bounded opts) : ∃ g, createGate p (gateOptions opts v) = .ok g := by
  cases htruthy : (singleUseOf opts).truthy with
  | false => exact (createGate_gateOptions_iff p v htruthy).mpr hbounded
  | true =>
      refine (createGate_ok_iff p _).mpr ⟨⟨rfl, rfl, rfl, rfl⟩, Or.inr ?_,
        (bounded_gateOptions opts v).mpr hbounded⟩
      exact hv.trans (hsingle htruthy)

/-- A call that is admitted ends well once its service is up. -/
theorem finish_eq_ok {p : Platform} {env : Surroundings} {entry : Entry} {o : ServiceOptions}
    (hprepare : entry.prepare p env = .ok o) (hadmitted : entry.Admitted p env) :
    entry.finish p env (.ok ()) = .ok () := by
  cases entry with
  | service o => rfl
  | verifier opts =>
      rw [prepare] at hprepare
      cases hp : Verifier.prepare p env.provisioned opts with
      | error e =>
          rw [hp] at hprepare
          cases hprepare
      | ok prepared =>
          obtain ⟨v, hv⟩ := start_isOk hp hadmitted
          rw [finish, hv]
          rfl
  | gate opts =>
      obtain ⟨hpolicy, hsingle, hbounded⟩ := hadmitted
      obtain ⟨⟨⟩, hgate, hprepare⟩ := bind_eq_ok.mp hprepare
      cases hp : Verifier.prepare p env.provisioned (verifierOptions opts) with
      | error e =>
          rw [hp] at hprepare
          cases hprepare
      | ok prepared =>
          obtain ⟨v, hv⟩ := start_isOk hp hpolicy
          obtain ⟨g, hg⟩ :=
            createGate_isOk (p := p) (requiresSingleUse_of_start hv) hsingle hbounded
          have hstart : startGate p env (.ok ()) opts = .ok (g, v) :=
            bind_eq_ok.mpr ⟨(), hgate, bind_eq_ok.mpr ⟨v, hv, bind_eq_ok.mpr ⟨g, hg, rfl⟩⟩⟩
          rw [finish, hstart]
          rfl

end Entry

/-- **A failed boot leaves nothing running**, if either the call is refused before there is a
service, or the layers above have nothing left to refuse, the options let the service be
stopped, and a running child emits no `error`. -/
theorem failed_boot_leaves_nothing {p : Platform} {env : Surroundings} {files : Files}
    {entry : Entry} {events : List VerifierService.Event} {call : StartCall} {e : Thrown}
    (hcall : entry.call p env files events = some call)
    (hclean : ∀ o, entry.prepare p env = .ok o → entry.Clean p env files events o)
    (hrejected : call.result = some (.error e)) : call.childRunning = false := by
  rw [Entry.call] at hcall
  cases hprepare : entry.prepare p env with
  | error e' =>
      rw [hprepare] at hcall
      cases events with
      | nil =>
          obtain rfl := Option.some.inj hcall
          rfl
      | cons _ _ => cases hcall
  | ok o =>
      rw [hprepare] at hcall
      obtain ⟨s, hrun, rfl⟩ := Option.map_eq_some_iff.mp hcall
      obtain ⟨hadmitted, hstoppable, hfinal⟩ := hclean o hprepare
      obtain ⟨started, houtcome, hfinish⟩ := Option.map_eq_some_iff.mp hrejected
      cases started with
      | ok u =>
          rw [Entry.finish_eq_ok hprepare hadmitted] at hfinish
          cases hfinish
      | error e' =>
          exact VerifierService.rejected_not_running hstoppable hrun hfinal
            (VerifierService.outcome_eq_error_iff.mp houtcome)

/-- Options for `Verifier.start`, with a tolerance. -/
def sampleStartOptions (toleranceMs : Value) : Value :=
  .object [("binary", .string "/opt/verifier"), ("circuitDir", .string "/opt/circuits"),
    ("caCerts", .string "/opt/certs.pem"), ("toleranceMs", toleranceMs)]

/-- The options of the worked run prepare the service of the worked start. -/
theorem prepare_sampleStartOptions (toleranceMs : Value) :
    (Entry.verifier (sampleStartOptions toleranceMs)).prepare .sample sampleSurroundings =
      .ok VerifierService.sampleOptions :=
  rfl

/-- A child that announces itself without having loaded its certificate, and does not go at
the first signal. -/
def distrusted : List VerifierService.Event :=
  [.start true, .spawned (sampleTime 0) (sampleTime 0),
    .data .stdout (unlines ["Read ".toList ++ VerifierService.sampleCircuit,
      "\"msg\":\"Starting server\"".toList]),
    .wake (sampleTime 250), .health true, .graceOver, .exit none (some "SIGKILL")]

/-- The audit refuses the child while it runs, and the call rejects once it has been killed. -/
theorem failed_boot_leaves_nothing_distrusted :
    ((Entry.verifier (sampleStartOptions .undefined)).call .sample sampleSurroundings
        VerifierService.sampleFiles (distrusted.take 6)).map (fun call =>
          (call.result.isSome, call.childRunning)) = some (false, true) ∧
      ∃ call e, (Entry.verifier (sampleStartOptions .undefined)).call .sample sampleSurroundings
          VerifierService.sampleFiles distrusted = some call ∧
        call.result = some (.error e) ∧ call.childRunning = false := by
  refine ⟨by decide +kernel, ?_⟩
  have hrun : (exec (VerifierService.step .sample VerifierService.sampleOptions
      VerifierService.sampleFiles) .init distrusted).map (fun s => s.phase.isRejected) =
      some true := by
    decide +kernel
  obtain ⟨s, hs, hphase⟩ := Option.map_eq_some_iff.mp hrun
  obtain ⟨e, hrejected⟩ := Phase.isRejected_iff.mp hphase
  have hcall : (Entry.verifier (sampleStartOptions .undefined)).call .sample sampleSurroundings
      VerifierService.sampleFiles distrusted = some ⟨some s, some (.error e)⟩ := by
    rw [Entry.call, prepare_sampleStartOptions]
    dsimp only
    rw [hs, Option.map_some, VerifierService.outcome_eq_error_iff.mpr hrejected]
    rfl
  refine ⟨_, e, hcall, rfl, failed_boot_leaves_nothing hcall (fun o ho => ?_) rfl⟩
  rw [prepare_sampleStartOptions] at ho
  obtain rfl := Except.ok.inj ho
  refine ⟨⟨⟨_, rfl⟩, ⟨_, rfl⟩, fun h => absurd h (by decide)⟩,
    ⟨by decide +kernel, fun clock => ⟨_, rfl⟩⟩, meets_of_forall ?_⟩
  simp [distrusted, VerifierService.ErrorsAreFinal]

/-- **A refused policy leaves the child running.** With a tolerance of NaN the service starts,
becomes ready, and is then forgotten by a `Verifier.start` that rejects. -/
theorem refused_policy_leaves_child :
    ∃ call e, (Entry.verifier (sampleStartOptions (.number .nan))).call .sample
        sampleSurroundings VerifierService.sampleFiles VerifierService.sampleStart = some call ∧
      call.result = some (.error e) ∧ call.childRunning = true := by
  obtain ⟨s, hs, hphase, hrunning⟩ := VerifierService.sampleStart_resolves
  have houtcome : s.outcome = some (.ok ()) := by
    rw [VerifierService.outcome, hphase]
  refine ⟨⟨some s, some (.error (.typeError
    "toleranceMs must be a non-negative finite number, got NaN"))⟩, _, ?_, rfl, hrunning⟩
  rw [Entry.call, prepare_sampleStartOptions]
  dsimp only
  rw [hs, Option.map_some, houtcome]
  rfl

end EightEen
