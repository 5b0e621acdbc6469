import EightEen.Js.Platform
import EightEen.Log
import EightEen.Transition

/-!
# The Verifier Service

This module models the `VerifierService` of `src/service.js` from its constructor to the
end of `start()` and beyond: the service is a state machine whose events are what happens
to it while it waits. Four parties feed it at once: the child with its log, its `exit` and
its `error`, the health probe, the clock, and callers of `stop()`.

`start()` suspends while the child spawns (`Phase.spawning`), while `#alive()` asks the
child (`Phase.probing`), during `delay(250)` (`Phase.sleeping`), and while it stops the
child (`Phase.stopping`). Between two of these it runs without interruption, and each
handler below is one such stretch. The log is absorbed in every phase.

A signal that `kill` sends reaches a child of one's own, so `kill` itself does not fail
here. The state keeps two facts about the outside world that the source has no field for:
whether the process is there (`running`) and whether it has been told to go (`stopped`).

## Main results

* `assertTrustAnchors_ok_iff`: what the audit of the log lets through.
* `Step.of_step`: what each event does, with the state it leads to.
* `sound_of_run`: what holds in each phase of `start()`, in every state that is reached
  under any order of events.
-/

open Js Transition

namespace EightEen

/-! ### Options -/

/-- The fields of `this.opts` that `start` and `stop` read. -/
structure ServiceOptions where
  binary : Value
  circuitDir : Value
  caCerts : Value
  host : Value
  port : Value
  vicalUrl : Value
  startupTimeoutMs : Value
  shutdownGraceMs : Value

/-- The field `name` of `{ ...defaults, ...opts }`, where `d` is its default: a field of
`opts` that is there wins, even when it is `undefined`. -/
def spreadField (opts : Value) (name : String) (d : Value) : Value :=
  match opts with
  | .object props =>
      match props.find? (fun p => p.1 == name) with
      | some p => p.2
      | none => d
  | _ => d

/-- `new VerifierService(opts)`. -/
def ServiceOptions.construct (opts : Value) : Completion ServiceOptions :=
  let missing := ["binary", "circuitDir", "caCerts"].filter fun k => !(opts.get k).truthy
  if missing ≠ [] then
    .error (.typeError ("VerifierService needs: " ++ ", ".intercalate missing))
  else .ok {
    binary := opts.get "binary"
    circuitDir := opts.get "circuitDir"
    caCerts := opts.get "caCerts"
    host := spreadField opts "host" (.string "127.0.0.1")
    port := spreadField opts "port" (.ofNat 8899)
    vicalUrl := spreadField opts "vicalUrl" .null
    startupTimeoutMs := spreadField opts "startupTimeoutMs" (.ofNat 180000)
    shutdownGraceMs := spreadField opts "shutdownGraceMs" (.ofNat 5000) }

/-- What reading `circuitDir` and `caCerts` returns, and `none` where it throws. -/
structure Files where
  listing : Option (List (List Char))
  bundle : Option (List Char)

/-! ### The state -/

/-- What is remembered of an exit, or of an `error` that is taken for one. -/
structure ChildExit where
  code : Option ℤ
  signal : Option String
  error : Option String

/-- What `start()` has to say once the child has been stopped. -/
inductive StopReason where
  | noCircuits
  | untrusted (e : Thrown)
  | skipped
  | timedOut

/-- Where `start()` is. In `stopping`, the flag says that the grace has run out. -/
inductive Phase where
  | idle
  | spawning
  | probing
  | sleeping
  | stopping (reason : StopReason) (killing : Bool)
  | resolved
  | rejected (e : Thrown)

/-- `start()` has resolved. -/
def Phase.isResolved : Phase → Bool
  | .resolved => true
  | _ => false

/-- The test for a `start()` that has resolved, as a statement about its phase. -/
theorem Phase.isResolved_iff {phase : Phase} : phase.isResolved = true ↔ phase = .resolved := by
  cases phase <;> simp [isResolved]

/-- `start()` has rejected. -/
def Phase.isRejected : Phase → Bool
  | .rejected _ => true
  | _ => false

/-- The test for a `start()` that has rejected: there is an error that it has rejected with. -/
theorem Phase.isRejected_iff {phase : Phase} :
    phase.isRejected = true ↔ ∃ e, phase = .rejected e := by
  cases phase <;> simp [isRejected]

/-- The service and its child. -/
structure VerifierService where
  phase : Phase
  /-- `#child` is not `null`. -/
  child : Bool
  ready : Bool
  expected : ℕ
  anchorsExpected : ℕ
  log : Log
  exit : Option ChildExit
  deadline : Number
  running : Bool
  stopped : Bool

namespace VerifierService

/-- The service before `start()`. -/
def init : VerifierService where
  phase := .idle
  child := false
  ready := false
  expected := 0
  anchorsExpected := 0
  log := .empty
  exit := none
  deadline := .nan
  running := false
  stopped := false

/-! ### Messages -/

/-- `throw new Error(text)`, where the text may fail to be built. -/
def raise : Completion String → Thrown
  | .ok text => .error text
  | .error e => e

/-- The lines of the log, joined. -/
def joinLines (separator : String) (lines : List (List Char)) : String :=
  separator.intercalate (lines.map String.ofList)

/-- `#circuitFailure(what)`. -/
def circuitFailure (p : Platform) (o : ServiceOptions) (s : VerifierService) (what : String) :
    Completion String := do
  let dir ← o.circuitDir.template p.toRuntime
  let skipped :=
    if s.log.skipped = [] then "" else "\n  " ++ joinLines "\n  " s.log.skipped
  .ok ("verifier " ++ what ++ " in '" ++ dir ++ "'. A partially-loaded verifier reports " ++
    "healthy and rejects the proofs whose circuits are missing -- indistinguishably from a " ++
    "genuine \"no\". Refusing to serve." ++ skipped)

/-- What `start()` rejects with once the child has been stopped. -/
def failure (p : Platform) (o : ServiceOptions) (s : VerifierService) : StopReason → Thrown
  | .noCircuits => raise (circuitFailure p o s "found 0 circuit files")
  | .untrusted e => e
  | .skipped => raise (circuitFailure p o s
      ("rejected at least " ++ toString s.log.skipped.length ++ " of " ++ toString s.expected ++
        " circuit files as not matching their circuit id (stopped at the first sign of " ++
        "corruption; the rest were still loading, so there may well be more)"))
  | .timedOut =>
      if s.log.circuits < s.expected then
        raise (circuitFailure p o s ("loaded only " ++ toString s.log.circuits ++ " of " ++
          toString s.expected ++ " circuits"))
      else raise do
        let ms ← o.startupTimeoutMs.template p.toRuntime
        .ok ("verifier did not become ready within " ++ ms ++ "ms")

/-- What `start()` rejects with when the child is gone. -/
def exitFailure (s : VerifierService) (x : ChildExit) : Thrown :=
  .error ("verifier exited during startup (code " ++ (x.code.map toString).getD "null" ++
    ", signal " ++ x.signal.getD "null" ++ ")\n" ++
    joinLines "\n" (s.log.logTail.drop (s.log.logTail.length - 10)))

/-! ### The audit -/

/-- `#assertTrustAnchors()`. -/
def assertTrustAnchors (p : Platform) (o : ServiceOptions) (s : VerifierService) :
    Completion Unit :=
  if 0 < s.log.vical ∧ ¬o.vicalUrl.truthy then
    .error (.error ("verifier loaded " ++ p.numberText (countNumber s.log.vical) ++
      " issuer certificates from a network trust list that was never configured. 8een's " ++
      "trust boundary must be a deliberate, offline choice. Refusing to serve."))
  else if s.log.anchors < s.anchorsExpected then
    .error (raise do
      let bundle ← o.caCerts.template p.toRuntime
      .ok ("trust list silently truncated: '" ++ bundle ++ "' contains " ++
        toString s.anchorsExpected ++ " certificates but the verifier loaded only " ++
        toString s.log.anchors ++ ". Every issuer in the missing " ++
        toString (s.anchorsExpected - s.log.anchors) ++ " would be rejected as untrusted, " ++
        "with no error anywhere. Check for a malformed PEM boundary (an " ++
        "\"-----END CERTIFICATE-----\" and the next \"-----BEGIN CERTIFICATE-----\" sharing " ++
        "a line will stop parsing dead). Refusing to serve."))
  else if s.log.anchors + s.log.vical = 0 then
    .error (raise do
      let bundle ← o.caCerts.template p.toRuntime
      .ok ("verifier trusts 0 issuer certificates (from '" ++ bundle ++ "'). It would reject " ++
        "every proof as issuer_untrusted -- indistinguishable from a genuine \"no\", and " ++
        "every legitimate adult would be turned away by a verifier that sounds certain. " ++
        "Refusing to serve."))
  else .ok ()

/-- **The audit passes** on a log that shows no unasked-for trust list, a whole bundle, and
somebody to trust. -/
theorem assertTrustAnchors_ok_iff (p : Platform) (o : ServiceOptions) (s : VerifierService) :
    assertTrustAnchors p o s = .ok () ↔
      (s.log.vical ≠ 0 → o.vicalUrl.truthy = true) ∧ s.anchorsExpected ≤ s.log.anchors ∧
        0 < s.log.anchors + s.log.vical := by
  rw [assertTrustAnchors]
  constructor
  · intro h
    split at h
    · cases h
    next hvical =>
    split at h
    · cases h
    next hanchors =>
    split at h
    · cases h
    next htotal =>
    refine ⟨fun hne => ?_, not_lt.mp hanchors, pos_iff_ne_zero.mpr htotal⟩
    by_contra hurl
    exact hvical ⟨pos_iff_ne_zero.mpr hne, hurl⟩
  · rintro ⟨hvical, hanchors, htotal⟩
    rw [if_neg (fun h => h.2 (hvical h.1.ne')), if_neg (not_lt.mpr hanchors), if_neg htotal.ne']

/-! ### Stopping -/

/-- `await this.stop()` in `start()`, up to the end or to the wait for the child's exit. The
signal is sent before the grace is looked at. -/
def beginStop (p : Platform) (o : ServiceOptions) (s : VerifierService) (reason : StopReason) :
    VerifierService :=
  if ¬s.child ∨ s.exit.isSome then
    { s with ready := false, phase := .rejected (failure p o s reason) }
  else if isDelay o.shutdownGraceMs then
    { s with ready := false, stopped := true, phase := .stopping reason false }
  else
    { s with
      ready := false
      stopped := true
      phase := .rejected (p.delayError o.shutdownGraceMs) }

/-- `stop()`, called by whoever holds the service. -/
def stop (s : VerifierService) : VerifierService :=
  { s with ready := false, stopped := s.stopped || (s.child && s.exit.isNone) }

/-! ### Starting -/

/-- The two counts that `start()` begins with. -/
def count (files : Files) (s : VerifierService) : VerifierService :=
  { s with
    expected := countCircuitFiles files.listing
    anchorsExpected := countPemCertificates files.bundle }

/-- The text of the child's `-port` argument. -/
def address (p : Platform) (o : ServiceOptions) : Completion String := do
  let host ← o.host.template p.toRuntime
  let port ← o.port.template p.toRuntime
  .ok (host ++ ":" ++ port)

/-- `start()` up to its first wait. A `spawn` that fails later has `created = false`, and
announces itself with an `error`. -/
def start (p : Platform) (o : ServiceOptions) (files : Files) (s : VerifierService)
    (created : Bool) : VerifierService :=
  match address p o with
  | .error e => { s.count files with phase := .rejected e }
  | .ok _ => { s.count files with phase := .spawning, child := true, running := created }

/-- The body of the loop of `#awaitReady` from the failed first test on. -/
def checkSkipped (p : Platform) (o : ServiceOptions) (s : VerifierService) : VerifierService :=
  if s.log.skipped ≠ [] then beginStop p o s .skipped
  else { s with phase := .sleeping }

/-- The loop of `#awaitReady`, from its condition to its next wait. -/
def loopTop (p : Platform) (o : ServiceOptions) (s : VerifierService) (now : TimeValue) :
    VerifierService :=
  if clockBefore now.val s.deadline then
    match s.exit with
    | some x => { s with phase := .rejected (exitFailure s x) }
    | none =>
        if s.log.started ∧ s.expected ≤ s.log.circuits then { s with phase := .probing }
        else checkSkipped p o s
  else beginStop p o s .timedOut

/-- `#awaitReady(startupTimeoutMs)` up to its first wait, with the two clock readings on the
way. -/
def awaitReady (p : Platform) (o : ServiceOptions) (s : VerifierService)
    (clock now : TimeValue) : VerifierService :=
  if s.expected = 0 then beginStop p o s .noCircuits
  else
    match clockSum p clock.val o.startupTimeoutMs with
    | .error e => { s with phase := .rejected e }
    | .ok deadline => loopTop p o { s with deadline } now

/-- The loop of `#awaitReady` from the answer of `#alive()` on. -/
def afterProbe (p : Platform) (o : ServiceOptions) (s : VerifierService) (alive : Bool) :
    VerifierService :=
  if alive then
    match assertTrustAnchors p o s with
    | .ok () => { s with ready := true, phase := .resolved }
    | .error e => beginStop p o s (.untrusted e)
  else checkSkipped p o s

/-! ### The child -/

/-- The `exit` handler, and the end of a `stop()` that waits for it. -/
def onExit (p : Platform) (o : ServiceOptions) (s : VerifierService) (code : Option ℤ)
    (signal : Option String) : VerifierService :=
  let s := { s with
    exit := some { code, signal, error := none }
    ready := false
    running := false }
  match s.phase with
  | .stopping reason _ => { s with phase := .rejected (failure p o s reason) }
  | _ => s

/-- The `error` handler. `once(child, 'spawn')` and `once(child, 'exit')` reject as well. -/
def onError (p : Platform) (o : ServiceOptions) (s : VerifierService) (code : Option String)
    (message : String) : VerifierService :=
  let s := { s with
    ready := false
    exit := s.exit.or (some { code := none, signal := none, error := some message })
    log := { s.log with
      logTail := s.log.logTail ++ [("child error: " ++ message).toList] } }
  match s.phase with
  | .spawning =>
      { s with phase := .rejected (raise do
          let binary ← o.binary.template p.toRuntime
          .ok ("cannot start verifier binary '" ++ binary ++ "': " ++ code.getD message)) }
  | .stopping _ _ => { s with phase := .rejected (.error message) }
  | _ => s

/-! ### Events -/

/-- The pipes of the child. -/
inductive Pipe where
  | stdout
  | stderr
  deriving DecidableEq

/-- What happens to a service. -/
inductive Event where
  /-- `start()` is called, and `spawn` returns. -/
  | start (created : Bool)
  /-- `start()` is called, and `spawn` throws. -/
  | spawnThrows (e : Thrown)
  /-- The child's `spawn`, with the clock readings of `#awaitReady`. -/
  | spawned (clock now : TimeValue)
  /-- The child's `exit`. -/
  | exit (code : Option ℤ) (signal : Option String)
  /-- The child's `error`. -/
  | error (code : Option String) (message : String)
  /-- A chunk of one of the pipes. -/
  | data (pipe : Pipe) (chunk : List Char)
  /-- The answer of `#alive()`. -/
  | health (alive : Bool)
  /-- The end of `delay(250)`. -/
  | wake (now : TimeValue)
  /-- The end of the grace, in a `stop()` of `start()`. -/
  | graceOver
  /-- A call of `stop()`. -/
  | stop

/-- One event, or `none` if it cannot happen in this state. -/
def step (p : Platform) (o : ServiceOptions) (files : Files) (s : VerifierService) :
    Event → Option VerifierService
  | .start created =>
      match s.phase with
      | .idle => some (start p o files s created)
      | _ => none
  | .spawnThrows e =>
      match s.phase with
      | .idle => some { s.count files with phase := .rejected e }
      | _ => none
  | .spawned clock now =>
      match s.phase with
      | .spawning => some (awaitReady p o s clock now)
      | _ => none
  | .exit code signal => if s.running then some (onExit p o s code signal) else none
  | .error code message => if s.child then some (onError p o s code message) else none
  | .data _ chunk => if s.child then some { s with log := s.log.absorb chunk } else none
  | .health alive =>
      match s.phase with
      | .probing => some (afterProbe p o s alive)
      | _ => none
  | .wake now =>
      match s.phase with
      | .sleeping => some (loopTop p o s now)
      | _ => none
  | .graceOver =>
      match s.phase with
      | .stopping reason false => some { s with phase := .stopping reason true }
      | _ => none
  | .stop => some s.stop

/-! ### What can happen -/

variable {p : Platform} {o : ServiceOptions} {files : Files}

/-- Where a stretch of `start()` leads that does not make the service ready. -/
inductive Onward (p : Platform) (o : ServiceOptions) (s : VerifierService) :
    VerifierService → Prop
  | stops (reason : StopReason) : Onward p o s (beginStop p o s reason)
  | exited (x : ChildExit) (hexit : s.exit = some x) :
      Onward p o s { s with phase := .rejected (exitFailure s x) }
  | undated (clock : TimeValue) (e : Thrown)
      (hsum : clockSum p clock.val o.startupTimeoutMs = .error e) :
      Onward p o s { s with phase := .rejected e }
  | probes (hstarted : s.log.started = true) (hcircuits : s.expected ≤ s.log.circuits) :
      Onward p o s { s with phase := .probing }
  | sleeps : Onward p o s { s with phase := .sleeping }

/-- The check for skipped circuits stops the child over one of them, or goes on to the probe. -/
theorem onward_checkSkipped (s : VerifierService) : Onward p o s (checkSkipped p o s) := by
  rw [checkSkipped]
  split
  · exact .stops .skipped
  · exact .sleeps

/-- One turn of the loop of `#awaitReady` fails, stops the child, probes it, or sleeps. -/
theorem onward_loopTop (s : VerifierService) (now : TimeValue) :
    Onward p o s (loopTop p o s now) := by
  rw [loopTop]
  split
  · split
    · next x hexit => exact .exited x hexit
    · split
      · next hloaded => exact .probes hloaded.1 hloaded.2
      · exact onward_checkSkipped s
  · exact .stops .timedOut

/-- `#awaitReady` sets its deadline, and then leads where a turn of its loop leads. -/
theorem onward_awaitReady (s : VerifierService) (clock now : TimeValue) :
    ∃ deadline, Onward p o { s with deadline } (awaitReady p o s clock now) := by
  rw [awaitReady]
  split
  · exact ⟨s.deadline, .stops .noCircuits⟩
  · split
    · next e hsum => exact ⟨s.deadline, .undated clock e hsum⟩
    · next deadline _ => exact ⟨deadline, onward_loopTop { s with deadline } now⟩

/-- A probe that is answered makes the service ready if the audit passes, and nothing else
does. -/
theorem afterProbe_cases (p : Platform) (o : ServiceOptions) (s : VerifierService)
    (alive : Bool) :
    (alive = true ∧ assertTrustAnchors p o s = .ok () ∧
        afterProbe p o s alive = { s with ready := true, phase := .resolved }) ∨
      Onward p o s (afterProbe p o s alive) := by
  cases alive with
  | true =>
      rw [afterProbe, if_pos rfl]
      cases haudit : assertTrustAnchors p o s with
      | ok u => exact Or.inl ⟨rfl, rfl, rfl⟩
      | error e => exact Or.inr (.stops (.untrusted e))
  | false =>
      rw [afterProbe, if_neg (by simp)]
      exact Or.inr (onward_checkSkipped s)

/-- **What a step does.** -/
inductive Step (p : Platform) (o : ServiceOptions) (files : Files) (s : VerifierService) :
    Event → VerifierService → Prop
  | start (created : Bool) (hphase : s.phase = .idle) : Step p o files s (.start created)
      { s.count files with phase := .spawning, child := true, running := created }
  | unaddressed (created : Bool) (e : Thrown) (hphase : s.phase = .idle) :
      Step p o files s (.start created) { s.count files with phase := .rejected e }
  | spawnThrows (e : Thrown) (hphase : s.phase = .idle) :
      Step p o files s (.spawnThrows e) { s.count files with phase := .rejected e }
  | spawned (clock now : TimeValue) (hphase : s.phase = .spawning) :
      Step p o files s (.spawned clock now) (awaitReady p o s clock now)
  | exit (code : Option ℤ) (signal : Option String) (hrunning : s.running = true)
      (hphase : ∀ reason killing, s.phase ≠ .stopping reason killing) :
      Step p o files s (.exit code signal)
        { s with exit := some ⟨code, signal, none⟩, ready := false, running := false }
  | exitStops (code : Option ℤ) (signal : Option String) (e : Thrown)
      (hrunning : s.running = true) (hphase : s.phase ≠ .idle) :
      Step p o files s (.exit code signal)
        { s with
          exit := some ⟨code, signal, none⟩
          ready := false
          running := false
          phase := .rejected e }
  | error (code : Option String) (message : String) (hchild : s.child = true)
      (hphase : ∀ reason killing, s.phase ≠ .stopping reason killing) :
      Step p o files s (.error code message)
        { s with
          ready := false
          exit := s.exit.or (some ⟨none, none, some message⟩)
          log := { s.log with
            logTail := s.log.logTail ++ [("child error: " ++ message).toList] } }
  | errorRejects (code : Option String) (message : String) (e : Thrown)
      (hchild : s.child = true) (hphase : s.phase ≠ .idle) (hwaiting : s.phase ≠ .resolved) :
      Step p o files s (.error code message)
        { s with
          ready := false
          exit := s.exit.or (some ⟨none, none, some message⟩)
          log := { s.log with
            logTail := s.log.logTail ++ [("child error: " ++ message).toList] }
          phase := .rejected e }
  | data (pipe : Pipe) (chunk : List Char) (hchild : s.child = true) :
      Step p o files s (.data pipe chunk) { s with log := s.log.absorb chunk }
  | health (alive : Bool) (hphase : s.phase = .probing) :
      Step p o files s (.health alive) (afterProbe p o s alive)
  | wake (now : TimeValue) (hphase : s.phase = .sleeping) :
      Step p o files s (.wake now) (loopTop p o s now)
  | graceOver (reason : StopReason) (hphase : s.phase = .stopping reason false) :
      Step p o files s .graceOver { s with phase := .stopping reason true }
  | stop : Step p o files s .stop s.stop

/-- The call of `start()` is a step of the service that is idle, and of no other. -/
theorem step_start (s : VerifierService) (created : Bool) (hphase : s.phase = .idle) :
    Step p o files s (.start created) (start p o files s created) := by
  rw [VerifierService.start]
  split
  · next e _ => exact .unaddressed created e hphase
  · exact .start created hphase

/-- The listener on `'exit'` runs for a child that is still running. -/
theorem step_onExit {s : VerifierService} (code : Option ℤ) (signal : Option String)
    (hrunning : s.running = true) : Step p o files s (.exit code signal)
      (onExit p o s code signal) := by
  rw [onExit]
  dsimp only
  split
  · next hphase => exact .exitStops code signal _ hrunning (by simp [hphase])
  · next hphase => exact .exit code signal hrunning hphase

/-- The listener on `'error'` runs for any child that there is, running or not. -/
theorem step_onError {s : VerifierService} (code : Option String) (message : String)
    (hchild : s.child = true) : Step p o files s (.error code message)
      (onError p o s code message) := by
  rw [onError]
  dsimp only
  split
  · next hphase =>
      exact .errorRejects code message _ hchild (by simp [hphase]) (by simp [hphase])
  · next hphase =>
      exact .errorRejects code message _ hchild (by simp [hphase]) (by simp [hphase])
  · next hphase => exact .error code message hchild hphase

/-- **Every step has one of the shapes of `Step`**: what the executable function does, seen by its
event and by the phase that it finds. -/
theorem Step.of_step {s s' : VerifierService} {e : Event}
    (h : step p o files s e = some s') : Step p o files s e s' := by
  cases e with
  | start created =>
      rw [VerifierService.step] at h
      split at h <;> cases h
      next hphase => exact step_start s created hphase
  | spawnThrows e =>
      rw [VerifierService.step] at h
      split at h <;> cases h
      next hphase => exact .spawnThrows e hphase
  | spawned clock now =>
      rw [VerifierService.step] at h
      split at h <;> cases h
      next hphase => exact .spawned clock now hphase
  | exit code signal =>
      rw [VerifierService.step] at h
      split at h <;> cases h
      next hrunning => exact step_onExit code signal hrunning
  | error code message =>
      rw [VerifierService.step] at h
      split at h <;> cases h
      next hchild => exact step_onError code message hchild
  | data pipe chunk =>
      rw [VerifierService.step] at h
      split at h <;> cases h
      next hchild => exact .data pipe chunk hchild
  | health alive =>
      rw [VerifierService.step] at h
      split at h <;> cases h
      next hphase => exact .health alive hphase
  | wake now =>
      rw [VerifierService.step] at h
      split at h <;> cases h
      next hphase => exact .wake now hphase
  | graceOver =>
      rw [VerifierService.step] at h
      split at h <;> cases h
      next reason hphase => exact .graceOver reason hphase
  | stop =>
      cases h
      exact .stop

/-! ### Invariants -/

/-- The child has announced itself, and every circuit file is accounted for. -/
structure Loaded (s : VerifierService) : Prop where
  started : s.log.started = true
  circuits : s.expected ≤ s.log.circuits
  positive : 0 < s.expected

/-- What holds in each phase of `start()`. -/
def PhaseFacts (s : VerifierService) : Phase → Prop
  | .idle => s.child = false ∧ s.ready = false
  | .spawning => s.ready = false
  | .probing => Loaded s ∧ s.ready = false
  | .sleeping => 0 < s.expected ∧ s.ready = false
  | .stopping _ _ => s.exit = none ∧ s.ready = false
  | .resolved => Loaded s
  | .rejected _ => s.ready = false

/-- The facts of the phase the service is in. A process belongs to a child, and the counts
are those of the files from the first moment of `start()` on. -/
structure Sound (files : Files) (s : VerifierService) : Prop where
  facts : PhaseFacts s s.phase
  running : s.running = true → s.child = true
  counted : s.phase ≠ .idle → s.expected = countCircuitFiles files.listing ∧
    s.anchorsExpected = countPemCertificates files.bundle

/-- What the stretches of `start()` leave as it was. -/
structure Kept (s s' : VerifierService) : Prop where
  child : s'.child = s.child
  expected : s'.expected = s.expected
  anchorsExpected : s'.anchorsExpected = s.anchorsExpected
  log : s'.log = s.log
  exit : s'.exit = s.exit
  running : s'.running = s.running

/-- A service that has just been constructed is sound: no child, and nothing expected. -/
theorem sound_init : Sound files init :=
  ⟨⟨rfl, rfl⟩, fun h => absurd h (by decide), fun h => absurd rfl h⟩

/-- **What stopping can lead to**: there is nothing to stop, the wait for the child begins,
or the grace is refused behind a signal already sent. -/
theorem beginStop_cases (p : Platform) (o : ServiceOptions) (s : VerifierService)
    (reason : StopReason) :
    ((s.child = false ∨ s.exit.isSome = true) ∧ beginStop p o s reason =
        { s with ready := false, phase := .rejected (failure p o s reason) }) ∨
      (s.exit = none ∧ isDelay o.shutdownGraceMs = true ∧ beginStop p o s reason =
        { s with ready := false, stopped := true, phase := .stopping reason false }) ∨
      (isDelay o.shutdownGraceMs = false ∧ beginStop p o s reason =
        { s with
          ready := false
          stopped := true
          phase := .rejected (p.delayError o.shutdownGraceMs) }) := by
  rw [beginStop]
  by_cases hgone : ¬s.child ∨ s.exit.isSome
  · rw [if_pos hgone]
    exact Or.inl ⟨by simpa using hgone, rfl⟩
  rw [if_neg hgone]
  have hexit : s.exit = none := Option.not_isSome_iff_eq_none.mp (not_or.mp hgone).2
  cases hgrace : isDelay o.shutdownGraceMs with
  | true => exact Or.inr (Or.inl ⟨hexit, rfl, rfl⟩)
  | false => exact Or.inr (Or.inr ⟨rfl, rfl⟩)

/-- Sending the signal of `stop()` leaves the child, the log and what is expected as they were. -/
theorem beginStop_kept (s : VerifierService) (reason : StopReason) :
    Kept s (beginStop p o s reason) := by
  rcases beginStop_cases p o s reason with ⟨-, h⟩ | ⟨-, -, h⟩ | ⟨-, h⟩ <;> rw [h] <;>
    exact ⟨rfl, rfl, rfl, rfl, rfl, rfl⟩

/-- A service that is being stopped is not ready, and will not be. -/
theorem beginStop_ready (s : VerifierService) (reason : StopReason) :
    (beginStop p o s reason).ready = false := by
  rcases beginStop_cases p o s reason with ⟨-, h⟩ | ⟨-, -, h⟩ | ⟨-, h⟩ <;> rw [h]

/-- What holds while a child is being stopped: there is no exit yet, or the stop is over at once.
-/
theorem beginStop_facts (s : VerifierService) (reason : StopReason) :
    PhaseFacts (beginStop p o s reason) (beginStop p o s reason).phase := by
  rcases beginStop_cases p o s reason with ⟨-, h⟩ | ⟨hexit, -, h⟩ | ⟨-, h⟩ <;> rw [h]
  · rfl
  · exact ⟨hexit, rfl⟩
  · rfl

namespace Onward

variable {s s' : VerifierService}

/-- No stretch of `start()` touches the child, the log or what is expected. -/
theorem kept (h : Onward p o s s') : Kept s s' := by
  cases h with
  | stops reason => exact beginStop_kept s reason
  | _ => exact ⟨rfl, rfl, rfl, rfl, rfl, rfl⟩

/-- No stretch of `start()` but the last makes a service ready. -/
theorem ready (h : Onward p o s s') (hready : s.ready = false) : s'.ready = false := by
  cases h with
  | stops reason => exact beginStop_ready s reason
  | _ => exact hready

/-- Where a stretch leads, the facts of the phase that it leads to hold. -/
theorem facts (h : Onward p o s s') (hexpected : 0 < s.expected) (hready : s.ready = false) :
    PhaseFacts s' s'.phase := by
  cases h with
  | stops reason => exact beginStop_facts s reason
  | exited x hexit => exact hready
  | undated clock e hsum => exact hready
  | probes hstarted hcircuits => exact ⟨⟨hstarted, hcircuits, hexpected⟩, hready⟩
  | sleeps => exact ⟨hexpected, hready⟩

end Onward

/-- Entering the loop leaves the child, the log and what is expected as they were. -/
theorem awaitReady_kept (s : VerifierService) (clock now : TimeValue) :
    Kept s (awaitReady p o s clock now) := by
  obtain ⟨deadline, h⟩ := onward_awaitReady (p := p) (o := o) s clock now
  obtain ⟨h₁, h₂, h₃, h₄, h₅, h₆⟩ := h.kept
  exact ⟨h₁, h₂, h₃, h₄, h₅, h₆⟩

/-- Entering the loop of a service that is not ready, the facts of the next phase hold. -/
theorem awaitReady_facts {s : VerifierService} (clock now : TimeValue)
    (hready : s.ready = false) :
    PhaseFacts (awaitReady p o s clock now) (awaitReady p o s clock now).phase := by
  -- Without circuit files there is nothing to wait for.
  by_cases hexpected : s.expected = 0
  · rw [awaitReady, if_pos hexpected]
    exact beginStop_facts s .noCircuits
  · obtain ⟨deadline, h⟩ := onward_awaitReady (p := p) (o := o) s clock now
    exact h.facts (Nat.pos_of_ne_zero hexpected) hready

/-- The answer of the probe leaves the child, the log and what is expected as they were. -/
theorem afterProbe_kept (s : VerifierService) (alive : Bool) :
    Kept s (afterProbe p o s alive) := by
  rcases afterProbe_cases p o s alive with ⟨-, -, h⟩ | h
  · rw [h]
    exact ⟨rfl, rfl, rfl, rfl, rfl, rfl⟩
  · exact h.kept

/-- **The last stretch**: a probe that was answered resolves the start of a service that has
loaded everything, and any other one goes back to the loop. -/
theorem afterProbe_facts {s : VerifierService} (alive : Bool) (hloaded : Loaded s)
    (hready : s.ready = false) :
    PhaseFacts (afterProbe p o s alive) (afterProbe p o s alive).phase := by
  rcases afterProbe_cases p o s alive with ⟨-, -, h⟩ | h
  · rw [h]
    exact ⟨hloaded.1, hloaded.2, hloaded.3⟩
  · exact h.facts hloaded.positive hready

/-- A log only grows. -/
theorem Loaded.absorb {s : VerifierService} (h : Loaded s) (chunk : List Char) :
    Loaded { s with log := s.log.absorb chunk } := by
  refine ⟨?_, ?_, h.positive⟩
  · dsimp only
    rw [(Log.adds_absorb _ _).started, h.started, Bool.true_or]
  · dsimp only
    rw [(Log.adds_absorb _ _).circuits]
    exact h.circuits.trans (Nat.le_add_right _ _)

/-- The facts of a phase survive what happens to the service from outside. -/
theorem PhaseFacts.weaken {s s' : VerifierService} {phase : Phase} (h : PhaseFacts s phase)
    (hchild : s'.child = s.child) (hready : s.ready = false → s'.ready = false)
    (hexit : ∀ reason killing, phase = .stopping reason killing → s'.exit = s.exit)
    (hexpected : s'.expected = s.expected) (hloaded : Loaded s → Loaded s') :
    PhaseFacts s' phase := by
  cases phase with
  | idle => exact ⟨hchild.trans h.1, hready h.2⟩
  | spawning => exact hready h
  | probing => exact ⟨hloaded h.1, hready h.2⟩
  | sleeping => exact ⟨hexpected ▸ h.1, hready h.2⟩
  | stopping reason killing => exact ⟨(hexit reason killing rfl).trans h.1, hready h.2⟩
  | resolved => exact hloaded h
  | rejected e => exact hready h

/-- The stretches of `start()` behind its first wait. -/
theorem Sound.of_kept {s s' : VerifierService} (hs : Sound files s) (hkept : Kept s s')
    (hphase : s.phase ≠ .idle) (hfacts : PhaseFacts s' s'.phase) : Sound files s' where
  facts := hfacts
  running := by rw [hkept.child, hkept.running]; exact hs.running
  counted _ := by rw [hkept.expected, hkept.anchorsExpected]; exact hs.counted hphase

/-- **The facts of a phase hold in it**, whatever happens. -/
theorem sound_step {s s' : VerifierService} {e : Event} (hs : Sound files s)
    (hstep : step p o files s e = some s') : Sound files s' := by
  have hfacts := hs.facts
  cases Step.of_step hstep with
  | start created hphase =>
      rw [hphase] at hfacts
      exact ⟨hfacts.2, fun _ => rfl, fun _ => ⟨rfl, rfl⟩⟩
  | unaddressed created e hphase =>
      rw [hphase] at hfacts
      exact ⟨hfacts.2, hs.running, fun _ => ⟨rfl, rfl⟩⟩
  | spawnThrows e hphase =>
      rw [hphase] at hfacts
      exact ⟨hfacts.2, hs.running, fun _ => ⟨rfl, rfl⟩⟩
  | spawned clock now hphase =>
      rw [hphase] at hfacts
      exact hs.of_kept (awaitReady_kept s clock now) (by simp [hphase])
        (awaitReady_facts clock now hfacts)
  | exit code signal hrunning hphase =>
      refine ⟨hfacts.weaken rfl (fun _ => rfl) (fun reason killing h => ?_) rfl fun hl =>
        ⟨hl.1, hl.2, hl.3⟩, fun h => absurd h (by simp), hs.counted⟩
      exact absurd h (hphase reason killing)
  | exitStops code signal e hrunning hphase =>
      exact ⟨rfl, fun h => absurd h (by simp), fun _ => hs.counted hphase⟩
  | error code message hchild hphase =>
      refine ⟨hfacts.weaken rfl (fun _ => rfl) (fun reason killing h => ?_) rfl fun hl =>
        ⟨hl.1, hl.2, hl.3⟩, fun _ => hchild, hs.counted⟩
      exact absurd h (hphase reason killing)
  | errorRejects code message e hchild hphase hwaiting =>
      exact ⟨rfl, fun _ => hchild, fun _ => hs.counted hphase⟩
  | data pipe chunk hchild =>
      exact ⟨hfacts.weaken rfl id (fun _ _ _ => rfl) rfl fun hl => hl.absorb chunk, hs.running,
        hs.counted⟩
  | health alive hphase =>
      rw [hphase] at hfacts
      exact hs.of_kept (afterProbe_kept s alive) (by simp [hphase])
        (afterProbe_facts alive hfacts.1 hfacts.2)
  | wake now hphase =>
      rw [hphase] at hfacts
      have honward := onward_loopTop (p := p) (o := o) s now
      exact hs.of_kept honward.kept (by simp [hphase]) (honward.facts hfacts.1 hfacts.2)
  | graceOver reason hphase =>
      rw [hphase] at hfacts
      exact ⟨hfacts, hs.running, fun _ => hs.counted (by simp [hphase])⟩
  | stop =>
      exact ⟨hfacts.weaken rfl (fun _ => rfl) (fun _ _ _ => rfl) rfl fun hl =>
        ⟨hl.1, hl.2, hl.3⟩, hs.running, hs.counted⟩

/-- The facts of every phase hold in every state that a run reaches. -/
theorem sound_of_run {s : VerifierService} {events : List Event}
    (hrun : exec (step p o files) init events = some s) : Sound files s :=
  exec_invariant (fun _ _ _ hs hstep => sound_step hs hstep) hrun sound_init

/-! ### A service to evaluate with -/

/-- Options with every default in place. -/
def sampleOptions : ServiceOptions where
  binary := .string "/opt/verifier"
  circuitDir := .string "/opt/circuits"
  caCerts := .string "/opt/certs.pem"
  host := .string "127.0.0.1"
  port := .ofNat 8899
  vicalUrl := .null
  startupTimeoutMs := .ofNat 180000
  shutdownGraceMs := .ofNat 5000

/-- The name of a circuit file. -/
def sampleCircuit : List Char := List.replicate 64 'a'

/-- One circuit, and a bundle of one certificate. -/
def sampleFiles : Files where
  listing := some [sampleCircuit]
  bundle := some "-----BEGIN CERTIFICATE-----".toList

/-- The lines of a child that has loaded both and announces itself. -/
def sampleLines : List (List Char) :=
  ["Read ".toList ++ sampleCircuit, "adding Issuer CA CN=Root".toList,
    "\"msg\":\"Starting server\"".toList]

/-- What that child writes. -/
def sampleOutput : List Char := unlines sampleLines

/-- A start that ends in a ready service. -/
def sampleStart : List Event :=
  [.start true, .spawned (sampleTime 0) (sampleTime 0), .data .stdout sampleOutput,
    .wake (sampleTime 250), .health true]

/-- A start over a child that loads its circuit and announces itself resolves, with the child
still running. -/
theorem sampleStart_resolves :
    ∃ s, exec (step .sample sampleOptions sampleFiles) init sampleStart = some s ∧
      s.phase = .resolved ∧ s.running = true := by
  have hrun : (exec (step .sample sampleOptions sampleFiles) init sampleStart).map
      (fun s => (s.phase.isResolved, s.running)) = some (true, true) := by
    decide +kernel
  obtain ⟨s, hs, hfields⟩ := Option.map_eq_some_iff.mp hrun
  obtain ⟨hphase, hrunning⟩ := Prod.mk.inj hfields
  exact ⟨s, hs, Phase.isResolved_iff.mp hphase, hrunning⟩

end VerifierService

end EightEen
