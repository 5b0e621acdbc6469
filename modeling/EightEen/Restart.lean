import EightEen.Audit

/-!
# Restarting a Service

One service object over its whole life: `start()` and `stop()` are called on it again and
again, each awaited to its end, and every `start()` may leave behind a child whose handlers
stay attached. This module wraps the service of a single start (`VerifierService`) in a
`Lifetime`, which adds the awaited `stop()` and the earlier children.

`start()` counts the files anew and replaces the child, and that is **all** it sets: the
counters, the list of ignored files, the announcement, the residual and the record of an exit
stay as the earlier child has left them.

## Main results

* `inv_of_run`: what holds of an object that spawns a single child.
* `nothing_carried_over`: the promises of `start()` and `stop()`, in every run in which no
  child is spawned behind another and none that is alive reports an error.
* `restart_leaks`: after an exit a further `start()` rejects whatever its child does, and the
  `stop()` behind it leaves that child alive.
* `error_leaks`: so does the `stop()` behind the error of a child that is still there.
* `restart_carries_over`: a healthy child refused, a mute child blessed, and a child leaked.
-/

open Js Transition

namespace EightEen

open VerifierService (step_log_cases step_resolved_cases sampleFiles sampleOptions sampleOutput)

/-! ### The object -/

/-- Where an awaited `stop()` is. While it waits, the flag says that the grace has run out. -/
inductive StopCall where
  | none
  | waiting (killing : Bool)
  | resolved
  | rejected (e : Thrown)

/-- The call has not come to its end. -/
def StopCall.isWaiting : StopCall → Bool
  | .waiting _ => true
  | _ => false

/-- `start()` has not been called, or has come to its end. -/
def Phase.isSettled : Phase → Bool
  | .idle | .resolved | .rejected _ => true
  | _ => false

/-- An event that is a call of the owner. -/
def VerifierService.Event.isCall : VerifierService.Event → Bool
  | .start _ | .spawnThrows _ | .stop => true
  | _ => false

/-- A service object, the child it has spawned last, and those it has spawned before. The
source has no field for what follows `stopCall`: what the last `start()` has read, the text
that has come in from the last child, and which of the earlier children are still there. -/
structure Lifetime where
  service : VerifierService
  stopCall : StopCall
  files : Files
  text : List Char
  older : List Bool

namespace Lifetime

/-- What happens to the object: calls of its owner, what happens to the last start and its
child, and what the earlier children do. -/
inductive Event where
  /-- `start()` is called, and `spawn` returns. -/
  | start (files : Files) (created : Bool)
  /-- `start()` is called, and `spawn` throws. -/
  | spawnThrows (files : Files) (e : Thrown)
  /-- `stop()` is called. -/
  | stop
  /-- The grace of that `stop()` runs out. -/
  | graceOver
  /-- Something happens to the last start, or to its child. -/
  | inner (e : VerifierService.Event)
  /-- The `exit` of an earlier child. -/
  | olderExit (i : ℕ) (code : Option ℤ) (signal : Option String)
  /-- The `error` of an earlier child. -/
  | olderError (i : ℕ) (message : String)
  /-- A chunk of an earlier child. -/
  | olderData (i : ℕ) (chunk : List Char)

/-- A new object. -/
def init : Lifetime where
  service := .init
  stopCall := .none
  files := ⟨none, none⟩
  text := []
  older := []

/-- Nothing is being awaited. -/
def settled (t : Lifetime) : Bool :=
  t.service.phase.isSettled && !t.stopCall.isWaiting

variable (p : Platform) (o : ServiceOptions)

/-- `start()`, on an object that has a past. The log of the new child is still empty, and the
child before it joins the earlier ones. -/
def start (t : Lifetime) (files : Files) (created : Bool) : Lifetime :=
  match VerifierService.address p o with
  | .error _ =>
      { t with
        service := t.service.start p o files created
        stopCall := .none
        files }
  | .ok _ =>
      { service := { t.service.start p o files created with stopped := false }
        stopCall := .none
        files
        text := []
        older := if t.service.child then t.service.running :: t.older else t.older }

/-- `stop()`, up to its end or to the wait for the child's exit. -/
def beginStop (t : Lifetime) : Lifetime :=
  { t with
    service := t.service.stop
    stopCall :=
      if ¬t.service.child ∨ t.service.exit.isSome then .resolved
      else if isDelay o.shutdownGraceMs then .waiting false
      else .rejected (p.delayError o.shutdownGraceMs) }

/-- What an event of the child means to a `stop()` that waits for its exit. -/
def StopCall.after : StopCall → VerifierService.Event → StopCall
  | .waiting _, .exit _ _ => .resolved
  | .waiting _, .error _ message => .rejected (.error message)
  | call, _ => call

/-- What happens to the last start. When the grace of a `stop()` inside of it runs out and an
exit is on record, of whichever child, then that `stop()` is over. -/
def innerStep (t : Lifetime) (e : VerifierService.Event) : Option VerifierService :=
  match e, t.service.phase, t.service.exit with
  | .graceOver, .stopping reason false, some _ =>
      some { t.service with phase := .rejected (VerifierService.failure p o t.service reason) }
  | _, _, _ => VerifierService.step p o t.files t.service e

/-- One event, or `none` if it cannot happen in this state. -/
def step (t : Lifetime) : Event → Option Lifetime
  | .start files created => if t.settled then some (t.start p o files created) else none
  | .spawnThrows files e =>
      if t.settled then
        some { t with
          service := { t.service.count files with phase := .rejected e }
          stopCall := .none
          files }
      else none
  | .stop => if t.settled then some (t.beginStop p o) else none
  | .graceOver =>
      match t.stopCall with
      | .waiting false => some { t with
          stopCall := if t.service.exit.isSome then .resolved else .waiting true }
      | _ => none
  | .inner e =>
      if e.isCall then none
      else (t.innerStep p o e).map fun service =>
        { t with service, stopCall := StopCall.after t.stopCall e, text := t.text ++ e.text }
  | .olderExit i code signal =>
      if t.older[i]? = some true then
        some { t with
          service := { t.service with exit := some ⟨code, signal, none⟩, ready := false }
          older := t.older.set i false }
      else none
  | .olderError i message =>
      if i < t.older.length then
        some { t with
          service := { t.service with
            ready := false
            exit := t.service.exit.or (some ⟨none, none, some message⟩)
            log := { t.service.log with
              logTail := t.service.log.logTail ++ [("child error: " ++ message).toList] } } }
      else none
  | .olderData i chunk =>
      if i < t.older.length then
        some { t with service := { t.service with log := t.service.log.absorb chunk } }
      else none

variable {p : Platform} {o : ServiceOptions}

/-! ### What an inner step leaves alone -/

/-- What happens to the last start leaves the child and the counted files alone, brings no
process back, and puts no exit on record but by an `exit` or an `error`. -/
structure Inner (e : VerifierService.Event) (s s' : VerifierService) : Prop where
  child : s'.child = s.child
  expected : s'.expected = s.expected
  anchorsExpected : s'.anchorsExpected = s.anchorsExpected
  anchors : s.log.anchors ≤ s'.log.anchors
  running : s'.running = true → s.running = true
  exit : s'.exit = s.exit ∨ s'.running = false ∨ ∃ code message, e = .error code message
  rejected : (∃ x, s.phase = .rejected x) → ∃ x, s'.phase = .rejected x

/-- A stretch that keeps child, log and what is expected is an inner step, as long as `start()`
has not rejected before it. -/
theorem Inner.of_kept {e : VerifierService.Event} {s s' : VerifierService}
    (h : VerifierService.Kept s s') (hphase : ∀ x, s.phase ≠ .rejected x) : Inner e s s' where
  child := h.child
  expected := h.expected
  anchorsExpected := h.anchorsExpected
  anchors := h.log ▸ le_rfl
  running := h.running ▸ id
  exit := Or.inl h.exit
  rejected := fun ⟨x, hx⟩ => absurd hx (hphase x)

/-- **A step of the service that is no call is an inner step**, whatever its event is. -/
theorem inner_of_step {files : Files} {s s' : VerifierService} {e : VerifierService.Event}
    (hcall : e.isCall = false) (hstep : VerifierService.step p o files s e = some s') :
    Inner e s s' := by
  cases VerifierService.Step.of_step hstep with
  | start | unaddressed | spawnThrows | stop => cases hcall
  | spawned clock now hphase =>
      exact .of_kept (VerifierService.awaitReady_kept s clock now) (by simp [hphase])
  | exit code signal hrunning hphase =>
      exact ⟨rfl, rfl, rfl, le_rfl, nofun, Or.inr (Or.inl rfl), id⟩
  | exitStops code signal x hrunning hphase =>
      exact ⟨rfl, rfl, rfl, le_rfl, nofun, Or.inr (Or.inl rfl), fun _ => ⟨x, rfl⟩⟩
  | error code message hchild hphase =>
      exact ⟨rfl, rfl, rfl, le_rfl, id, Or.inr (Or.inr ⟨code, message, rfl⟩), id⟩
  | errorRejects code message x hchild hphase hwaiting =>
      exact ⟨rfl, rfl, rfl, le_rfl, id, Or.inr (Or.inr ⟨code, message, rfl⟩), fun _ => ⟨x, rfl⟩⟩
  | data pipe chunk hchild =>
      refine ⟨rfl, rfl, rfl, ?_, id, Or.inl rfl, id⟩
      dsimp only
      rw [(Log.adds_absorb _ _).anchors]
      exact Nat.le_add_right _ _
  | health alive hphase =>
      exact .of_kept (VerifierService.afterProbe_kept s alive) (by simp [hphase])
  | wake now hphase =>
      exact .of_kept (VerifierService.onward_loopTop s now).kept (by simp [hphase])
  | graceOver reason hphase =>
      exact ⟨rfl, rfl, rfl, le_rfl, id, Or.inl rfl, fun ⟨x, hx⟩ => by simp [hphase] at hx⟩

/-! ### A single child -/

/-- The object has spawned one child at most, everything that is on record about it is true,
and a `stop()` that has resolved has left nothing behind. -/
structure Inv (t : Lifetime) : Prop where
  only : t.older = []
  sound : (∃ e, t.service.phase = .rejected e) ∨ VerifierService.Sound t.files t.service
  owned : t.service.running = true → t.service.child = true
  fresh : t.service.child = false → t.service.ready = false ∧ t.service.exit = none ∧
    t.text = [] ∧ (t.service.phase = .idle ∨ ∃ e, t.service.phase = .rejected e)
  reads : t.service.log.Reads t.text
  gone : t.service.exit ≠ none → t.service.running = false
  audited : t.service.phase = .resolved → t.service.anchorsExpected ≤ t.service.log.anchors
  stopped : t.stopCall = .resolved → t.service.running = false

/-- What keeps an object to a single child whose record can be trusted: `start()` is called
only as long as nothing has been spawned, and no child that is alive reports an `error`. -/
def Sole (t : Lifetime) : Event → Prop
  | .start _ _ => t.service.child = false
  | .inner (.error _ _) => t.service.running = false
  | _ => True

/-- The invariant holds of a service that has just been constructed. -/
theorem inv_init : Inv init where
  only := rfl
  sound := Or.inr ⟨⟨rfl, rfl⟩, fun h => absurd h (by decide), fun h => absurd rfl h⟩
  owned h := absurd h (by decide)
  fresh _ := ⟨rfl, rfl, rfl, Or.inl rfl⟩
  reads := Log.reads_empty
  gone h := absurd rfl h
  audited h := by cases h
  stopped h := by cases h

/-- But for the end of a grace period, an inner step of a lifetime is one of the service in it. -/
theorem innerStep_of_ne {e : VerifierService.Event} (he : e ≠ .graceOver) (t : Lifetime) :
    t.innerStep p o e = VerifierService.step p o t.files t.service e := by
  rw [innerStep]
  intro _ _ hgrace
  exact absurd hgrace he

/-- While a `stop()` inside of `start()` waits, no exit is on record. -/
theorem Inv.innerStep_eq {t : Lifetime} (h : Inv t) (e : VerifierService.Event) :
    t.innerStep p o e = VerifierService.step p o t.files t.service e := by
  rw [innerStep]
  rintro reason x - hphase hexit
  rcases h.sound with ⟨e, he⟩ | hsound
  · rw [hphase] at he
    cases he
  · have hfacts := hsound.facts
    rw [hphase] at hfacts
    rw [hfacts.1] at hexit
    cases hexit

/-- **A start keeps the invariant**, over whatever the earlier child has left, as long as that
child is gone. -/
theorem Inv.start {t : Lifetime} (h : Inv t) (files : Files) (created : Bool)
    (hchild : t.service.child = false) : Inv (t.start p o files created) := by
  obtain ⟨hready, hexit, htext, hphase⟩ := h.fresh hchild
  have hrunning : t.service.running = false := by
    by_contra hne
    rw [h.owned (by simpa using hne)] at hchild
    cases hchild
  rw [Lifetime.start, VerifierService.start]
  cases haddress : VerifierService.address p o with
  | error e =>
      exact {
        only := h.only
        sound := Or.inl ⟨e, rfl⟩
        owned := h.owned
        fresh := fun _ => ⟨hready, hexit, htext, Or.inr ⟨e, rfl⟩⟩
        reads := h.reads
        gone := h.gone
        audited := fun hresolved => by cases hresolved
        stopped := fun hresolved => by cases hresolved }
  | ok text =>
      exact {
        only := by simp [hchild, h.only]
        sound := Or.inr ⟨hready, fun _ => rfl, fun _ => ⟨rfl, rfl⟩⟩
        owned := fun _ => rfl
        fresh := fun hnone => by cases hnone
        reads := htext ▸ h.reads
        gone := fun hne => absurd hexit hne
        audited := fun hresolved => by cases hresolved
        stopped := fun hresolved => by cases hresolved }

/-- Nothing happens to a start that has not spawned. -/
theorem Inv.child_of_step {t : Lifetime} {e : VerifierService.Event} {s' : VerifierService}
    (h : Inv t) (hcall : e.isCall = false)
    (hstep : VerifierService.step p o t.files t.service e = some s') :
    t.service.child = true := by
  by_contra hnot
  obtain ⟨-, -, -, hphase⟩ := h.fresh (by simpa using hnot)
  cases VerifierService.Step.of_step hstep with
  | start | unaddressed | spawnThrows | stop => cases hcall
  | spawned clock now hwaits => simp [hwaits] at hphase
  | exit code signal hrunning _ => exact hnot (h.owned hrunning)
  | exitStops code signal x hrunning _ => exact hnot (h.owned hrunning)
  | error code message hthere _ => exact hnot hthere
  | errorRejects code message x hthere _ _ => exact hnot hthere
  | data pipe chunk hthere => exact hnot hthere
  | health alive hwaits => simp [hwaits] at hphase
  | wake now hwaits => simp [hwaits] at hphase
  | graceOver reason hwaits => simp [hwaits] at hphase

/-- An awaited `stop()` resolves at an `exit` only. -/
theorem StopCall.of_after_eq_resolved {call : StopCall} {e : VerifierService.Event}
    (h : StopCall.after call e = .resolved) :
    call = .resolved ∨ ∃ code signal, e = .exit code signal := by
  cases call with
  | resolved => exact Or.inl rfl
  | none | rejected => cases e <;> cases h
  | waiting killing =>
      cases e with
      | exit code signal => exact Or.inr ⟨code, signal, rfl⟩
      | _ => cases h

/-- **An inner step keeps the invariant**, unless it is the error of a child that is still
running. -/
theorem Inv.inner {t : Lifetime} {e : VerifierService.Event} {s' : VerifierService} (h : Inv t)
    (hcall : e.isCall = false)
    (herror : ∀ code message, e = .error code message → t.service.running = false)
    (hstep : VerifierService.step p o t.files t.service e = some s') :
    Inv { t with
      service := s'
      stopCall := StopCall.after t.stopCall e
      text := t.text ++ e.text } := by
  have hinner := inner_of_step hcall hstep
  have hstays : t.service.running = false → s'.running = false := by
    intro hnot
    by_contra hne
    rw [hinner.running (by simpa using hne)] at hnot
    cases hnot
  constructor
  · exact h.only
  · rcases h.sound with hrejected | hsound
    · exact Or.inl (hinner.rejected hrejected)
    · exact Or.inr (VerifierService.sound_step hsound hstep)
  · intro hrunning
    exact hinner.child.trans (h.owned (hinner.running hrunning))
  · intro hnone
    rw [hinner.child, h.child_of_step hcall hstep] at hnone
    cases hnone
  · rcases step_log_cases hstep with ⟨pipe, chunk, rfl, hlog⟩ | ⟨htext, logTail, hlog⟩
    · dsimp only
      rw [hlog]
      exact h.reads.absorb chunk
    · dsimp only
      rw [hlog, htext, List.append_nil]
      exact ⟨h.reads.1, h.reads.2, h.reads.3, h.reads.4, h.reads.5, h.reads.6⟩
  · intro hne
    rcases hinner.exit with hexit | hnot | ⟨code, message, he⟩
    · exact hstays (h.gone (hexit ▸ hne))
    · exact hnot
    · exact hstays (herror code message he)
  · intro hresolved
    rcases step_resolved_cases hstep hresolved with hold | ⟨-, -, haudit⟩
    · exact hinner.anchorsExpected ▸ (h.audited hold).trans hinner.anchors
    · have henough := ((VerifierService.assertTrustAnchors_ok_iff p o _).mp haudit).2.1
      exact hinner.anchorsExpected ▸ henough.trans hinner.anchors
  · intro hresolved
    rcases StopCall.of_after_eq_resolved hresolved with hold | ⟨code, signal, rfl⟩
    · exact hstays (h.stopped hold)
    · cases VerifierService.Step.of_step hstep <;> rfl

/-- A call of `stop()` keeps the invariant. -/
theorem Inv.stop {t : Lifetime} (h : Inv t) : Inv (t.beginStop p o) := by
  refine ⟨h.only, ?_, h.owned, fun hnone => ⟨rfl, (h.fresh hnone).2⟩, h.reads, h.gone,
    h.audited, ?_⟩
  · rcases h.sound with hrejected | hsound
    · exact Or.inl hrejected
    · exact Or.inr (VerifierService.sound_step (p := p) (o := o) (e := .stop) hsound rfl)
  · intro hresolved
    rw [beginStop] at hresolved ⊢
    dsimp only at hresolved
    split at hresolved
    · next hnothing =>
        rcases hnothing with hnone | hexit
        · cases hrunning : t.service.running with
          | true => exact absurd (h.owned hrunning) hnone
          | false => exact hrunning
        · exact h.gone (Option.ne_none_iff_isSome.mpr hexit)
    · split at hresolved <;> cases hresolved

/-- **A step of an object with a single child.** -/
theorem inv_step {t t' : Lifetime} {e : Event} (h : Inv t) (hsole : Sole t e)
    (hstep : step p o t e = some t') : Inv t' := by
  cases e with
  | start files created =>
      rw [step] at hstep
      split at hstep <;> cases hstep
      exact h.start files created hsole
  | spawnThrows files e =>
      rw [step] at hstep
      split at hstep <;> cases hstep
      refine ⟨h.only, Or.inl ⟨e, rfl⟩, h.owned, fun hnone => ?_, h.reads, h.gone, nofun, nofun⟩
      obtain ⟨hready, hexit, htext, -⟩ := h.fresh hnone
      exact ⟨hready, hexit, htext, Or.inr ⟨e, rfl⟩⟩
  | stop =>
      rw [step] at hstep
      split at hstep <;> cases hstep
      exact h.stop
  | graceOver =>
      rw [step] at hstep
      split at hstep <;> cases hstep
      refine ⟨h.only, h.sound, h.owned, h.fresh, h.reads, h.gone, h.audited, ?_⟩
      intro hresolved
      dsimp only at hresolved
      split at hresolved
      · next hexit => exact h.gone (Option.ne_none_iff_isSome.mpr hexit)
      · cases hresolved
  | inner e =>
      rw [step] at hstep
      split at hstep
      · cases hstep
      next hcall =>
      rw [h.innerStep_eq] at hstep
      obtain ⟨s', hs', rfl⟩ := Option.map_eq_some_iff.mp hstep
      refine h.inner (by simpa using hcall) ?_ hs'
      rintro code message rfl
      exact hsole
  | olderExit | olderError | olderData =>
      rw [step, h.only] at hstep
      simp at hstep

/-- What holds of an object that spawns a single child, in every state that a run reaches. -/
theorem inv_of_run {t : Lifetime} {events : List Event}
    (hrun : exec (step p o) init events = some t) (hsole : Meets (step p o) Sole init events) :
    Inv t :=
  exec_invariant_of_meets (fun _ _ _ h hok hstep => inv_step h hok hstep) hrun hsole inv_init

/-! ### A healthy child -/

/-- The lines that the last child has logged. -/
def lines (t : Lifetime) : List (List Char) :=
  (splitLines [] t.text).lines

/-- The last child has logged the circuits and the issuers that are expected of it, and its
announcement. -/
structure LoggedEnough (t : Lifetime) : Prop where
  circuits : t.service.expected ≤ t.lines.countP circuitLoaded
  anchors : t.service.anchorsExpected ≤ t.lines.countP issuerCa
  started : t.lines.any serverStarted = true

/-- A log that gives no reason not to serve: no file is ignored, no trust list is loaded that
was not asked for, and once the child has announced itself and loaded its circuits, all its
issuers are there and somebody is trusted. -/
structure Sane (o : ServiceOptions) (s : VerifierService) (text : List Char) : Prop where
  unskipped : (splitLines [] text).lines.filterMap circuitSkipped = []
  asked : ((splitLines [] text).lines.filterMap vicalLoaded).sum ≠ 0 → o.vicalUrl.truthy = true
  anchors : (splitLines [] text).lines.any serverStarted = true →
    s.expected ≤ (splitLines [] text).lines.countP circuitLoaded →
    s.anchorsExpected ≤ (splitLines [] text).lines.countP issuerCa ∧
      0 < (splitLines [] text).lines.countP issuerCa +
        ((splitLines [] text).lines.filterMap vicalLoaded).sum

/-- What happens during a `start()` that is awaited while its child is healthy and in time:
the child neither exits nor reports an error, its log is sane, there is a circuit to load, and
no clock reading reaches the deadline. The earlier children do as they like. -/
def HealthyStep (p : Platform) (o : ServiceOptions) (t : Lifetime) : Event → Prop
  | .inner (.spawned clock now) => 0 < t.service.expected ∧
      ∃ deadline, clockSum p clock.val o.startupTimeoutMs = .ok deadline ∧
        clockBefore now.val deadline = true
  | .inner (.data _ chunk) => Sane o t.service (t.text ++ chunk)
  | .inner (.health _) => True
  | .inner (.wake now) => clockBefore now.val t.service.deadline = true
  | .olderExit _ _ _ | .olderError _ _ | .olderData _ _ => True
  | _ => False

/-- The child has announced itself, and has logged its circuits. -/
def Complete (t : Lifetime) : Prop :=
  t.lines.any serverStarted = true ∧ t.service.expected ≤ t.lines.countP circuitLoaded

/-- What a `start()` still waits for when the log is complete: the end of its present wait,
and the answer to its probe. -/
def waits (now : TimeValue) : Phase → List Event
  | .spawning => [.inner (.spawned now now), .inner (.health true)]
  | .sleeping => [.inner (.wake now), .inner (.health true)]
  | .probing => [.inner (.health true)]
  | _ => []

/-- `start()` is under way, or has resolved. -/
def onCourse : Phase → Bool
  | .spawning | .probing | .sleeping | .resolved => true
  | _ => false

/-- The object in the course of a `start()` whose child is healthy. -/
structure Healthy (o : ServiceOptions) (t : Lifetime) : Prop extends Inv t where
  unexited : t.service.exit = none
  here : t.service.child = true
  sane : Sane o t.service t.text
  course : onCourse t.service.phase = true

/-- A healthy lifetime is a sound service over the files of its latest start. -/
theorem Healthy.sound_service {t : Lifetime} (h : Healthy o t) :
    VerifierService.Sound t.files t.service := by
  rcases h.sound with ⟨e, he⟩ | hsound
  · have hcourse := h.course
    rw [he] at hcourse
    cases hcourse
  · exact hsound

/-- A healthy child has skipped no circuit. -/
theorem Healthy.unskipped {t : Lifetime} (h : Healthy o t) : t.service.log.skipped = [] :=
  h.reads.skipped.trans h.sane.unskipped

/-- The audit passes on the log of a healthy child that has loaded its circuits. -/
theorem Healthy.audit {t : Lifetime} (h : Healthy o t)
    (hloaded : VerifierService.Loaded t.service) :
    VerifierService.assertTrustAnchors p o t.service = .ok () := by
  obtain ⟨henough, htrusting⟩ := h.sane.anchors (h.reads.started ▸ hloaded.started)
    (h.reads.circuits ▸ hloaded.circuits)
  rw [VerifierService.assertTrustAnchors_ok_iff, h.reads.vical, h.reads.anchors]
  refine ⟨fun hvical => h.sane.asked fun hsum => ?_, henough, ?_⟩
  · exact hvical (sumCounts_zero_eq_zero_iff.mpr hsum)
  · rw [pos_iff_ne_zero] at htrusting ⊢
    intro hzero
    obtain ⟨hnone, hsum⟩ := add_eq_zero.mp hzero
    exact htrusting (add_eq_zero.mpr ⟨hnone, sumCounts_zero_eq_zero_iff.mp hsum⟩)

/-- A poll in time of a child that is there and has ignored nothing asks for its health when
the log is complete, and goes on waiting otherwise. -/
theorem loopTop_eq {s : VerifierService} {now : TimeValue}
    (htime : clockBefore now.val s.deadline = true) (hexit : s.exit = none)
    (hskipped : s.log.skipped = []) :
    VerifierService.loopTop p o s now =
      if s.log.started ∧ s.expected ≤ s.log.circuits then { s with phase := .probing }
      else { s with phase := .sleeping } := by
  have hsleeps : VerifierService.checkSkipped p o s = { s with phase := .sleeping } := by
    rw [VerifierService.checkSkipped, if_neg (not_not.mpr hskipped)]
  rw [VerifierService.loopTop, if_pos htime]
  split
  · next x hx =>
      rw [hexit] at hx
      cases hx
  · rw [hsleeps]

/-- The first poll, likewise. -/
theorem awaitReady_eq {s : VerifierService} {clock now : TimeValue} {deadline : Number}
    (hexpected : 0 < s.expected) (hsum : clockSum p clock.val o.startupTimeoutMs = .ok deadline)
    (htime : clockBefore now.val deadline = true) (hexit : s.exit = none)
    (hskipped : s.log.skipped = []) :
    VerifierService.awaitReady p o s clock now =
      if s.log.started ∧ s.expected ≤ s.log.circuits then
        { s with deadline, phase := .probing }
      else { s with deadline, phase := .sleeping } := by
  rw [VerifierService.awaitReady, if_neg (by omega), hsum]
  exact loopTop_eq (s := { s with deadline }) htime hexit hskipped

/-- The answer to the probe of a healthy child. -/
theorem Healthy.afterProbe_eq {t : Lifetime} (h : Healthy o t)
    (hloaded : VerifierService.Loaded t.service) (alive : Bool) :
    VerifierService.afterProbe p o t.service alive =
      if alive then { t.service with ready := true, phase := .resolved }
      else { t.service with phase := .sleeping } := by
  rw [VerifierService.afterProbe]
  cases alive with
  | true => rw [if_pos rfl, if_pos rfl, h.audit hloaded]
  | false =>
      rw [if_neg (by simp), if_neg (by simp), VerifierService.checkSkipped, h.unskipped,
        if_neg (by simp)]

/-- A healthy step keeps to the single child. -/
theorem sole_of_healthyStep {t : Lifetime} {e : Event} (h : HealthyStep p o t e) : Sole t e := by
  cases e with
  | start files created => cases h
  | inner e =>
      cases e with
      | error code message => cases h
      | _ => trivial
  | _ => trivial

/-- A healthy child whose record is untouched stays healthy as long as its start is on course. -/
theorem Healthy.of_kept {t t' : Lifetime} (h : Healthy o t) (hinv : Inv t')
    (hkept : VerifierService.Kept t.service t'.service) (htext : t'.text = t.text)
    (hcourse : onCourse t'.service.phase = true) : Healthy o t' where
  toInv := hinv
  unexited := hkept.exit.trans h.unexited
  here := hkept.child.trans h.here
  sane := by
    refine ⟨?_, ?_, ?_⟩
    · rw [htext]
      exact h.sane.unskipped
    · rw [htext]
      exact h.sane.asked
    · rw [htext, hkept.expected, hkept.anchorsExpected]
      exact h.sane.anchors
  course := hcourse

/-- **A healthy child keeps its `start()` on course.** -/
theorem healthy_step {t t' : Lifetime} {e : Event} (h : Healthy o t)
    (hhealthy : HealthyStep p o t e) (hstep : step p o t e = some t') : Healthy o t' := by
  have hinv : Inv t' := inv_step h.toInv (sole_of_healthyStep hhealthy) hstep
  have hfacts := h.sound_service.facts
  cases e with
  | start | spawnThrows | stop | graceOver => cases hhealthy
  | olderExit | olderError | olderData =>
      rw [step, h.only] at hstep
      simp at hstep
  | inner e =>
      rw [step] at hstep
      split at hstep
      · cases hstep
      rw [h.toInv.innerStep_eq] at hstep
      obtain ⟨s', hs', rfl⟩ := Option.map_eq_some_iff.mp hstep
      cases VerifierService.Step.of_step hs' with
      | start | unaddressed | spawnThrows | exit | exitStops | error | errorRejects | graceOver |
          stop => cases hhealthy
      | spawned clock now hphase =>
          obtain ⟨hexpected, deadline, hsum, htime⟩ := hhealthy
          refine h.of_kept hinv (VerifierService.awaitReady_kept _ clock now)
            (List.append_nil _) ?_
          dsimp only
          rw [awaitReady_eq hexpected hsum htime h.unexited h.unskipped]
          split <;> rfl
      | data pipe chunk hchild =>
          exact ⟨hinv, h.unexited, h.here, ⟨hhealthy.1, hhealthy.2, hhealthy.3⟩, h.course⟩
      | health alive hphase =>
          rw [hphase] at hfacts
          refine h.of_kept hinv (VerifierService.afterProbe_kept _ alive) (List.append_nil _) ?_
          dsimp only
          rw [h.afterProbe_eq hfacts.1]
          cases alive <;> rfl
      | wake now hphase =>
          refine h.of_kept hinv (VerifierService.onward_loopTop _ now).kept (List.append_nil _) ?_
          dsimp only
          rw [loopTop_eq hhealthy h.unexited h.unskipped]
          split <;> rfl

/-- What a step makes of the last start, while no earlier child is around. -/
theorem Inv.step_inner {t : Lifetime} (h : Inv t) {e : VerifierService.Event}
    {s' : VerifierService} (hcall : e.isCall = false)
    (hstep : VerifierService.step p o t.files t.service e = some s') :
    ∃ t', step p o t (.inner e) = some t' ∧ t'.service = s' := by
  refine ⟨{ t with
    service := s'
    stopCall := StopCall.after t.stopCall e
    text := t.text ++ e.text }, ?_, rfl⟩
  rw [step, if_neg (by simp [hcall]), h.innerStep_eq, hstep, Option.map_some]

/-- The answered probe of a healthy child ends its `start()`. -/
theorem Healthy.probe_resolves {t : Lifetime} (h : Healthy o t)
    (hphase : t.service.phase = .probing) :
    ∃ t', step p o t (.inner (.health true)) = some t' ∧ t'.service.phase = .resolved := by
  have hfacts := h.sound_service.facts
  rw [hphase] at hfacts
  have hinner : VerifierService.step p o t.files t.service (.health true) =
      some { t.service with ready := true, phase := .resolved } := by
    rw [VerifierService.step, hphase, h.afterProbe_eq hfacts.1, if_pos rfl]
  obtain ⟨t', hstep, hservice⟩ := h.toInv.step_inner rfl hinner
  exact ⟨t', hstep, by rw [hservice]⟩

/-- With a complete log the present wait of a `start()` ends in a probe. -/
theorem Healthy.poll_probes {t : Lifetime} (h : Healthy o t) (hcomplete : t.Complete)
    {now : TimeValue} {e : VerifierService.Event}
    (hpoll : e = .spawned now now ∧ t.service.phase = .spawning ∨
      e = .wake now ∧ t.service.phase = .sleeping)
    (hhealthy : HealthyStep p o t (.inner e)) :
    ∃ t', step p o t (.inner e) = some t' ∧ t'.service.phase = .probing := by
  have hloaded : t.service.log.started = true ∧ t.service.expected ≤ t.service.log.circuits :=
    ⟨h.reads.started.trans hcomplete.1, h.reads.circuits ▸ hcomplete.2⟩
  rcases hpoll with ⟨rfl, hphase⟩ | ⟨rfl, hphase⟩
  · obtain ⟨hexpected, deadline, hsum, htime⟩ := hhealthy
    have hinner : VerifierService.step p o t.files t.service (.spawned now now) =
        some { t.service with deadline, phase := .probing } := by
      rw [VerifierService.step, hphase]
      dsimp only
      rw [awaitReady_eq hexpected hsum htime h.unexited h.unskipped, if_pos hloaded]
    obtain ⟨t', hstep, hservice⟩ := h.toInv.step_inner rfl hinner
    exact ⟨t', hstep, by rw [hservice]⟩
  · have hinner : VerifierService.step p o t.files t.service (.wake now) =
        some { t.service with phase := .probing } := by
      rw [VerifierService.step, hphase]
      dsimp only
      rw [loopTop_eq hhealthy h.unexited h.unskipped, if_pos hloaded]
    obtain ⟨t', hstep, hservice⟩ := h.toInv.step_inner rfl hinner
    exact ⟨t', hstep, by rw [hservice]⟩

/-- **A `start()` whose healthy child has logged everything resolves** when its present wait
ends in time and its probe is answered. -/
theorem Healthy.resolves {t : Lifetime} (h : Healthy o t) (hcomplete : t.Complete)
    (now : TimeValue)
    (htime : Meets (step p o) (HealthyStep p o) t (waits now t.service.phase)) :
    ∃ t', exec (step p o) t (waits now t.service.phase) = some t' ∧
      t'.service.phase = .resolved := by
  have hpoll : ∀ e : VerifierService.Event,
      (e = .spawned now now ∧ t.service.phase = .spawning ∨
        e = .wake now ∧ t.service.phase = .sleeping) → HealthyStep p o t (.inner e) →
      ∃ t', exec (step p o) t [.inner e, .inner (.health true)] = some t' ∧
        t'.service.phase = .resolved := by
    intro e he hhealthy
    obtain ⟨t₁, hstep, hprobing⟩ := h.poll_probes hcomplete he hhealthy
    obtain ⟨t', hstep', hresolved⟩ := (healthy_step h hhealthy hstep).probe_resolves
      (p := p) hprobing
    exact ⟨t', exec_cons_eq_some_iff.mpr ⟨t₁, hstep, exec_cons_eq_some_iff.mpr ⟨t', hstep', rfl⟩⟩,
      hresolved⟩
  have hcourse := h.course
  cases hphase : t.service.phase with
  | spawning =>
      rw [hphase] at htime
      exact hpoll _ (Or.inl ⟨rfl, hphase⟩) htime.1
  | sleeping =>
      rw [hphase] at htime
      exact hpoll _ (Or.inr ⟨rfl, hphase⟩) htime.1
  | probing =>
      obtain ⟨t', hstep, hresolved⟩ := h.probe_resolves (p := p) hphase
      exact ⟨t', exec_cons_eq_some_iff.mpr ⟨t', hstep, rfl⟩, hresolved⟩
  | resolved => exact ⟨t, rfl, hphase⟩
  | idle | stopping | rejected =>
      rw [hphase] at hcourse
      cases hcourse

/-- A `start()` that spawns the first child of the object sets out on course. -/
theorem healthy_of_start {t t' : Lifetime} {files : Files} (h : Inv t)
    (hchild : t.service.child = false) (hstep : step p o t (.start files true) = some t')
    (hphase : t'.service.phase = .spawning) : Healthy o t' := by
  have hinv := inv_step (e := .start files true) h hchild hstep
  obtain ⟨-, hexit, -, -⟩ := h.fresh hchild
  rw [step] at hstep
  split at hstep <;> cases hstep
  rw [Lifetime.start, VerifierService.start] at hinv hphase ⊢
  cases haddress : VerifierService.address p o with
  | error e =>
      rw [haddress] at hphase
      cases hphase
  | ok text =>
      rw [haddress] at hinv
      refine ⟨hinv, hexit, rfl, ⟨rfl, fun hne => absurd rfl hne, fun hannounced => ?_⟩, rfl⟩
      cases hannounced

/-! ### The promises -/

/-- What an object promises in the state `t` that the events lead to: if `start()` has
resolved, then for what its own child has logged; a `start()` whose child has been healthy so
far is on course or has resolved, and resolves at its next poll once the log is complete; and
if `stop()` has resolved, then no child is left. -/
structure NothingCarriedOver (p : Platform) (o : ServiceOptions) (events : List Event)
    (t : Lifetime) : Prop where
  blessed : t.service.phase = .resolved → t.LoggedEnough
  healthy : ∀ before files after t₁, events = before ++ .start files true :: after →
    exec (step p o) init (before ++ [.start files true]) = some t₁ →
    t₁.service.phase = .spawning → Meets (step p o) (HealthyStep p o) t₁ after →
    onCourse t.service.phase = true ∧ (t.Complete → ∀ now,
      Meets (step p o) (HealthyStep p o) t (waits now t.service.phase) →
      ∃ t', exec (step p o) t (waits now t.service.phase) = some t' ∧
        t'.service.phase = .resolved)
  gone : t.stopCall = .resolved →
    t.service.running = false ∧ ∀ running ∈ t.older, running = false

/-- The record of a single child says what that child has logged. -/
theorem Inv.loggedEnough {t : Lifetime} (h : Inv t) (hphase : t.service.phase = .resolved) :
    t.LoggedEnough := by
  rcases h.sound with ⟨e, he⟩ | hsound
  · rw [hphase] at he
    cases he
  · have hfacts := hsound.facts
    rw [hphase] at hfacts
    exact {
      circuits := h.reads.circuits ▸ hfacts.circuits
      anchors := h.reads.anchors ▸ h.audited hphase
      started := h.reads.started ▸ hfacts.started }

/-- **Nothing is carried over**, in every state of every run in which `start()` is called only
as long as nothing has been spawned, and no child that is alive reports an error. -/
theorem nothing_carried_over {events : List Event} {t : Lifetime}
    (hrun : exec (step p o) init events = some t)
    (hsole : Meets (step p o) Sole init events) : NothingCarriedOver p o events t := by
  have hinv := inv_of_run hrun hsole
  refine ⟨hinv.loggedEnough, ?_, fun hresolved => ⟨hinv.stopped hresolved, ?_⟩⟩
  · rintro before files after t₁ rfl hrun₁ hspawning hmeets
    obtain ⟨t₀, hrun₀, hstart⟩ := exec_append_eq_some_iff.mp hrun₁
    obtain ⟨t₁', hstep, hdone⟩ := exec_cons_eq_some_iff.mp hstart
    obtain rfl := Option.some.inj hdone
    obtain ⟨hsole₀, hfirst⟩ := meets_append_iff.mp hsole
    obtain ⟨t₀', hrun₀', hrest⟩ := exec_append_eq_some_iff.mp hrun
    obtain rfl : t₀ = t₀' := Option.some.inj (hrun₀.symm.trans hrun₀')
    obtain ⟨t₂, hstep₂, hafter⟩ := exec_cons_eq_some_iff.mp hrest
    obtain rfl : t₁' = t₂ := Option.some.inj (hstep.symm.trans hstep₂)
    have hhealthy : Healthy o t := exec_invariant_of_meets (I := Healthy o)
      (fun _ _ _ h hok hs => healthy_step h hok hs) hafter hmeets
      (healthy_of_start (inv_of_run hrun₀ hsole₀) (hfirst t₀ hrun₀).1 hstep hspawning)
    exact ⟨hhealthy.course, fun hcomplete now htime => hhealthy.resolves hcomplete now htime⟩
  · rw [hinv.only]
    exact nofun

/-- One child: a start that resolves, a `stop()`, and the exit of the child. -/
def singleLife : List Event :=
  [.start sampleFiles true, .inner (.spawned (sampleTime 0) (sampleTime 0)),
    .inner (.data .stdout sampleOutput), .inner (.wake (sampleTime 250)), .inner (.health true),
    .stop, .inner (.exit (some 0) none)]

/-- One child that starts, serves and is stopped, under the condition: all that the service says
is of that child. -/
theorem nothing_carried_over_singleLife :
    ∃ t, exec (step .sample sampleOptions) init singleLife = some t ∧
      NothingCarriedOver .sample sampleOptions singleLife t := by
  have hruns : (exec (step .sample sampleOptions) init singleLife).isSome = true := by
    decide +kernel
  obtain ⟨t, ht⟩ := Option.isSome_iff_exists.mp hruns
  have hsole : Meets (step .sample sampleOptions) Sole init singleLife := by
    refine ⟨rfl, fun t' _ => meets_of_forall ?_⟩
    intro e he s
    simp only [List.mem_cons, List.not_mem_nil, or_false] at he
    rcases he with rfl | rfl | rfl | rfl | rfl | rfl <;> trivial
  exact ⟨t, ht, nothing_carried_over ht hsole⟩

/-! ### A second child -/

/-- Behind an exit the first poll of a `start()` rejects. -/
theorem awaitReady_rejects {s : VerifierService} (clock now : TimeValue)
    (hexit : s.exit.isSome = true) :
    ∃ e, (VerifierService.awaitReady p o s clock now).phase = .rejected e := by
  have hstop : ∀ (s' : VerifierService) reason, s'.exit.isSome = true →
      ∃ e, (VerifierService.beginStop p o s' reason).phase = .rejected e := by
    intro s' reason hs'
    rw [VerifierService.beginStop, if_pos (Or.inr hs')]
    exact ⟨_, rfl⟩
  rw [VerifierService.awaitReady]
  split
  · exact hstop s .noCircuits hexit
  split
  · next e _ => exact ⟨e, rfl⟩
  next deadline _ =>
  rw [VerifierService.loopTop]
  split
  · split
    · next x _ => exact ⟨VerifierService.exitFailure _ x, rfl⟩
    · next hnone =>
        dsimp only at hnone
        rw [hnone] at hexit
        cases hexit
  · exact hstop _ .timedOut hexit

/-- **A restart leaks its child**: once an exit is on record, the next `start()` rejects
whatever the new child does, and the `stop()` behind it resolves with that child alive. -/
theorem restart_leaks {t : Lifetime} {text : String} (files : Files) (clock now : TimeValue)
    (hsettled : t.settled = true) (hexit : t.service.exit.isSome = true)
    (haddress : VerifierService.address p o = .ok text) :
    ∃ t₁ t₂, exec (step p o) t [.start files true, .inner (.spawned clock now)] = some t₁ ∧
      (∃ e, t₁.service.phase = .rejected e) ∧ step p o t₁ .stop = some t₂ ∧
      t₂.stopCall = .resolved ∧ t₂.service.running = true := by
  let started : Lifetime := t.start p o files true
  have hstarted : step p o t (.start files true) = some started := by
    rw [step, if_pos hsettled]
  have hservice : started.service = { t.service.count files with
      phase := .spawning, child := true, running := true, stopped := false } := by
    simp only [started, Lifetime.start, VerifierService.start, haddress]
  have hcall : started.stopCall = .none := by
    simp only [started, Lifetime.start, haddress]
  have hexited : started.service.exit.isSome = true := by
    rw [hservice]
    exact hexit
  obtain ⟨e, he⟩ := awaitReady_rejects (p := p) (o := o) clock now hexited
  have hkept := VerifierService.awaitReady_kept (p := p) (o := o) started.service clock now
  let t₁ : Lifetime := { started with
    service := VerifierService.awaitReady p o started.service clock now
    stopCall := .none
    text := started.text ++ [] }
  have hinner : VerifierService.step p o started.files started.service (.spawned clock now) =
      some (VerifierService.awaitReady p o started.service clock now) := by
    rw [VerifierService.step, show started.service.phase = .spawning by rw [hservice]]
  have hspawned : step p o started (.inner (.spawned clock now)) = some t₁ := by
    rw [step, if_neg (by simp [VerifierService.Event.isCall]), innerStep_of_ne (by simp), hinner,
      Option.map_some, hcall]
    rfl
  refine ⟨t₁, t₁.beginStop p o, exec_cons_eq_some_iff.mpr ⟨started, hstarted,
    exec_cons_eq_some_iff.mpr ⟨t₁, hspawned, rfl⟩⟩, ⟨e, he⟩, ?_, ?_, ?_⟩
  · rw [step, if_pos]
    rw [settled, show t₁.service.phase = .rejected e from he]
    rfl
  · have hgone : t₁.service.exit.isSome = true := by
      rw [show t₁.service.exit = started.service.exit from hkept.exit, hservice]
      exact hexit
    rw [beginStop]
    exact if_pos (Or.inr hgone)
  · rw [beginStop]
    exact hkept.running.trans (by rw [hservice])

/-- A settled start takes an error without moving on. -/
theorem onError_of_isSettled {s : VerifierService} (hsettled : s.phase.isSettled = true)
    (code : Option String) (message : String) :
    VerifierService.onError p o s code message = { s with
      ready := false
      exit := s.exit.or (some ⟨none, none, some message⟩)
      log := { s.log with
        logTail := s.log.logTail ++ [("child error: " ++ message).toList] } } := by
  rw [VerifierService.onError]
  dsimp only
  split
  · next hphase =>
      rw [hphase] at hsettled
      cases hsettled
  · next hphase =>
      rw [hphase] at hsettled
      cases hsettled
  · rfl

/-- **An error of a living child leaks it**: the error is put on record as an exit, and the
`stop()` behind it has nothing to do. -/
theorem error_leaks {t : Lifetime} (code : Option String) (message : String)
    (hsettled : t.settled = true) (hchild : t.service.child = true)
    (hrunning : t.service.running = true) :
    ∃ t', exec (step p o) t [.inner (.error code message), .stop] = some t' ∧
      t'.stopCall = .resolved ∧ t'.service.running = true := by
  obtain ⟨hphase, hcall⟩ := Bool.and_eq_true_iff.mp hsettled
  have herror := onError_of_isSettled (p := p) (o := o) hphase code message
  have hinner : t.innerStep p o (.error code message) =
      some (VerifierService.onError p o t.service code message) := by
    rw [innerStep_of_ne (by simp), VerifierService.step, if_pos hchild]
  have hafter : StopCall.after t.stopCall (.error code message) = t.stopCall := by
    cases hc : t.stopCall with
    | waiting killing =>
        rw [hc] at hcall
        cases hcall
    | none | resolved | rejected => rfl
  let t₁ : Lifetime := { t with
    service := VerifierService.onError p o t.service code message
    text := t.text ++ [] }
  have hstep : step p o t (.inner (.error code message)) = some t₁ := by
    rw [step, if_neg (by simp [VerifierService.Event.isCall]), hinner, Option.map_some, hafter]
    rfl
  have hstop : step p o t₁ .stop = some (t₁.beginStop p o) := by
    rw [step, if_pos]
    rw [settled, show t₁.service.phase = t.service.phase by simp only [t₁, herror]]
    exact hsettled
  refine ⟨t₁.beginStop p o, exec_cons_eq_some_iff.mpr ⟨t₁, hstep,
    exec_cons_eq_some_iff.mpr ⟨_, hstop, rfl⟩⟩, ?_, ?_⟩
  · have hgone : t₁.service.exit.isSome = true := by
      simp only [t₁, herror, Option.isSome_or, Option.isSome_some, Bool.or_true]
    rw [beginStop]
    exact if_pos (Or.inr hgone)
  · have hthere : t₁.service.running = true := by
      simp only [t₁, herror]
      exact hrunning
    rw [beginStop]
    exact hthere

/-- That life, and a second start, whose child is spawned and has done nothing wrong. -/
def refusedLife : List Event :=
  singleLife ++ .start sampleFiles true ::
    [.inner (.spawned (sampleTime 1000) (sampleTime 1000))]

/-- A second start behind a child that is still there; the new child logs nothing, and answers
its probe. -/
def blessedLife : List Event :=
  singleLife.take 5 ++ [.start sampleFiles true,
    .inner (.spawned (sampleTime 1000) (sampleTime 1000)), .inner (.health true)]

/-- The number of circuits that a start waits for, while its child is being spawned. -/
def expectedOnSpawn (t : Lifetime) : Option ℕ :=
  match t.service.phase with
  | .spawning => some t.service.expected
  | _ => none

/-- The restarted child of `refusedLife` has been healthy, and its start is off course. -/
theorem not_nothing_carried_over_refusedLife {t : Lifetime}
    (hrefused : t.service.phase.isRejected = true) :
    ¬NothingCarriedOver .sample sampleOptions refusedLife t := by
  intro h
  have hstarted : (exec (step .sample sampleOptions) init
      (singleLife ++ [.start sampleFiles true])).map expectedOnSpawn = some (some 1) := by
    decide +kernel
  obtain ⟨t₁, ht₁, hfields⟩ := Option.map_eq_some_iff.mp hstarted
  rw [expectedOnSpawn] at hfields
  split at hfields
  swap
  · cases hfields
  next hspawning =>
  have hexpected : 0 < t₁.service.expected := by
    rw [Option.some.inj hfields]
    exact Nat.one_pos
  have hmeets : Meets (step .sample sampleOptions) (HealthyStep .sample sampleOptions) t₁
      [.inner (.spawned (sampleTime 1000) (sampleTime 1000))] :=
    ⟨⟨hexpected, _, rfl, by decide +kernel⟩, fun _ _ => trivial⟩
  obtain ⟨hcourse, -⟩ := h.healthy singleLife sampleFiles _ t₁ rfl ht₁ hspawning hmeets
  obtain ⟨e, he⟩ := Phase.isRejected_iff.mp hrefused
  rw [he] at hcourse
  cases hcourse

/-- **A restart carries over** what the child before it has left: the exit of the first child
refuses a healthy second one, `stop()` then takes the second one for gone, and the log of a
first child that is still there blesses a second one that has logged nothing. -/
theorem restart_carries_over :
    (∃ t, exec (step .sample sampleOptions) init refusedLife = some t ∧
      t.service.phase.isRejected = true ∧
      ¬NothingCarriedOver .sample sampleOptions refusedLife t) ∧
    (∃ t, exec (step .sample sampleOptions) init (refusedLife ++ [.stop]) = some t ∧
      t.stopCall = .resolved ∧ t.service.running = true ∧
      ¬NothingCarriedOver .sample sampleOptions (refusedLife ++ [.stop]) t) ∧
    ∃ t, exec (step .sample sampleOptions) init blessedLife = some t ∧
      t.service.phase = .resolved ∧ t.text = [] ∧
      ¬NothingCarriedOver .sample sampleOptions blessedLife t := by
  refine ⟨?_, ?_, ?_⟩
  · have hrun : (exec (step .sample sampleOptions) init refusedLife).map
        (fun t => t.service.phase.isRejected) = some true := by
      decide +kernel
    obtain ⟨t, ht, hrefused⟩ := Option.map_eq_some_iff.mp hrun
    exact ⟨t, ht, hrefused, not_nothing_carried_over_refusedLife hrefused⟩
  · have hrun : (exec (step .sample sampleOptions) init (refusedLife ++ [.stop])).map
        (fun t => match t.stopCall with
          | .resolved => t.service.running
          | _ => false) = some true := by
      decide +kernel
    obtain ⟨t, ht, hfields⟩ := Option.map_eq_some_iff.mp hrun
    split at hfields
    · next hresolved =>
        refine ⟨t, ht, hresolved, hfields, fun h => ?_⟩
        rw [(h.gone hresolved).1] at hfields
        cases hfields
    · cases hfields
  · have hrun : (exec (step .sample sampleOptions) init blessedLife).map
        (fun t => (t.service.phase.isResolved, t.text)) = some (true, []) := by
      decide +kernel
    obtain ⟨t, ht, hfields⟩ := Option.map_eq_some_iff.mp hrun
    obtain ⟨hresolved, htext⟩ := Prod.mk.inj hfields
    rw [Phase.isResolved_iff] at hresolved
    refine ⟨t, ht, hresolved, htext, fun h => ?_⟩
    have hstarted := (h.blessed hresolved).started
    rw [lines, htext] at hstarted
    cases hstarted

end Lifetime

end EightEen
