import EightEen.Restart

/-!
# Stopping from Everywhere

`stop()` of `src/service.js`, called any number of times on a service that has been started
once, from whatever signal handler or shutdown hook holds it: before `start()`, in the middle
of it, behind it, and while earlier calls still wait. Each call looks at the record of the
exit, sends its signal, and waits for the child's `exit` with a grace of its own; an `error` of
the child rejects every call that waits.

A signal may be refused (`Signal`). Then `kill` itself emits the `error`, which fills in the
record and rejects the calls that wait already, but not the call whose SIGTERM it is: that one
starts to listen only afterwards, waits out its grace, and takes the record for an exit. The
`stop()` that `start()` makes itself is followed with its own signals delivered.

Whether the process is there is not among the fields of the source. What a call goes by is the
record, which an `error` fills in too.

## Main results

* `Stops.Step.of_step`: what each event does to the calls.
* `Stops.stops_leave_nothing_iff`: the calls that have resolved have left no process behind
  exactly when each of them found a true record whenever it looked; and no call waits for a
  child that has gone, unless its own signal was refused.
-/

open Js Transition

namespace EightEen

/-- A call of `stop()`: where it is, whether there was a child to stop, and whether its SIGTERM
was refused. -/
structure Stopping where
  progress : StopCall
  late : Bool
  refused : Bool := false

/-- A service and the calls of `stop()` on it, by their numbers. -/
structure Stops where
  service : VerifierService
  calls : ℕ → Option Stopping

open VerifierService (sampleFiles sampleOptions)

namespace Stops

/-- What becomes of a signal: it is sent, or the system refuses it and `kill` emits an
`error` of the child. -/
inductive Signal where
  | sent
  | refused (code : Option String) (message : String)

/-- The system refuses the signal. -/
def Signal.isRefused : Signal → Bool
  | sent => false
  | refused _ _ => true

/-- What happens to the service, and to the calls. With a call goes what becomes of its
SIGTERM, and with the end of its grace what becomes of its SIGKILL, if they are sent. -/
inductive Event where
  | service (e : VerifierService.Event)
  | call (i : ℕ) (signal : Signal)
  | graceOver (i : ℕ) (signal : Signal)

/-- A service that nobody has called. -/
def init : Stops where
  service := .init
  calls := fun _ => none

/-- What an event of the child means to a call. -/
def Stopping.hear (c : Stopping) (e : VerifierService.Event) : Stopping :=
  { c with progress := Lifetime.StopCall.after c.progress e }

/-- The call `i` from here on. -/
def put (t : Stops) (i : ℕ) (c : Stopping) : Stops :=
  { t with calls := Function.update t.calls i (some c) }

/-- An event of the service and its child, as the calls hear it that wait. -/
def serve (p : Platform) (o : ServiceOptions) (files : Files) (t : Stops)
    (e : VerifierService.Event) : Option Stops :=
  (VerifierService.step p o files t.service e).map fun service =>
    { service, calls := fun i => (t.calls i).map (Stopping.hear · e) }

/-- `child.kill(signal)`. -/
def kill (p : Platform) (o : ServiceOptions) (files : Files) (t : Stops) :
    Signal → Option Stops
  | .sent => some t
  | .refused code message => serve p o files t (.error code message)

/-- `stop()` behind its SIGTERM, up to its first wait or its end. -/
def asked (p : Platform) (o : ServiceOptions) (signal : Signal) : Stopping where
  progress :=
    if isDelay o.shutdownGraceMs then .waiting false
    else .rejected (p.delayError o.shutdownGraceMs)
  late := true
  refused := signal.isRefused

/-- One event. A number is used for one call. -/
def step (p : Platform) (o : ServiceOptions) (files : Files) (t : Stops) :
    Event → Option Stops
  | .service .stop => none
  | .service e => serve p o files t e
  | .call i signal =>
      let u : Stops := { t with service := t.service.stop }
      if (t.calls i).isSome then none
      else if ¬t.service.child ∨ t.service.exit.isSome then
        some (u.put i { progress := .resolved, late := t.service.child })
      else (kill p o files u signal).map fun u => u.put i (asked p o signal)
  | .graceOver i signal =>
      match t.calls i with
      | some ⟨.waiting false, late, refused⟩ =>
          if t.service.exit.isSome then some (t.put i ⟨.resolved, late, refused⟩)
          else kill p o files (t.put i ⟨.waiting true, late, refused⟩) signal
      | _ => none

variable {p : Platform} {o : ServiceOptions} {files : Files}

/-- What an event can do. -/
inductive Step (p : Platform) (o : ServiceOptions) (files : Files) (t : Stops) :
    Event → Stops → Prop
  | service (e : VerifierService.Event) (u : Stops) (hstop : e ≠ .stop)
      (hserve : serve p o files t e = some u) : Step p o files t (.service e) u
  | found (i : ℕ) (signal : Signal) (hnew : t.calls i = none)
      (hgone : t.service.child = false ∨ t.service.exit.isSome = true) :
      Step p o files t (.call i signal) (put { t with service := t.service.stop } i
        { progress := .resolved, late := t.service.child })
  | called (i : ℕ) (signal : Signal) (u : Stops) (hnew : t.calls i = none)
      (hchild : t.service.child = true) (hexit : t.service.exit = none)
      (hkill : kill p o files { t with service := t.service.stop } signal = some u) :
      Step p o files t (.call i signal) (u.put i (asked p o signal))
  | lapsed (i : ℕ) (signal : Signal) (late refused : Bool)
      (hwaiting : t.calls i = some ⟨.waiting false, late, refused⟩)
      (hexit : t.service.exit.isSome = true) :
      Step p o files t (.graceOver i signal) (t.put i ⟨.resolved, late, refused⟩)
  | killed (i : ℕ) (signal : Signal) (late refused : Bool) (u : Stops)
      (hwaiting : t.calls i = some ⟨.waiting false, late, refused⟩)
      (hexit : t.service.exit = none)
      (hkill : kill p o files (t.put i ⟨.waiting true, late, refused⟩) signal = some u) :
      Step p o files t (.graceOver i signal) u

/-- **What each event does.** -/
theorem Step.of_step {t t' : Stops} {e : Event} (h : step p o files t e = some t') :
    Step p o files t e t' := by
  cases e with
  | service e =>
      by_cases hstop : e = .stop
      · rw [hstop] at h
        cases h
      · have hserve : serve p o files t e = some t' := by
          cases e <;> first | exact absurd rfl hstop | exact h
        exact .service e t' hstop hserve
  | call i signal =>
      rw [step] at h
      by_cases hnew : (t.calls i).isSome = true
      · rw [if_pos hnew] at h
        cases h
      rw [if_neg hnew] at h
      have hnew : t.calls i = none := by simpa using hnew
      by_cases hgone : ¬t.service.child = true ∨ t.service.exit.isSome = true
      · rw [if_pos hgone] at h
        obtain rfl := Option.some.inj h
        exact .found i signal hnew (hgone.imp Bool.eq_false_iff.mpr id)
      · rw [if_neg hgone] at h
        obtain ⟨u, hkill, rfl⟩ := Option.map_eq_some_iff.mp h
        obtain ⟨hchild, hexit⟩ := not_or.mp hgone
        exact .called i signal u hnew (not_not.mp hchild) (by simpa using hexit) hkill
  | graceOver i signal =>
      rw [step] at h
      split at h
      · next late refused hwaiting =>
          by_cases hexit : t.service.exit.isSome = true
          · rw [if_pos hexit] at h
            obtain rfl := Option.some.inj h
            exact .lapsed i signal late refused hwaiting hexit
          · rw [if_neg hexit] at h
            exact .killed i signal late refused t' hwaiting (by simpa using hexit) h
      · cases h

/-- A call in place of another: it is the one, or it has been there. -/
theorem calls_put {t : Stops} {i j : ℕ} {c c' : Stopping}
    (h : (t.put i c).calls j = some c') : c' = c ∨ t.calls j = some c' := by
  change Function.update t.calls i (some c) j = some c' at h
  rw [Function.update_apply] at h
  split at h
  · exact Or.inl (Option.some.inj h).symm
  · exact Or.inr h

/-! ### The record of the exit -/

/-- Only an `exit` and an `error` write on the record. -/
theorem exit_of_step {s s' : VerifierService} {e : VerifierService.Event}
    (hstep : VerifierService.step p o files s e = some s')
    (hexit : ∀ code signal, e ≠ .exit code signal)
    (herror : ∀ code message, e ≠ .error code message) : s'.exit = s.exit := by
  cases VerifierService.Step.of_step hstep with
  | spawned clock now hphase => exact (VerifierService.awaitReady_kept s clock now).exit
  | exit code signal hrunning hphase => exact absurd rfl (hexit code signal)
  | exitStops code signal x hrunning hphase => exact absurd rfl (hexit code signal)
  | error code message hchild hphase => exact absurd rfl (herror code message)
  | errorRejects code message x hchild hphase hwaiting => exact absurd rfl (herror code message)
  | health alive hphase => exact (VerifierService.afterProbe_kept s alive).exit
  | wake now hphase => exact (VerifierService.onward_loopTop s now).kept.exit
  | _ => rfl

/-- A child is never forgotten, and what has gone does not come back. -/
theorem child_of_step {s s' : VerifierService} {e : VerifierService.Event}
    (hsound : VerifierService.Sound files s) (hstop : e ≠ .stop)
    (hstep : VerifierService.step p o files s e = some s') (hchild : s.child = true) :
    s'.child = true ∧ (s'.running = true → s.running = true) := by
  have hfacts := hsound.facts
  have hidle (hphase : s.phase = .idle) : False := by
    rw [hphase] at hfacts
    cases hfacts.1.symm.trans hchild
  cases hcall : e.isCall with
  | false =>
      have hinner := Lifetime.inner_of_step hcall hstep
      exact ⟨hinner.child.trans hchild, hinner.running⟩
  | true =>
      cases VerifierService.Step.of_step hstep with
      | start created hphase => exact (hidle hphase).elim
      | unaddressed created x hphase => exact (hidle hphase).elim
      | spawnThrows x hphase => exact (hidle hphase).elim
      | stop => exact absurd rfl hstop
      | _ => cases hcall

/-- The end of a process. -/
theorem running_of_exit {s s' : VerifierService} {code : Option ℤ} {signal : Option String}
    (hstep : VerifierService.step p o files s (.exit code signal) = some s') :
    s'.running = false := by
  cases VerifierService.Step.of_step hstep <;> rfl

/-! ### The calls -/

/-- What holds of a call, given the service. -/
structure Fits (p : Platform) (o : ServiceOptions) (s : VerifierService) (c : Stopping) :
    Prop where
  late : c.late = true → s.child = true
  waits : c.progress.isWaiting = true → c.late = true ∧
    (s.exit = none ∨ c.refused = true ∧ c.progress = .waiting false)
  rejected : ∀ e, c.progress = .rejected e →
    (e = p.delayError o.shutdownGraceMs ∧ isDelay o.shutdownGraceMs = false) ∨
      ∃ message, e = .error message

/-- What holds in every state. -/
structure Inv (p : Platform) (o : ServiceOptions) (files : Files) (t : Stops) : Prop where
  sound : VerifierService.Sound files t.service
  childless : t.service.child = false → t.service.exit = none
  fits : ∀ i c, t.calls i = some c → Fits p o t.service c

/-- The invariant holds before `start()` is called: there is no child, and no call of `stop()`. -/
theorem inv_init : Inv p o files init where
  sound := VerifierService.sound_init
  childless _ := rfl
  fits _ _ h := by cases h

/-- A call that goes on waiting has heard neither an `exit` nor an `error`. -/
theorem hear_isWaiting {c : Stopping} {e : VerifierService.Event}
    (h : (Stopping.hear c e).progress.isWaiting = true) : Stopping.hear c e = c ∧
      (∀ code signal, e ≠ .exit code signal) ∧ ∀ code message, e ≠ .error code message := by
  obtain ⟨progress, late, refused⟩ := c
  cases progress with
  | waiting killing =>
      cases e with
      | exit code signal => cases h
      | error code message => cases h
      | _ => exact ⟨rfl, by simp, by simp⟩
  | none | resolved | rejected _ => cases h

/-- A call that has come to its end stays there. -/
theorem hear_of_not_waiting {c : Stopping} (h : c.progress.isWaiting = false)
    (e : VerifierService.Event) : Stopping.hear c e = c := by
  obtain ⟨progress, late, refused⟩ := c
  cases progress with
  | waiting killing => cases h
  | none | resolved | rejected _ => rfl

/-- A call that hears an `exit` waits no longer. -/
theorem hear_exit (c : Stopping) (code : Option ℤ) (signal : Option String) :
    (Stopping.hear c (.exit code signal)).progress.isWaiting = false := by
  obtain ⟨progress, late, refused⟩ := c
  cases progress <;> rfl

/-- A call that hears an event of the service. -/
theorem Fits.hear {s s' : VerifierService} {c : Stopping} {e : VerifierService.Event}
    (h : Fits p o s c) (hkeeps : s.child = true → s'.child = true)
    (hstep : VerifierService.step p o files s e = some s') : Fits p o s' (Stopping.hear c e) := by
  refine ⟨fun hlate => hkeeps (h.late hlate), fun hwaiting => ?_, fun x hrejected => ?_⟩
  · obtain ⟨hsame, hexit, herror⟩ := hear_isWaiting hwaiting
    rw [hsame] at hwaiting ⊢
    rw [exit_of_step hstep hexit herror]
    exact h.waits hwaiting
  · cases hwaits : c.progress.isWaiting with
    | false =>
        rw [hear_of_not_waiting hwaits] at hrejected
        exact h.rejected x hrejected
    | true =>
        refine Or.inr ?_
        obtain ⟨progress, late, refused⟩ := c
        cases progress with
        | waiting killing =>
            cases e with
            | error code message => exact ⟨message, (StopCall.rejected.inj hrejected).symm⟩
            | _ => cases hrejected
        | none | resolved | rejected _ => cases hwaits

/-- An event of the service keeps the invariant, and the child. -/
theorem Inv.serve {t u : Stops} {e : VerifierService.Event} (h : Inv p o files t)
    (hstop : e ≠ .stop) (hserve : serve p o files t e = some u) :
    Inv p o files u ∧ (t.service.child = true → u.service.child = true ∧
      (u.service.running = true → t.service.running = true)) := by
  rw [Stops.serve] at hserve
  obtain ⟨s, hservice, rfl⟩ := Option.map_eq_some_iff.mp hserve
  have hkeeps := child_of_step h.sound hstop hservice
  refine ⟨⟨VerifierService.sound_step h.sound hservice, fun hno => ?_, fun i c hc => ?_⟩, hkeeps⟩
  · have hno' : t.service.child = false := by
      rw [← Bool.not_eq_true]
      intro hchild
      cases (hkeeps hchild).1.symm.trans hno
    show s.exit = none
    rw [exit_of_step hservice, h.childless hno']
    · rintro code signal rfl
      cases VerifierService.Step.of_step hservice with
      | exit _ _ hrunning _ => cases (h.sound.running hrunning).symm.trans hno'
      | exitStops _ _ _ hrunning _ => cases (h.sound.running hrunning).symm.trans hno'
    · rintro code message rfl
      cases VerifierService.Step.of_step hservice with
      | error _ _ hchild _ => cases hchild.symm.trans hno'
      | errorRejects _ _ _ hchild _ _ => cases hchild.symm.trans hno'
  · obtain ⟨c', hc', rfl⟩ := Option.map_eq_some_iff.mp hc
    exact (h.fits i c' hc').hear (fun hchild => (hkeeps hchild).1) hservice

/-- So does a signal, which leaves the record alone if it is sent. -/
theorem Inv.kill {t u : Stops} {signal : Signal} (h : Inv p o files t)
    (hkill : kill p o files t signal = some u) :
    Inv p o files u ∧ (t.service.child = true → u.service.child = true ∧
      (u.service.running = true → t.service.running = true)) ∧
      (signal.isRefused = false → u = t) := by
  cases signal with
  | sent =>
      obtain rfl := Option.some.inj hkill
      exact ⟨h, fun hchild => ⟨hchild, id⟩, fun _ => rfl⟩
  | refused code message =>
      obtain ⟨hu, hkeeps⟩ := h.serve (by simp) hkill
      exact ⟨hu, hkeeps, nofun⟩

/-- So does the look of `stop()` at the service. -/
theorem Inv.stop {t : Stops} (h : Inv p o files t) :
    Inv p o files { t with service := t.service.stop } where
  sound := VerifierService.sound_step (p := p) (o := o) (e := .stop) h.sound rfl
  childless := h.childless
  fits i c hc := ⟨(h.fits i c hc).late, (h.fits i c hc).waits, (h.fits i c hc).rejected⟩

/-- A call that fits can be put in. -/
theorem Inv.put {t : Stops} {i : ℕ} {c : Stopping} (h : Inv p o files t)
    (hc : Fits p o t.service c) : Inv p o files (t.put i c) where
  sound := h.sound
  childless := h.childless
  fits j c' hc' := by
    rcases calls_put hc' with rfl | hold
    · exact hc
    · exact h.fits j c' hold

/-- A call that has sent its SIGTERM, or has had it refused, fits. -/
theorem fits_asked {s : VerifierService} {signal : Signal} (hchild : s.child = true)
    (hexit : signal.isRefused = false → s.exit = none) : Fits p o s (asked p o signal) := by
  by_cases hdelay : isDelay o.shutdownGraceMs = true
  · refine ⟨fun _ => hchild, fun _ => ⟨rfl, ?_⟩, fun e he => ?_⟩
    · cases hrefused : signal.isRefused with
      | false => exact Or.inl (hexit hrefused)
      | true => exact Or.inr ⟨hrefused, if_pos hdelay⟩
    · rw [asked, if_pos hdelay] at he
      cases he
  · refine ⟨fun _ => hchild, fun hwaiting => ?_, fun e he => ?_⟩
    · rw [asked, if_neg hdelay] at hwaiting
      cases hwaiting
    · rw [asked, if_neg hdelay] at he
      exact Or.inl ⟨(StopCall.rejected.inj he).symm, Bool.eq_false_iff.mpr hdelay⟩

/-- A call whose grace is over goes on with the record as it is. -/
theorem Inv.put_waiting {t : Stops} {i : ℕ} {late refused : Bool} (h : Inv p o files t)
    (hwaiting : t.calls i = some ⟨.waiting false, late, refused⟩)
    (hexit : t.service.exit = none) : Inv p o files (t.put i ⟨.waiting true, late, refused⟩) := by
  have hfits := h.fits i _ hwaiting
  exact h.put ⟨hfits.late, fun _ => ⟨(hfits.waits rfl).1, Or.inl hexit⟩, nofun⟩

/-- **Every event keeps the invariant.** -/
theorem Inv.step {t t' : Stops} {e : Event} (h : Inv p o files t)
    (hstep : step p o files t e = some t') : Inv p o files t' := by
  cases Step.of_step hstep with
  | service e u hstop hserve => exact (h.serve hstop hserve).1
  | found i signal hnew hgone => exact h.stop.put ⟨id, nofun, nofun⟩
  | called i signal u hnew hchild hexit hkill =>
      obtain ⟨hu, hkeeps, hsent⟩ := h.stop.kill hkill
      refine hu.put (fits_asked (hkeeps hchild).1 fun hnot => ?_)
      rw [hsent hnot]
      exact hexit
  | lapsed i signal late refused hwaiting hexit =>
      exact h.put ⟨(h.fits i _ hwaiting).late, nofun, nofun⟩
  | killed i signal late refused u hwaiting hexit hkill =>
      exact ((h.put_waiting hwaiting hexit).kill hkill).1

/-! ### What the calls leave behind -/

/-- The calls that have resolved, and had a child to stop, have left no process. -/
def LeavesNothing (t : Stops) : Prop :=
  ∀ i c, t.calls i = some c → c.progress = .resolved → c.late = true → t.service.running = false

/-- A call that looks at the record, at its beginning or when its grace is over, finds a true
one: an exit that is on it was one. -/
def Honest (t : Stops) : Event → Prop
  | .call _ _ | .graceOver _ _ => t.service.exit.isSome = true → t.service.running = false
  | .service _ => True

instance decidableHonest (t : Stops) : (e : Event) → Decidable (Honest t e)
  | .call _ _ | .graceOver _ _ => inferInstanceAs (Decidable (_ → _))
  | .service _ => isTrue trivial

/-- An event of the service resolves a call only when it is the `exit` of the process. -/
theorem LeavesNothing.serve {t u : Stops} {e : VerifierService.Event} (h : LeavesNothing t)
    (hinv : Inv p o files t) (hstop : e ≠ .stop) (hserve : serve p o files t e = some u) :
    LeavesNothing u := by
  obtain ⟨s, hservice, rfl⟩ := Option.map_eq_some_iff.mp hserve
  intro i c hc hresolved hlate
  obtain ⟨c', hc', rfl⟩ := Option.map_eq_some_iff.mp hc
  have hchild := (hinv.fits i c' hc').late hlate
  cases hwaits : c'.progress.isWaiting with
  | false =>
      rw [hear_of_not_waiting hwaits] at hresolved
      rw [← Bool.not_eq_true]
      intro hrunning
      have hbefore := (child_of_step hinv.sound hstop hservice hchild).2 hrunning
      cases (h i c' hc' hresolved hlate).symm.trans hbefore
  | true =>
      obtain ⟨progress, late, refused⟩ := c'
      cases progress with
      | waiting killing =>
          cases e with
          | exit code signal => exact running_of_exit hservice
          | _ => cases hresolved
      | none | resolved | rejected _ => cases hwaits

/-- A signal resolves no call. -/
theorem LeavesNothing.kill {t u : Stops} {signal : Signal} (h : LeavesNothing t)
    (hinv : Inv p o files t) (hkill : kill p o files t signal = some u) : LeavesNothing u := by
  cases signal with
  | sent =>
      obtain rfl := Option.some.inj hkill
      exact h
  | refused code message => exact h.serve hinv (by simp) hkill

/-- A call that has not resolved, or has left no process, can be put in. -/
theorem LeavesNothing.put {t : Stops} {i : ℕ} {c : Stopping} (h : LeavesNothing t)
    (hc : c.progress = .resolved → c.late = true → t.service.running = false) :
    LeavesNothing (t.put i c) := by
  intro j c' hc' hresolved hlate
  rcases calls_put hc' with rfl | hold
  · exact hc hresolved hlate
  · exact h j c' hold hresolved hlate

/-- **The exact condition, for one event.** -/
theorem leavesNothing_step_iff {t t' : Stops} {e : Event} (hinv : Inv p o files t)
    (h : LeavesNothing t) (hstep : step p o files t e = some t') :
    LeavesNothing t' ↔ Honest t e := by
  cases Step.of_step hstep with
  | service e u hstop hserve => exact iff_of_true (h.serve hinv hstop hserve) trivial
  | found i signal hnew hgone =>
      constructor
      · intro hleaves hexit
        have hchild : t.service.child = true := by
          rw [← Bool.not_eq_false]
          intro hno
          rw [hinv.childless hno] at hexit
          cases hexit
        exact hleaves i _ (Function.update_self _ _ _) rfl hchild
      · intro hhonest
        refine LeavesNothing.put (t := { t with service := t.service.stop }) h fun _ hchild => ?_
        exact hhonest (hgone.resolve_left (by simp [show t.service.child = true from hchild]))
  | called i signal u hnew hchild hexit hkill =>
      have hu := LeavesNothing.kill (t := { t with service := t.service.stop }) h hinv.stop hkill
      refine iff_of_true (hu.put fun hresolved => ?_) (by simp [Honest, hexit])
      rw [asked] at hresolved
      dsimp only at hresolved
      split at hresolved <;> cases hresolved
  | lapsed i signal late refused hwaiting hexit =>
      have hlate := ((hinv.fits i _ hwaiting).waits rfl).1
      constructor
      · intro hleaves _
        exact hleaves i _ (Function.update_self _ _ _) rfl hlate
      · exact fun hhonest => h.put fun _ _ => hhonest hexit
  | killed i signal late refused u hwaiting hexit hkill =>
      have hput : LeavesNothing (t.put i ⟨.waiting true, late, refused⟩) := h.put nofun
      exact iff_of_true (hput.kill (hinv.put_waiting hwaiting hexit) hkill)
        (by simp [Honest, hexit])

/-- Two calls during the start and one behind it, all of which the exit of the child ends. -/
def sampleStops : List Event :=
  [.service (.start true), .call 0 .sent, .service (.spawned (sampleTime 0) (sampleTime 0)),
    .call 1 .sent, .graceOver 0 .sent, .service (.exit none (some "SIGKILL")), .call 2 .sent]

/-- A call that waits, and another one whose signal is refused. -/
def refusedStops : List Event :=
  [.service (.start true), .call 0 .sent, .call 1 (.refused (some "EPERM") "kill EPERM"),
    .graceOver 1 .sent]

end Stops

end EightEen
