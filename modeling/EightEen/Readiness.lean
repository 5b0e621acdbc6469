import EightEen.Service

/-!
# Readiness

What a service that says `ready` has promised (`Promise`), and the steps that keep the
promise. Readiness is decided in one place, between the answer of a health probe and the
assignment of `ready`, and there it is decided on less than it promises: neither the child's
exit nor a call of `stop()` during the probe is looked at again, and neither is the list of
ignored circuit files. And the log goes on after that.

## Main results

* `step_ready_cases`: a service is ready after a step only if it has just passed the audit,
  or was ready and read on.
* `readiness_iff`: a run keeps the promise throughout exactly when each of its steps
  `Heeds` it.
* `ready_without_child`: the promise is broken by a child that exits during the probe.
-/

open Js Transition

namespace EightEen

namespace VerifierService

variable {p : Platform} {o : ServiceOptions} {files : Files}

/-- What `ready` promises. -/
structure Promise (o : ServiceOptions) (files : Files) (s : VerifierService) : Prop where
  unexited : s.running = true
  unstopped : s.stopped = false
  announced : s.log.started = true
  unskipped : s.log.skipped = []
  circuits : countCircuitFiles files.listing ≤ s.log.circuits
  positive : 0 < countCircuitFiles files.listing
  anchors : countPemCertificates files.bundle ≤ s.log.anchors
  trusting : 0 < s.log.anchors + s.log.vical
  asked : s.log.vical ≠ 0 → o.vicalUrl.truthy = true

/-- What keeps the promise: a probe that is answered for a child which is still running, has
not been stopped and has ignored no file; and, once ready, no line that reports an ignored
file or an unasked-for trust list. -/
def Heeds (p : Platform) (o : ServiceOptions) (s : VerifierService) : Event → Prop
  | .health true => assertTrustAnchors p o s = .ok () →
      s.running = true ∧ s.stopped = false ∧ s.log.skipped = []
  | .data _ chunk => s.ready = true → ∀ line ∈ (splitLines s.log.residual chunk).lines,
      circuitSkipped line = none ∧
        (o.vicalUrl.truthy = true ∨ (vicalLoaded line).getD 0 = 0)
  | _ => True

/-! ### Becoming and staying ready -/

/-- **Ready after a step**: the audit has just passed, or the service was ready and has read
on. -/
theorem step_ready_cases {s s' : VerifierService} {e : Event} (hs : Sound files s)
    (hstep : step p o files s e = some s') (hready : s'.ready = true) :
    (e = .health true ∧ assertTrustAnchors p o s = .ok () ∧ Loaded s ∧
        s' = { s with ready := true, phase := .resolved }) ∨
      ∃ pipe chunk, e = .data pipe chunk ∧ s.ready = true ∧
        s' = { s with log := s.log.absorb chunk } := by
  have hfacts := hs.facts
  cases Step.of_step hstep with
  | start created hphase =>
      rw [hphase] at hfacts
      exact absurd (hfacts.2.symm.trans hready) (by simp)
  | unaddressed created e hphase =>
      rw [hphase] at hfacts
      exact absurd (hfacts.2.symm.trans hready) (by simp)
  | spawnThrows e hphase =>
      rw [hphase] at hfacts
      exact absurd (hfacts.2.symm.trans hready) (by simp)
  | spawned clock now hphase =>
      rw [hphase] at hfacts
      obtain ⟨deadline, honward⟩ := onward_awaitReady (p := p) (o := o) s clock now
      exact absurd ((honward.ready hfacts).symm.trans hready) (by simp)
  | data pipe chunk hchild => exact Or.inr ⟨pipe, chunk, rfl, hready, rfl⟩
  | health alive hphase =>
      rw [hphase] at hfacts
      rcases afterProbe_cases p o s alive with ⟨rfl, haudit, h⟩ | honward
      · exact Or.inl ⟨rfl, haudit, hfacts.1, h⟩
      · exact absurd ((honward.ready hfacts.2).symm.trans hready) (by simp)
  | wake now hphase =>
      rw [hphase] at hfacts
      have honward := onward_loopTop (p := p) (o := o) s now
      exact absurd ((honward.ready hfacts.2).symm.trans hready) (by simp)
  | graceOver reason hphase =>
      rw [hphase] at hfacts
      exact absurd (hfacts.2.symm.trans hready) (by simp)
  -- An exit, an error and a `stop()` take readiness away.
  | _ => cases hready

/-! ### Keeping the promise -/

/-- The promise at the moment of becoming ready. -/
theorem promise_of_audit {s : VerifierService} (hs : Sound files s) (hphase : s.phase ≠ .idle)
    (hloaded : Loaded s) (haudit : assertTrustAnchors p o s = .ok ()) (hrunning : s.running = true)
    (hstopped : s.stopped = false) (hskipped : s.log.skipped = []) : Promise o files s := by
  obtain ⟨hexpected, hanchors⟩ := hs.counted hphase
  obtain ⟨hasked, henough, htrusting⟩ := (assertTrustAnchors_ok_iff p o s).mp haudit
  exact {
    unexited := hrunning
    unstopped := hstopped
    announced := hloaded.started
    unskipped := hskipped
    circuits := hexpected ▸ hloaded.circuits
    positive := hexpected ▸ hloaded.positive
    anchors := hanchors ▸ henough
    trusting := htrusting
    asked := hasked }

/-- The promise of a service that reads on. -/
theorem Promise.absorb_iff {s : VerifierService} (h : Promise o files s) (chunk : List Char) :
    Promise o files { s with log := s.log.absorb chunk } ↔
      ∀ line ∈ (splitLines s.log.residual chunk).lines, circuitSkipped line = none ∧
        (o.vicalUrl.truthy = true ∨ (vicalLoaded line).getD 0 = 0) := by
  constructor
  · intro h' line hline
    constructor
    · have hskipped := h'.unskipped
      rw [(Log.adds_absorb _ _).skipped, h.unskipped, List.nil_append,
        List.filterMap_eq_nil_iff] at hskipped
      exact hskipped line hline
    · cases hl : vicalLoaded line with
      | none => exact Or.inr rfl
      | some n =>
          by_cases hn : n = 0
          · exact Or.inr hn
          refine Or.inl (h'.asked ?_)
          have hmem : n ∈ (splitLines s.log.residual chunk).lines.filterMap vicalLoaded :=
            List.mem_filterMap.mpr ⟨line, hline, hl⟩
          dsimp only
          rw [(Log.adds_absorb _ _).vical]
          exact fun hzero => hn ((sumCounts_eq_zero_iff.mp hzero).2 n hmem)
  · intro hlines
    refine ⟨h.unexited, h.unstopped, ?_, ?_, ?_, h.positive, ?_, ?_, ?_⟩ <;> dsimp only
    · rw [(Log.adds_absorb _ _).started, h.announced, Bool.true_or]
    · rw [(Log.adds_absorb _ _).skipped, h.unskipped, List.nil_append, List.filterMap_eq_nil_iff]
      exact fun line hline => (hlines line hline).1
    · rw [(Log.adds_absorb _ _).circuits]
      exact h.circuits.trans (Nat.le_add_right _ _)
    · rw [(Log.adds_absorb _ _).anchors]
      exact h.anchors.trans (Nat.le_add_right _ _)
    · rw [(Log.adds_absorb _ _).anchors, (Log.adds_absorb _ _).vical]
      exact Log.trusting_sumCounts (Nat.le_add_right _ _) h.trusting _
    · rw [(Log.adds_absorb _ _).vical]
      intro hne
      by_contra hurl
      have hold : s.log.vical = 0 := by
        by_contra hne'
        exact hurl (h.asked hne')
      have hzero : ∀ n ∈ (splitLines s.log.residual chunk).lines.filterMap vicalLoaded, n = 0 := by
        intro n hn
        obtain ⟨line, hline, hl⟩ := List.mem_filterMap.mp hn
        have hnone := (hlines line hline).2.resolve_left hurl
        rwa [hl] at hnone
      exact hne (sumCounts_eq_zero_iff.mpr ⟨hold, hzero⟩)

/-- **A step out of a state that keeps the promise** leads to one that keeps it exactly when
the step heeds it. -/
theorem promise_step_iff {s s' : VerifierService} {e : Event} (hs : Sound files s)
    (hpromise : s.ready = true → Promise o files s) (hstep : step p o files s e = some s') :
    (s'.ready = true → Promise o files s') ↔ Heeds p o s e := by
  constructor
  · intro hpromise'
    cases e with
    | health alive =>
        cases alive with
        | false => trivial
        | true =>
            intro haudit
            cases Step.of_step hstep with
            | health _ hphase =>
                rw [afterProbe, if_pos rfl, haudit] at hpromise'
                have hkept := hpromise' rfl
                exact ⟨hkept.unexited, hkept.unstopped, hkept.unskipped⟩
    | data pipe chunk =>
        intro hready
        cases Step.of_step hstep
        exact ((hpromise hready).absorb_iff chunk).mp (hpromise' hready)
    | _ => trivial
  · intro hheeds hready'
    rcases step_ready_cases hs hstep hready' with
      ⟨rfl, haudit, hloaded, hs'⟩ | ⟨pipe, chunk, rfl, hready, rfl⟩
    · obtain ⟨hrunning, hstopped, hskipped⟩ := hheeds haudit
      have hphase : s.phase ≠ .idle := by
        cases Step.of_step hstep with
        | health _ hprobing => simp [hprobing]
      subst hs'
      have hkept := promise_of_audit hs hphase hloaded haudit hrunning hstopped hskipped
      exact ⟨hkept.1, hkept.2, hkept.3, hkept.4, hkept.5, hkept.6, hkept.7, hkept.8, hkept.9⟩
    · exact ((hpromise hready).absorb_iff chunk).mpr (hheeds hready)

/-- **Readiness.** A run of a service keeps the promise of `ready` in every state it passes
through exactly when each of its steps heeds it. -/
theorem readiness_iff {events : List Event} {s : VerifierService}
    (hrun : exec (step p o files) init events = some s) :
    Always (step p o files) (fun s => s.ready = true → Promise o files s) init events ↔
      Meets (step p o files) (Heeds p o) init events :=
  always_iff_meets (I := Sound files) (fun _ _ _ hs hstep => sound_step hs hstep)
    (fun _ _ _ hs hpromise hstep => promise_step_iff hs hpromise hstep) hrun sound_init
    fun hready => absurd hready (by decide)

/-- The run of an ordinary start. -/
theorem readiness_iff_sampleStart :
    Always (step .sample sampleOptions sampleFiles)
        (fun s => s.ready = true → Promise sampleOptions sampleFiles s) init sampleStart ↔
      Meets (step .sample sampleOptions sampleFiles) (Heeds .sample sampleOptions) init
        sampleStart := by
  obtain ⟨s, hs, -⟩ := sampleStart_resolves
  exact readiness_iff hs

/-- **Ready without a child.** The child exits while its health is being asked for, the
answer is still on its way, and the service becomes ready. -/
theorem ready_without_child :
    ∃ s, exec (step .sample sampleOptions sampleFiles) init
        [.start true, .spawned (sampleTime 0) (sampleTime 0), .data .stdout sampleOutput,
          .wake (sampleTime 250), .exit (some 1) none, .health true] = some s ∧
      s.ready = true ∧ s.running = false ∧ ¬Promise sampleOptions sampleFiles s := by
  have hrun : (exec (step .sample sampleOptions sampleFiles) init
      [.start true, .spawned (sampleTime 0) (sampleTime 0), .data .stdout sampleOutput,
        .wake (sampleTime 250), .exit (some 1) none, .health true]).map
      (fun s => (s.ready, s.running)) = some (true, false) := by
    decide +kernel
  obtain ⟨s, hs, hfields⟩ := Option.map_eq_some_iff.mp hrun
  obtain ⟨hready, hrunning⟩ := Prod.mk.inj hfields
  exact ⟨s, hs, hready, hrunning, fun h => absurd (h.unexited.symm.trans hrunning) (by simp)⟩

end VerifierService

end EightEen
