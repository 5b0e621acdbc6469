import EightEen.Answers
import EightEen.Tampering

/-!
# A Fleet on One Directory

Any number of processes provision circuits at the same time, into the same directories or
different ones, and any of them may fail or die at any moment. What they share is the file
system. A service that is started in the meantime counts the files that are named like a
circuit (`countCircuitFiles`), and waits until its child has loaded as many. Every process
downloads with the `fetch` of its platform, which hands over a buffer that nobody else has.

The count can be trusted: whatever stands under the name of a circuit was there before the
processes began, or holds the pinned bytes; the files that a process is still writing have
other names.

## Main results

* `Sound.step`: what every step of every process keeps.
* `standing_of_run`: what can stand under the name of a circuit.
* `counts_what_loads`: what a service counts in a directory, at any moment, and what follows
  for one that is ready.
-/

open Js Transition

namespace EightEen

namespace Provision

open Pins (Callers)

/-- The files, and how far each process is. -/
structure Fleet (env : Setting) where
  files : Files.Store
  calls : ℕ → Call env Circuit

namespace Fleet

variable {env : Setting} {m : Manifest} {callers : Callers}

/-- No process has begun. -/
def start (files : Files.Store) : Fleet env :=
  ⟨files, fun _ => Call.begin env⟩

/-- One step of one process. Nobody writes to a buffer. -/
def step (m : Manifest) (callers : Callers) (s : Fleet env) (e : ℕ × Event) :
    Option (Fleet env) :=
  if e.2.overwrites then none
  else
    (Provision.step env m.view (callers.dir e.1) (callers.uuid e.1) (s.files, s.calls e.1)
      e.2).map fun next => { files := next.1, calls := Function.update s.calls e.1 next.2 }

/-! ### What a process relies on -/

/-- The circuit is whole in a directory. -/
def Whole (env : Setting) (files : Files.Store) (dir : Dir) (circuit : Circuit) : Prop :=
  isIntact env files (dir.join circuit.id) circuit.sha256 = true

/-- What holds of a call at its stage. -/
def StageSound (m : Manifest) (files : Files.Store) (dir : Dir) (uuid : String) (i : ℕ) :
    Stage env Circuit → Prop
  | .reading circuit path expected => m.circuits[i]? = some circuit ∧
      path = dir.join circuit.id ∧ expected = .string circuit.sha256
  | .fetching circuit path => m.circuits[i]? = some circuit ∧ path = dir.join circuit.id
  | .installing spec phase => ∃ circuit, m.circuits[i]? = some circuit ∧
      spec = m.spec dir circuit ∧ FetchPinned.Holds uuid files phase
  | .present | .fetched => ∃ circuit, m.circuits[i]? = some circuit ∧ Whole env files dir circuit
  | .resolved => ∀ circuit ∈ m.circuits, Whole env files dir circuit
  | _ => True

/-- The circuits behind the call are whole, and its stage is sound. -/
structure CallSound (m : Manifest) (callers : Callers) (files : Files.Store) (c : ℕ)
    (call : Call env Circuit) : Prop where
  done : ∀ circuit ∈ m.circuits.take call.index, Whole env files (callers.dir c) circuit
  stage : StageSound m files (callers.dir c) (callers.uuid c call.index) call.index call.stage

/-- Every call is sound, and what stands under the name of a circuit was there before or holds
the pinned bytes. -/
structure Sound (m : Manifest) (callers : Callers) (before : Files.Store) (s : Fleet env) :
    Prop where
  calls : ∀ c, CallSound m callers s.files c (s.calls c)
  standing : ∀ c id, isCircuitId id = true →
    s.files ((callers.dir c).join id) = before ((callers.dir c).join id) ∨
      ∃ circuit ∈ m.circuits, circuit.id = id ∧ Whole env s.files (callers.dir c) circuit

/-- The ids of a well-formed manifest name its circuits. -/
theorem circuit_unique (hm : m.WellFormed) {circuit other : Circuit} (h : circuit ∈ m.circuits)
    (hother : other ∈ m.circuits) (hid : circuit.id = other.id) : circuit = other :=
  List.inj_on_of_nodup_map hm.distinct h hother hid

/-! ### One step of a fetch -/

section Fetch

variable {files files' : Files.Store} {c i : ℕ} {circuit : Circuit}
  {phase phase' : FetchPinned.Phase env (m.spec (callers.dir c) circuit)} {e : FetchPinned.Event}

/-- **What a fetch leaves under the name of a circuit**, in any directory: what was there, or the
pinned bytes of this circuit. -/
theorem standing_of_fetch (hm : m.WellFormed) (hcircuit : circuit ∈ m.circuits)
    (hholds : FetchPinned.Holds (callers.uuid c i) files phase)
    (hstep : FetchPinned.step env _ (callers.uuid c i) (files, phase) e = some (files', phase'))
    (c' : ℕ) {id : String} (hid : isCircuitId id = true) :
    files' ((callers.dir c').join id) = files ((callers.dir c').join id) ∨
      circuit.id = id ∧ Whole env files' (callers.dir c') circuit := by
  rcases FetchPinned.step_path hholds hstep (callers.join_ne_partialPath hid _ c i) with
    hsame | ⟨hpath, body, hbuffer, hfile⟩
  · exact Or.inl hsame
  · obtain rfl := callers.id_unique hid (hm.ids circuit hcircuit) hpath
    exact Or.inr ⟨rfl, isIntact_of_file hfile (FetchPinned.sha256_job hbuffer _)⟩

/-- A fetch leaves every circuit whole that is whole. -/
theorem whole_of_fetch (hm : m.WellFormed) (hcircuit : circuit ∈ m.circuits)
    (hholds : FetchPinned.Holds (callers.uuid c i) files phase)
    (hstep : FetchPinned.step env _ (callers.uuid c i) (files, phase) e = some (files', phase'))
    {c' : ℕ} {other : Circuit} (hother : other ∈ m.circuits)
    (h : Whole env files (callers.dir c') other) : Whole env files' (callers.dir c') other := by
  rcases standing_of_fetch hm hcircuit hholds hstep c' (hm.ids other hother) with
    hsame | ⟨hid, hwhole⟩
  · rw [Whole, isIntact_congr hsame]
    exact h
  · obtain rfl := circuit_unique hm hcircuit hother hid
    exact hwhole

end Fetch

/-! ### One step of a call -/

section Step

variable {files files' : Files.Store} {c : ℕ} {call call' : Call env Circuit}

/-- The head of the loop. -/
theorem enter_sound (hm : m.WellFormed) (h : CallSound m callers files c call) :
    StageSound m files (callers.dir c) (callers.uuid c call.index) call.index
      (call.enter env m.view (callers.dir c)) := by
  have hnext : m.view.next call.index = .ok m.circuits[call.index]? := rfl
  rw [Call.enter, hnext]
  cases hcircuit : m.circuits[call.index]? with
  | none =>
      intro circuit hmem
      refine h.done circuit ?_
      rwa [List.take_of_length_le (List.getElem?_eq_none_iff.mp hcircuit)]
  | some circuit =>
      have hassert : assertCircuitId env (m.view.id circuit) = .ok circuit.id :=
        assertCircuitId_eq_ok_iff.mpr ⟨rfl, hm.ids circuit (List.mem_of_getElem? hcircuit)⟩
      dsimp only
      rw [hassert]
      exact ⟨hcircuit, rfl, rfl⟩

/-- The circuit at hand joins those behind the call. -/
theorem done_succ (h : CallSound m callers files c call) {circuit : Circuit}
    (hcircuit : m.circuits[call.index]? = some circuit)
    (hwhole : Whole env files (callers.dir c) circuit) :
    ∀ other ∈ m.circuits.take (call.index + 1), Whole env files (callers.dir c) other := by
  intro other hother
  rw [take_succ_of_getElem? hcircuit, List.mem_append, List.mem_singleton] at hother
  rcases hother with hother | rfl
  · exact h.done other hother
  · exact hwhole

/-- Behind a step of the fetch of the circuit at hand. -/
theorem settle_sound {circuit : Circuit}
    {phase phase' : FetchPinned.Phase env (m.spec (callers.dir c) circuit)}
    {e : FetchPinned.Event} (hcircuit : m.circuits[call.index]? = some circuit)
    (hholds : FetchPinned.Holds (callers.uuid c call.index) files phase)
    (hkeeps : e.overwrites = false)
    (hstep : FetchPinned.step env _ (callers.uuid c call.index) (files, phase) e =
      some (files', phase')) :
    (call.settle env phase').index = call.index ∧
      StageSound m files' (callers.dir c) (callers.uuid c call.index) call.index
        (call.settle env phase').stage := by
  have hholds' := hholds.step hkeeps hstep
  cases phase' with
  | fetching | crashed => exact ⟨rfl, circuit, hcircuit, rfl, hholds'⟩
  | refused e => exact ⟨rfl, trivial⟩
  | installing body stage =>
      cases stage with
      | installed =>
          obtain ⟨-, hbuffer, hfile⟩ := FetchPinned.step_installed hholds hstep
          exact ⟨rfl, circuit, hcircuit,
            isIntact_of_file hfile (FetchPinned.sha256_job hbuffer _)⟩
      | failed e unlinked => exact ⟨rfl, trivial⟩
      | _ => exact ⟨rfl, circuit, hcircuit, rfl, hholds'⟩

/-- **What a step of a call keeps** of itself. -/
theorem CallSound.step (hm : m.WellFormed) (h : CallSound m callers files c call) {e : Event}
    (hkeeps : e.overwrites = false) (hstep : Provision.step env m.view (callers.dir c) (callers.uuid c) (files, call) e =
      some (files', call')) : CallSound m callers files' c call' := by
  have hsound := h.stage
  cases moves_of_step hstep with
  | made | failed | thrown | thrownAfter => exact ⟨h.done, trivial⟩
  | entered =>
      have henter := enter_sound hm h
      exact ⟨h.done, henter⟩
  | @examined circuit path expected hstage =>
      rw [hstage] at hsound
      obtain ⟨hcircuit, rfl, rfl⟩ := hsound
      rw [Call.examine]
      split
      · next hintact => exact ⟨h.done, circuit, hcircuit, hintact⟩
      · exact ⟨h.done, hcircuit, rfl⟩
  | @asked circuit path hstage =>
      rw [hstage] at hsound
      obtain ⟨hcircuit, rfl⟩ := hsound
      exact ⟨h.done, circuit, hcircuit, rfl, trivial⟩
  | continued hstage =>
      refine ⟨?_, trivial⟩
      rcases hstage with hstage | hstage
      · rw [hstage] at hsound
        obtain ⟨circuit, hcircuit, hwhole⟩ := hsound
        exact done_succ h hcircuit hwhole
      · rw [hstage] at hsound
        obtain ⟨circuit, hcircuit, hwhole⟩ := hsound
        exact done_succ h hcircuit hwhole
  | fetched hstage hfetch =>
      rw [hstage] at hsound
      obtain ⟨circuit, hcircuit, rfl, hholds⟩ := hsound
      obtain ⟨hindex, hsettle⟩ := settle_sound hcircuit hholds hkeeps hfetch
      refine ⟨?_, ?_⟩
      · rw [hindex]
        intro other hother
        exact whole_of_fetch hm (List.mem_of_getElem? hcircuit) hholds hfetch
          (List.mem_of_mem_take hother) (h.done other hother)
      · rw [hindex]
        exact hsettle

/-- **What a step of another call leaves**: nothing that a call relies on changes. -/
theorem CallSound.of_other (hm : m.WellFormed) {c' : ℕ} {other : Call env Circuit}
    (hother : CallSound m callers files c' other) (hne : c' ≠ c)
    (h : CallSound m callers files c call) {e : Event}
    (hstep : Provision.step env m.view (callers.dir c) (callers.uuid c) (files, call) e =
      some (files', call')) : CallSound m callers files' c' other := by
  have hsound := h.stage
  cases moves_of_step hstep with
  | fetched hstage hfetch =>
      rw [hstage] at hsound
      obtain ⟨circuit, hcircuit, rfl, hholds⟩ := hsound
      have hwhole : ∀ d ∈ m.circuits, Whole env files (callers.dir c') d →
          Whole env files' (callers.dir c') d := fun d hd =>
        whole_of_fetch hm (List.mem_of_getElem? hcircuit) hholds hfetch hd
      have hbeside : ∀ path, files' (partialPath path (callers.uuid c' other.index)) =
          files (partialPath path (callers.uuid c' other.index)) := by
        intro path
        refine FetchPinned.step_frame hfetch ?_ fun heq => hne (callers.partialPath_unique heq).1
        exact (callers.join_ne_partialPath (hm.ids _ (List.mem_of_getElem? hcircuit)) path c'
          _).symm
      have hstand := hother.stage
      refine ⟨fun d hd => hwhole d (List.mem_of_mem_take hd) (hother.done d hd), ?_⟩
      revert hstand
      cases other.stage with
      | installing spec phase =>
          rintro ⟨d, hd, rfl, hholds'⟩
          exact ⟨d, hd, rfl, hholds'.of_agree (hbeside _)⟩
      | present | fetched =>
          rintro ⟨d, hd, hd'⟩
          exact ⟨d, hd, hwhole d (List.mem_of_getElem? hd) hd'⟩
      | resolved => exact fun hall d hd => hwhole d hd (hall d hd)
      | _ => exact id
  | _ => exact hother

end Step

/-! ### The fleet -/

theorem sound_start (m : Manifest) (callers : Callers) (files : Files.Store) :
    Sound m callers files (start files : Fleet env) where
  calls c := ⟨fun circuit h => by simp [start, Call.begin] at h, trivial⟩
  standing c id _ := Or.inl rfl

/-- **What every step of every process keeps.** -/
theorem Sound.step (hm : m.WellFormed) {before : Files.Store} {s s' : Fleet env} {e : ℕ × Event}
    (h : Sound m callers before s) (hstep : Fleet.step m callers s e = some s') :
    Sound m callers before s' := by
  obtain ⟨c, e⟩ := e
  rw [Fleet.step] at hstep
  by_cases hwrite : e.overwrites = true
  · rw [if_pos hwrite] at hstep
    cases hstep
  have hkeeps : e.overwrites = false := Bool.eq_false_iff.mpr hwrite
  rw [if_neg hwrite] at hstep
  obtain ⟨⟨files', call'⟩, hcall, rfl⟩ := Option.map_eq_some_iff.mp hstep
  refine ⟨fun c' => ?_, fun c' id hid => ?_⟩
  · by_cases hc : c' = c
    · subst hc
      dsimp only
      rw [Function.update_self]
      exact (h.calls c').step hm hkeeps hcall
    · dsimp only
      rw [Function.update_of_ne hc]
      exact (h.calls c').of_other hm hc (h.calls c) hcall
  · have hstanding := h.standing c' id hid
    have hsound := (h.calls c).stage
    dsimp only at hcall ⊢
    cases moves_of_step hcall with
    | fetched hstage hfetch =>
        rw [hstage] at hsound
        obtain ⟨circuit, hcircuit, rfl, hholds⟩ := hsound
        have hmem := List.mem_of_getElem? hcircuit
        rcases standing_of_fetch hm hmem hholds hfetch c' hid with hsame | ⟨heq, hwhole⟩
        · rcases hstanding with hold | ⟨other, hother, rfl, hwhole⟩
          · exact Or.inl (hsame.trans hold)
          · exact Or.inr ⟨other, hother, rfl, whole_of_fetch hm hmem hholds hfetch hother hwhole⟩
        · exact Or.inr ⟨circuit, hmem, heq, hwhole⟩
    | _ => exact hstanding

/-- **What a process relies on holds in every run**, whatever the others do and wherever they die.
-/
theorem standing_of_run (hm : m.WellFormed) {before : Files.Store} {s : Fleet env}
    {events : List (ℕ × Event)} (hrun : exec (step m callers) (start before) events = some s) :
    Sound m callers before s :=
  exec_invariant (fun _ _ _ h hstep => h.step hm hstep) hrun (sound_start m callers before)

/-! ### What a service counts -/

/-- The names in a directory, as far as they are named like a circuit. -/
structure Lists (files : Files.Store) (dir : Dir) (names : List (List Char)) : Prop where
  nodup : names.Nodup
  mem_iff : ∀ name, circuitFile name = true →
    (name ∈ names ↔ (files (dir.join (String.ofList name))).isSome = true)

/-- Only whole circuits are named like a circuit. -/
def Tidy (env : Setting) (m : Manifest) (dir : Dir) (files : Files.Store) : Prop :=
  ∀ id, isCircuitId id = true → (files (dir.join id)).isSome = true →
    ∃ circuit ∈ m.circuits, circuit.id = id ∧ Whole env files dir circuit

/-- `CIRCUIT_FILE` and `CIRCUIT_ID` are one pattern. -/
theorem circuitFile_eq (name : List Char) :
    circuitFile name = isCircuitId (String.ofList name) := by
  rw [circuitFile, isCircuitId, String.toList_ofList]
  rfl

/-- What is whole is there. -/
theorem Whole.isSome {files : Files.Store} {dir : Dir} {circuit : Circuit}
    (h : Whole env files dir circuit) : (files (dir.join circuit.id)).isSome = true := by
  rw [Whole, isIntact] at h
  split at h
  · next file hfile => rw [hfile, Option.isSome_some]
  · cases h

/-- A directory that was tidy is tidy at every moment. -/
theorem Sound.tidy {before : Files.Store} {s : Fleet env} (h : Sound m callers before s) {c : ℕ}
    (htidy : Tidy env m (callers.dir c) before) : Tidy env m (callers.dir c) s.files := by
  intro id hid hthere
  rcases h.standing c id hid with hsame | hwhole
  · obtain ⟨circuit, hcircuit, rfl, hwhole⟩ := htidy id hid (hsame ▸ hthere)
    refine ⟨circuit, hcircuit, rfl, ?_⟩
    rw [Whole, isIntact_congr hsame]
    exact hwhole
  · exact hwhole

/-- **In a tidy directory the whole circuits are counted.** -/
theorem count_eq (hm : m.WellFormed) {files : Files.Store} {dir : Dir} {names : List (List Char)}
    (htidy : Tidy env m dir files) (hlists : Lists files dir names) :
    countCircuitFiles (some names) = m.circuits.countP fun circuit =>
      isIntact env files (dir.join circuit.id) circuit.sha256 := by
  have hperm : (names.filter circuitFile).Perm
      ((m.circuits.filter fun circuit =>
        isIntact env files (dir.join circuit.id) circuit.sha256).map
          (String.toList ∘ Circuit.id)) := by
    have hnodup : ((m.circuits.map Circuit.id).map String.toList).Nodup :=
      hm.distinct.map fun _ _ h => String.toList_injective h
    rw [List.map_map] at hnodup
    refine (List.perm_ext_iff_of_nodup (hlists.nodup.filter _)
      (hnodup.sublist (List.filter_sublist.map _))).mpr fun name => ?_
    simp only [List.mem_filter, List.mem_map]
    constructor
    · rintro ⟨hname, hfile⟩
      have hthere := (hlists.mem_iff name hfile).mp hname
      rw [circuitFile_eq] at hfile
      obtain ⟨circuit, hcircuit, hid, hwhole⟩ := htidy _ hfile hthere
      refine ⟨circuit, ⟨hcircuit, hwhole⟩, ?_⟩
      rw [Function.comp_apply, hid, String.toList_ofList]
    · rintro ⟨circuit, ⟨hcircuit, hwhole⟩, rfl⟩
      have hfile : circuitFile circuit.id.toList = true := by
        rw [circuitFile_eq, String.ofList_toList]
        exact hm.ids circuit hcircuit
      refine ⟨(hlists.mem_iff _ hfile).mpr ?_, hfile⟩
      rw [String.ofList_toList]
      exact Whole.isSome hwhole
  have hlength := hperm.length_eq
  rwa [List.length_map, ← List.countP_eq_length_filter, ← List.countP_eq_length_filter] at hlength

/-- **What a service counts is what it can load.** At every moment of every run of the fleet, the
circuit files of a directory that was tidy are the whole circuits in it, whatever is being written
or has been given up beside them. Once one process has provisioned the directory, a service that
is started on it and becomes ready has loaded as many circuits as the manifest has. -/
theorem counts_what_loads (hm : m.WellFormed) {before : Files.Store} {s : Fleet env}
    {events : List (ℕ × Event)} (hrun : exec (step m callers) (start before) events = some s)
    {c : ℕ} (htidy : Tidy env m (callers.dir c) before) {names : List (List Char)}
    (hlists : Lists s.files (callers.dir c) names) :
    (countCircuitFiles (some names) = m.circuits.countP fun circuit =>
      isIntact env s.files ((callers.dir c).join circuit.id) circuit.sha256) ∧
    ∀ c', callers.dir c' = callers.dir c → (s.calls c').stage = .resolved →
      ∀ p o bundle happened service,
        exec (VerifierService.step p o ⟨some names, bundle⟩) VerifierService.init happened =
          some service →
        service.ready = true → m.circuits.length ≤ service.log.circuits := by
  have hsound := standing_of_run hm hrun
  have hcount := count_eq hm (hsound.tidy htidy) hlists
  refine ⟨hcount, fun c' hdir hresolved p o bundle happened service hservice hready => ?_⟩
  have hstage := (hsound.calls c').stage
  rw [hresolved, hdir] at hstage
  have hall : (m.circuits.countP fun circuit =>
      isIntact env s.files ((callers.dir c).join circuit.id) circuit.sha256) =
        m.circuits.length :=
    List.countP_eq_length.mpr fun circuit hcircuit => hstage circuit hcircuit
  have hloaded := (VerifierService.audited_of_run hservice hready).circuits
  dsimp only at hloaded
  rwa [hcount, hall] at hloaded

/-- Two processes provision one directory, and the second dies while it is writing. -/
def sampleFleetRun : List (ℕ × Event) :=
  ([.proceeds, .proceeds, .proceeds, .proceeds,
    .fetch (.answer (.reply ⟨true, .finite 200, .finite 1, .ok [0x7F]⟩)), .fetch (.op .opened),
    .fetch (.op .crash)] : List Event).map (Prod.mk 1) ++ sampleEvents.map (Prod.mk 0)

/-- The directory of the two processes, with what the second has left, counts one circuit. -/
theorem counts_what_loads_sampleFleetRun :
    ∃ s : Fleet sampleSetting,
      exec (step sampleManifest Pins.sampleCallers) (start fun _ => none) sampleFleetRun =
        some s ∧
      (countCircuitFiles (some [VerifierService.sampleCircuit]) = sampleManifest.circuits.countP
        fun circuit => isIntact sampleSetting s.files
          ((Pins.sampleCallers.dir 0).join circuit.id) circuit.sha256) ∧
      ∀ p o bundle happened service,
        exec (VerifierService.step p o ⟨some [VerifierService.sampleCircuit], bundle⟩)
          VerifierService.init happened = some service →
        service.ready = true → 1 ≤ service.log.circuits := by
  have hresolves : (exec (step sampleManifest Pins.sampleCallers)
      (start fun _ => none : Fleet sampleSetting) sampleFleetRun).map
      (fun s => match (s.calls 0).stage with | .resolved => true | _ => false) = some true := rfl
  obtain ⟨s, hrun, hstage⟩ := Option.map_eq_some_iff.mp hresolves
  have hresolved : (s.calls 0).stage = .resolved := by
    split at hstage
    · assumption
    · cases hstage
  have hsound := standing_of_run sampleManifest_wellFormed hrun
  have hlists : Lists s.files (Pins.sampleCallers.dir 0) [VerifierService.sampleCircuit] := by
    refine ⟨List.nodup_singleton _, fun name hname => ?_⟩
    rw [List.mem_singleton]
    constructor
    · rintro rfl
      have hstage := (hsound.calls 0).stage
      rw [hresolved] at hstage
      exact Whole.isSome (hstage _ (List.mem_singleton_self _))
    · intro hthere
      rw [circuitFile_eq] at hname
      rcases hsound.standing 0 _ hname with hsame | ⟨circuit, hcircuit, hid, -⟩
      · rw [hsame] at hthere
        cases hthere
      · obtain rfl := List.mem_singleton.mp hcircuit
        exact (String.ofList_injective hid).symm
  have h := counts_what_loads sampleManifest_wellFormed hrun (fun id _ hthere => by cases hthere)
    hlists
  exact ⟨s, hrun, h.1, h.2 0 rfl hresolved⟩

end Fleet

end Provision

end EightEen
