import EightEen.Pinned

/-!
# Installers Side by Side

Any number of runs of `fetchPinned` for the same spec, in one process or in several, over one
store of files: their operations interleave in any order, each of them may fail, and any of the
runs may be cut off by a crash. They share the target, and each has a partial file under a
random suffix of its own. What answers is a server, which cannot write to the memory of the
process that it has answered.

## Main results

* `World.Sound.step`: what every step of any run keeps.
* `fetchPinned_allOrNothing`: the target holds what it held, or exactly the pinned bytes.
-/

open Js Transition

namespace EightEen

/-- The pinned bytes are at the target, in the mode that is asked for. -/
def Installed (env : Setting) (spec : Spec) (files : Files.Store) : Prop :=
  ∃ (body : PinnedBody env spec) (file : Files.File), files spec.path = some file ∧
    file.bytes = body.bytes ∧ ∀ mode, spec.mode = some mode → file.mode = mode

theorem installed_of_eq {env : Setting} {spec : Spec} {files : Files.Store} {uuid : String}
    {body : PinnedBody env spec} (hbuffer : body.buffer = body.bytes)
    (h : files spec.path = some (FetchPinned.job env spec uuid body).file) :
    Installed env spec files := by
  refine ⟨body, _, h, hbuffer, fun mode hmode => ?_⟩
  change spec.mode.getD _ = mode
  rw [hmode, Option.getD_some]

/-- Only the target matters. -/
theorem Installed.of_agree {env : Setting} {spec : Spec} {files files' : Files.Store}
    (h : Installed env spec files) (hagree : files' spec.path = files spec.path) :
    Installed env spec files' := by
  obtain ⟨body, file, hfile, hrest⟩ := h
  exact ⟨body, file, hagree.trans hfile, hrest⟩

/-- The store, and how far each run is. -/
structure World (env : Setting) (spec : Spec) (ι : Type) where
  files : Files.Store
  runs : ι → FetchPinned.Phase env spec

namespace World

variable {env : Setting} {spec : Spec} {ι : Type}

/-- The runs have been started, over these files. -/
def start (files : Files.Store) : World env spec ι :=
  { files, runs := fun _ => .fetching }

/-- One step of one of the runs. No server writes to a buffer. -/
def step [DecidableEq ι] (suffix : ι → String) (w : World env spec ι)
    (e : ι × FetchPinned.Event) : Option (World env spec ι) :=
  if e.2.overwrites then none
  else
    (FetchPinned.step env spec (suffix e.1) (w.files, w.runs e.1) e.2).map fun next =>
      { files := next.1, runs := Function.update w.runs e.1 next.2 }

/-- What holds in every state, over the files at the start. -/
structure Sound (suffix : ι → String) (files : Files.Store) (w : World env spec ι) : Prop where
  target : w.files spec.path = files spec.path ∨ Installed env spec w.files
  holds : ∀ i, FetchPinned.Holds (suffix i) w.files (w.runs i)
  resolved : ∀ i body, w.runs i = .installing body .installed → Installed env spec w.files
  untouched : ∀ i, (w.runs i = .fetching ∨ ∃ e, w.runs i = .refused e) →
    w.files (partialPath spec.path (suffix i)) = files (partialPath spec.path (suffix i))

/-- The run rejects with this error. When it has written, it tells whether its partial file has
been removed. -/
inductive Rejects (w : World env spec ι) (i : ι) (e : Thrown) : Bool → Prop
  | refused (h : w.runs i = .refused e) : Rejects w i e true
  | failed {body : PinnedBody env spec} {unlinked : Bool}
      (h : w.runs i = .installing body (.failed e unlinked)) : Rejects w i e unlinked

theorem sound_start (suffix : ι → String) (files : Files.Store) :
    Sound suffix files (start files : World env spec ι) :=
  ⟨Or.inl rfl, fun _ => trivial, fun _ _ h => (by cases h), fun _ _ => rfl⟩

/-- The partial files of two runs are two files. -/
theorem partialPath_ne_of_ne {suffix : ι → String} (hsuffix : Function.Injective suffix)
    {i j : ι} (h : j ≠ i) :
    partialPath spec.path (suffix j) ≠ partialPath spec.path (suffix i) :=
  fun heq => h (hsuffix (partialPath_injective heq))

section Step

variable [DecidableEq ι] {suffix : ι → String} {files : Files.Store} {w w' : World env spec ι}
  {i : ι} {a : FetchPinned.Event}

/-- A step of a run is a step of `fetchPinned`; the other runs stay where they are. -/
theorem step_eq_some (h : step suffix w (i, a) = some w') :
    FetchPinned.step env spec (suffix i) (w.files, w.runs i) a = some (w'.files, w'.runs i) ∧
      (∀ j, j ≠ i → w'.runs j = w.runs j) ∧ a.overwrites = false := by
  rw [step] at h
  by_cases hkeeps : a.overwrites = true
  · rw [if_pos hkeeps] at h
    cases h
  rw [if_neg hkeeps] at h
  obtain ⟨⟨files', phase'⟩, hstep, hnext⟩ := Option.map_eq_some_iff.mp h
  subst hnext
  refine ⟨?_, fun j hj => Function.update_of_ne hj _ _, Bool.eq_false_iff.mpr hkeeps⟩
  change _ = some (files', Function.update w.runs i phase' i)
  rw [Function.update_self]
  exact hstep

/-- **What every step keeps.** -/
theorem Sound.step (hsuffix : Function.Injective suffix) (hw : Sound suffix files w)
    (h : World.step suffix w (i, a) = some w') : Sound suffix files w' := by
  obtain ⟨hstep, hother, hkeeps⟩ := step_eq_some h
  have htarget := FetchPinned.step_target (hw.holds i) hstep
  have hinstalled : Installed env spec w.files → Installed env spec w'.files := by
    intro hins
    rcases htarget with hsame | ⟨body, hbuffer, hfile, -⟩
    · exact hins.of_agree hsame
    · exact installed_of_eq hbuffer hfile
  have hframe : ∀ j, j ≠ i → w'.files (partialPath spec.path (suffix j)) =
      w.files (partialPath spec.path (suffix j)) := fun j hj =>
    FetchPinned.step_frame hstep (partialPath_ne spec.path _).symm
      (partialPath_ne_of_ne hsuffix hj)
  refine ⟨?_, fun j => ?_, fun j body hj => ?_, fun j hj => ?_⟩
  · rcases htarget with hsame | ⟨body, hbuffer, hfile, -⟩
    · exact hw.target.imp hsame.trans hinstalled
    · exact Or.inr (installed_of_eq hbuffer hfile)
  · by_cases hji : j = i
    · exact hji ▸ (hw.holds i).step hkeeps hstep
    · rw [hother j hji]
      exact (hw.holds j).of_agree (hframe j hji)
  · by_cases hji : j = i
    · subst hji
      rw [hj] at hstep
      obtain ⟨-, hbuffer, hfile⟩ := FetchPinned.step_installed (hw.holds j) hstep
      exact installed_of_eq hbuffer hfile
    · exact hinstalled (hw.resolved j body ((hother j hji).symm.trans hj))
  · by_cases hji : j = i
    · subst hji
      have hasks := FetchPinned.step_asks hstep hj
      have hsame := FetchPinned.step_unwritten hstep (Or.inl fun body stage h => by
        rw [hasks] at h
        cases h)
      rw [hsame]
      exact hw.untouched j (Or.inl hasks)
    · rw [hother j hji] at hj
      rw [hframe j hji]
      exact hw.untouched j hj

/-- A run that is over stays where it is. -/
theorem runs_of_over {events : List (ι × FetchPinned.Event)}
    (hrun : exec (step suffix) w events = some w') (hover : (w.runs i).over = true) :
    w'.runs i = w.runs i := by
  have hkept : ∀ u e v, u.runs i = w.runs i → step suffix u e = some v →
      v.runs i = w.runs i := by
    rintro u ⟨j, a⟩ v hu hstep
    obtain ⟨hj, hother, -⟩ := step_eq_some hstep
    by_cases hij : i = j
    · subst hij
      rw [hu, FetchPinned.step_of_over hover] at hj
      cases hj
    · exact (hother i hij).trans hu
  exact exec_invariant (I := fun u => u.runs i = w.runs i) hkept hrun rfl

end Step

/-! ### Whole runs -/

section Runs

variable [DecidableEq ι] {suffix : ι → String} {files : Files.Store}
  {events : List (ι × FetchPinned.Event)} {w : World env spec ι}

theorem sound_of_run (hsuffix : Function.Injective suffix)
    (hrun : exec (step suffix) (start files) events = some w) : Sound suffix files w :=
  exec_invariant (fun _ _ _ hu => hu.step hsuffix) hrun (sound_start suffix files)

/-- A run that installs has been given an answer that passed. -/
theorem passed_of_run (hrun : exec (step suffix) (start files) events = some w) {i : ι}
    {body : PinnedBody env spec} {stage : Files.Stage Thrown}
    (hi : w.runs i = .installing body stage) :
    ∃ o, (i, FetchPinned.Event.answer o) ∈ events ∧ vet env spec o = .ok body := by
  refine exec_history (J := fun done u => ∀ stage, u.runs i = .installing body stage →
    ∃ o, (i, FetchPinned.Event.answer o) ∈ done ∧ vet env spec o = .ok body)
    ?_ hrun (fun stage h => by cases h) stage hi
  rintro done u ⟨j, a⟩ v hu hstep stage hv
  obtain ⟨hj, hother, hkeeps⟩ := step_eq_some hstep
  by_cases hij : i = j
  · subst hij
    rw [hv] at hj
    have hmoves := FetchPinned.moves_of_step hj
    generalize hphase : u.runs i = phase at hmoves
    generalize v.files = files' at hmoves
    cases hmoves with
    | @passes o body passed => exact ⟨o, by simp, passed⟩
    | installs moves =>
        obtain ⟨o, ho, hvet⟩ := hu _ hphase
        exact ⟨o, List.mem_append_left _ ho, hvet⟩
    | overwritten => cases hkeeps
  · obtain ⟨o, ho, hvet⟩ := hu stage ((hother i hij).symm.trans hv)
    exact ⟨o, List.mem_append_left _ ho, hvet⟩

/-- A run that has resolved took the step that put the bytes there. -/
theorem renamed_of_run (hsuffix : Function.Injective suffix)
    (hrun : exec (step suffix) (start files) events = some w) {i : ι}
    {body : PinnedBody env spec} (hi : w.runs i = .installing body .installed) :
    ∃ u v : World env spec ι,
      Takes (step suffix) (start files) events (i, .op .renamed) u v ∧
        body.buffer = body.bytes ∧
        v.files spec.path = some (FetchPinned.job env spec (suffix i) body).file := by
  refine (exec_history (J := fun done u => exec (step suffix) (start files) done = some u ∧
    (u.runs i = .installing body .installed → ∃ u v : World env spec ι,
      Takes (step suffix) (start files) done (i, .op .renamed) u v ∧
        body.buffer = body.bytes ∧
        v.files spec.path = some (FetchPinned.job env spec (suffix i) body).file))
    ?_ hrun ⟨rfl, fun h => by cases h⟩).2 hi
  rintro done u ⟨j, a⟩ v ⟨hdone, hu⟩ hstep
  refine ⟨exec_append_eq_some_iff.mpr ⟨u, hdone, by rw [exec, hstep]; rfl⟩, fun hv => ?_⟩
  obtain ⟨hj, hother, -⟩ := step_eq_some hstep
  by_cases hij : i = j
  · subst hij
    rw [hv] at hj
    obtain ⟨rfl, hinstalled⟩ :=
      FetchPinned.step_installed ((sound_of_run hsuffix hdone).holds i) hj
    exact ⟨u, v, ⟨done, [], rfl, hdone, hstep⟩, hinstalled⟩
  · obtain ⟨u', v', htakes, hinstalled⟩ := hu ((hother i hij).symm.trans hv)
    exact ⟨u', v', htakes.append _, hinstalled⟩

/-- A run that rejects has not changed the target in any of its steps. -/
theorem target_of_rejects (hsuffix : Function.Injective suffix)
    (hrun : exec (step suffix) (start files) events = some w) {i : ι} {e : Thrown}
    {unlinked : Bool} (hi : w.Rejects i e unlinked) {a : FetchPinned.Event}
    {u v : World env spec ι} (h : Takes (step suffix) (start files) events (i, a) u v) :
    v.files spec.path = u.files spec.path := by
  obtain ⟨before, after, rfl, hbefore, hstep, hafter⟩ := h.split hrun
  have hsound := sound_of_run hsuffix hbefore
  rcases FetchPinned.step_target (hsound.holds i) (step_eq_some hstep).1 with
    hsame | ⟨body, -, -, hover⟩
  · exact hsame
  · have hstays := runs_of_over hafter (by rw [hover]; rfl)
    rw [hover] at hstays
    cases hi with
    | refused h => rw [h] at hstays; cases hstays
    | failed h => rw [h] at hstays; cases hstays

end Runs

/-- What a run of the installers comes to, at any moment: the target holds what it held or the
pinned bytes; a run that rejects has not changed it, and leaves no partial file unless that could
not be removed; a run that resolves has put the bytes there; and a run that writes anything has
been given an answer that passed all checks: without an error status, not announcing too much, and
with a body of the pinned length and the pinned digest. -/
structure AllOrNothing [DecidableEq ι] (suffix : ι → String) (files : Files.Store)
    (events : List (ι × FetchPinned.Event)) (w : World env spec ι) : Prop where
  target : w.files spec.path = files spec.path ∨ Installed env spec w.files
  rejects : ∀ i e unlinked, w.Rejects i e unlinked →
    (∀ a (u v : World env spec ι), Takes (step suffix) (start files) events (i, a) u v →
      v.files spec.path = u.files spec.path) ∧
    (unlinked = true → w.files (partialPath spec.path (suffix i)) = none ∨
      w.files (partialPath spec.path (suffix i)) = files (partialPath spec.path (suffix i)))
  resolves : ∀ i body, w.runs i = .installing body .installed → Installed env spec w.files ∧
    ∃ u v : World env spec ι,
      Takes (step suffix) (start files) events (i, .op .renamed) u v ∧
        body.buffer = body.bytes ∧
        v.files spec.path = some (FetchPinned.job env spec (suffix i) body).file
  checked : ∀ before i a after (u v : World env spec ι), events = before ++ (i, a) :: after →
    exec (step suffix) (start files) before = some u → step suffix u (i, a) = some v →
    v.files ≠ u.files → ∃ (res : Reply) (body : PinnedBody env spec),
      (i, FetchPinned.Event.answer (.reply res)) ∈ before ∧
      vet env spec (.reply res) = .ok body ∧ res.ok = true ∧
      advertisesMore res.advertised spec.bytes = false ∧ res.body = .ok body.bytes ∧
      Number.finite body.bytes.length = spec.bytes ∧ env.sha256 body.bytes = spec.sha256

/-- **Installing pinned bytes is all or nothing**, for any number of runs side by side, whatever
the hosts answer and wherever they fail or crash. -/
theorem fetchPinned_allOrNothing [DecidableEq ι] {suffix : ι → String}
    (hsuffix : Function.Injective suffix) {files : Files.Store}
    {events : List (ι × FetchPinned.Event)} {w : World env spec ι}
    (hrun : exec (step suffix) (start files) events = some w) :
    AllOrNothing suffix files events w := by
  have hsound := sound_of_run hsuffix hrun
  refine ⟨hsound.target, fun i e unlinked hi => ⟨fun a u v => target_of_rejects hsuffix hrun hi,
    fun hunlinked => ?_⟩, fun i body hi => ⟨hsound.resolved i body hi,
      renamed_of_run hsuffix hrun hi⟩, ?_⟩
  · cases hi with
    | refused h => exact Or.inr (hsound.untouched i (Or.inr ⟨e, h⟩))
    | @failed body unlinked h =>
        subst hunlinked
        have hholds := hsound.holds i
        rw [h] at hholds
        exact Or.inl hholds.2
  · rintro before i a after u v rfl hbefore hstep hchanged
    obtain ⟨hi, -⟩ := step_eq_some hstep
    have hinstalling : ∃ body stage, u.runs i = .installing body stage := by
      by_contra hnot
      exact hchanged (FetchPinned.step_unwritten hi
        (Or.inl fun body stage hphase => hnot ⟨body, stage, hphase⟩))
    obtain ⟨body, stage, hphase⟩ := hinstalling
    obtain ⟨o, ho, hvet⟩ := passed_of_run hbefore hphase
    obtain ⟨res, rfl, hok, hmore, hbytes, -⟩ := vet_eq_ok_iff.mp hvet
    exact ⟨res, _, ho, hvet, hok, hmore, hbytes, body.length_eq, body.sha256_eq⟩

/-- A setting in which one byte string has the pinned digest. -/
def sampleSetting : Setting where
  numberText _ := ""
  jsonText _ := .ok ""
  sha256 bytes := if bytes = [0x7F] then "pinned" else "other"
  umask := 0o022

/-- A spec of one byte, with a mode. -/
def sampleSpec : Spec where
  url := "https://example.org/binary"
  label := "binary"
  bytes := .finite 1
  sha256 := "pinned"
  path := "cache/binary"
  origin := "from a release"
  timeoutMs := none
  mode := some 0o755

/-- The random suffixes of two runs. -/
def sampleSuffix (i : Bool) : String :=
  if i then "one" else "two"

/-- The answer with the pinned byte. -/
def sampleReply : FetchPinned.Event :=
  .answer (.reply ⟨true, .finite 200, .finite 1, .ok [0x7F]⟩)

/-- Both runs are answered; one installs the byte, the other fails at its `chmod`. -/
def sampleEvents : List (Bool × FetchPinned.Event) :=
  [(true, sampleReply), (false, sampleReply), (true, .op .opened), (false, .op .opened),
    (true, .op (.wrote 1)), (false, .op (.wrote 1)), (true, .op .closed), (false, .op .closed),
    (true, .op .chmodded), (true, .op .renamed), (false, .op (.fails (.error "EIO"))),
    (false, .op .unlinked)]

/-- Two runs side by side for one target: the one installs the pinned byte, and the other fails at
its `chmod` and takes its partial file away. -/
theorem fetchPinned_allOrNothing_sample :
    ∃ w : World sampleSetting sampleSpec Bool,
      exec (step sampleSuffix) (start fun _ => none) sampleEvents = some w ∧
        w.files "cache/binary" = some ⟨[0x7F], 0o755⟩ ∧
        AllOrNothing sampleSuffix (fun _ => none) sampleEvents w := by
  have hsuffix : ∀ i j, sampleSuffix i = sampleSuffix j → i = j := by decide
  have hrun : exec (step sampleSuffix) (start fun _ => none : World sampleSetting sampleSpec
      Bool) sampleEvents = some ⟨_, _⟩ := rfl
  exact ⟨_, hrun, rfl, fetchPinned_allOrNothing (fun i j => hsuffix i j) hrun⟩

end World

end EightEen
