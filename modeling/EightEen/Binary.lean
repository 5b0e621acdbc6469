import EightEen.Pinned

/-!
# The Verifier Binary

This module models `src/binary.js`. `provisionBinary` installs the pinned binary for a platform,
or repairs its mode, and `resolveProvisionedBinary` is asked at every start for the path of the
binary to run: it looks at the bytes and at the mode again, and has no memory of the
installation. Both go through `entryFor` and `cachedPath`.

The manifest's `binaries` is an object with own and inherited properties. What `access` says of
a file is any predicate of its mode. It holds of `0o755` unless the caches are on a mount that
permits no execution (`Host.Executes`).

## Main results

* `entryFor_eq_ok`: an entry is an own one, and not for a machine it cannot run on.
* `resolveProvisionedBinary_eq_ok_iff`: what is run has the pinned bytes and can be executed.
* `provisionBinary_agrees`: what has been installed is what will be run.
-/

open Js Transition

namespace EightEen

/-- An entry of the manifest. -/
structure BinaryEntry where
  asset : String
  sha256 : String
  bytes : Number
  deriving DecidableEq

/-- The object `manifest.binaries`: its own properties in the order of `Object.keys`, and what
reading any other name gives. An entry that is not truthy is `none`. -/
structure Binaries where
  own : List (String × Option BinaryEntry)
  inherited : String → Option BinaryEntry

/-- `Object.hasOwn(binaries, name)`. -/
def Binaries.hasOwn (b : Binaries) (name : String) : Bool :=
  (b.own.lookup name).isSome

/-- `binaries[name]`. -/
def Binaries.get (b : Binaries) (name : String) : Option BinaryEntry :=
  (b.own.lookup name).getD (b.inherited name)

/-- The manifest, as `binary.js` reads it. -/
structure BinaryManifest where
  release : String
  binaries : Binaries

/-- The machine the process runs on: `process.platform` and `process.arch`; the header of its
diagnostic report, by whether it names a glibc, if there is a header and reading it does not
throw; where its caches are; `join`; and whether a file of this mode can be executed. -/
structure Host where
  platform : String
  arch : String
  header : Completion (Option Bool)
  xdgCacheHome : String
  homedir : String
  join : String → String → String
  executable : ℕ → Bool

/-- **The assumption about the file system**: a file that everyone may execute can be executed,
so it is not on a `noexec` mount. -/
def Host.Executes (host : Host) : Prop :=
  host.executable 0o755 = true

/-- `defaultBinaryDir()`. -/
def Host.defaultBinaryDir (host : Host) : String :=
  host.join (if host.xdgCacheHome = "" then host.join host.homedir ".cache"
    else host.xdgCacheHome) "zk8een"

/-- `isMuslLinux()`. -/
def Host.isMuslLinux (host : Host) : Bool :=
  if host.platform ≠ "linux" then false
  else
    match host.header with
    | .ok (some glibc) => !glibc
    | .ok none | .error _ => false

/-- `hostPlatform()`. -/
def Host.hostPlatform (host : Host) : String :=
  host.platform ++ "-" ++ host.arch

/-- `opts.platform`. -/
inductive Target where
  | undefined
  | null
  | named (platform : String)

/-- The platform that is looked up: the default stands for `undefined` only, and `null` is looked
up by its text. -/
def Target.key (host : Host) : Target → String
  | undefined => host.hostPlatform
  | null => "null"
  | named platform => platform

/-- `opts.platform != null`. -/
def Target.explicitTarget : Target → Bool
  | named _ => true
  | _ => false

/-- `BUILD_IT_YOURSELF`. -/
def buildItYourself : String :=
  "https://github.com/hamr0/8een/blob/main/poc/M0-EVIDENCE.md (step 1)"

/-- `entryFor(platform, { explicitTarget })`. -/
def entryFor (host : Host) (m : BinaryManifest) (platform : String) (explicitTarget : Bool) :
    Completion BinaryEntry :=
  match if m.binaries.hasOwn platform then m.binaries.get platform else none with
  | none =>
      .error (.error ("no prebuilt verifier binary for " ++ platform ++ " (available: " ++
        ", ".intercalate (m.binaries.own.map (·.1)) ++
        "). Build it yourself from the documented steps -- " ++ buildItYourself ++
        " -- and pass its path as `binary:`."))
  | some entry =>
      if !explicitTarget && host.isMuslLinux then
        .error (.error ("the prebuilt " ++ platform ++
          " verifier binary is glibc-linked and this looks like a musl system (Alpine): it " ++
          "would download and then fail to spawn. Either use a glibc image (e.g. " ++
          "node:22-bookworm-slim) or build the binary against musl yourself -- " ++
          buildItYourself ++ " -- and pass its path as `binary:`. To provision FOR somewhere " ++
          "else from here, name the target: provisionBinary(dir, \x7b platform: '" ++ platform ++
          "' \x7d)."))
      else .ok entry

/-- **An entry is an own one.** -/
theorem entryFor_eq_ok {host : Host} {m : BinaryManifest} {platform : String}
    {explicitTarget : Bool} {entry : BinaryEntry}
    (h : entryFor host m platform explicitTarget = .ok entry) :
    m.binaries.own.lookup platform = some (some entry) := by
  rw [entryFor] at h
  split at h
  · cases h
  · next found hfound =>
      split at h
      · cases h
      · cases h
        split at hfound
        · next hown =>
            obtain ⟨value, hvalue⟩ := Option.isSome_iff_exists.mp hown
            rw [Binaries.get, hvalue] at hfound
            rw [hvalue, ← hfound]
            rfl
        · cases hfound

/-- The arguments of a call, and the platform they ask for. -/
structure BinaryArgs where
  dir : Option String
  platform : Target

/-- `cachedPath(dir, entry)`. -/
def cachedPath (host : Host) (m : BinaryManifest) (args : BinaryArgs) (entry : BinaryEntry) :
    String :=
  host.join (args.dir.getD host.defaultBinaryDir) (entry.asset ++ "-" ++ m.release)

/-- The entry that a call is about. -/
def BinaryArgs.entry (host : Host) (m : BinaryManifest) (args : BinaryArgs) :
    Completion BinaryEntry :=
  entryFor host m (args.platform.key host) args.platform.explicitTarget

/-- `isExecutable(path)`. -/
def isExecutable (host : Host) (files : Files.Store) (path : String) : Bool :=
  match files path with
  | some file => host.executable file.mode
  | none => false

/-- `resolveProvisionedBinary(dir, opts)`, with the files when they are read and when the mode is
asked for. -/
def resolveProvisionedBinary (env : Setting) (host : Host) (m : BinaryManifest)
    (args : BinaryArgs) (onRead onAccess : Files.Store) : Completion String := do
  let entry ← args.entry host m
  let path := cachedPath host m args entry
  if !isIntact env onRead path entry.sha256 then
    .error (.error ("no verifier binary at " ++ path ++
      " (or its bytes do not match the pinned sha256). Run provisionBinary() first, or pass " ++
      "your own build as `binary:`."))
  else if !isExecutable host onAccess path then
    .error (.error ("the verifier binary at " ++ path ++
      " is not executable (its bytes are correct). Run provisionBinary() to repair its mode, " ++
      "or `chmod +x` it."))
  else .ok path

/-- **What is run** is the file under the name of the entry, with the pinned bytes when it was
read, and executable when its mode was asked for. -/
theorem resolveProvisionedBinary_eq_ok_iff {env : Setting} {host : Host} {m : BinaryManifest}
    {args : BinaryArgs} {onRead onAccess : Files.Store} {path : String} :
    resolveProvisionedBinary env host m args onRead onAccess = .ok path ↔
      ∃ entry, args.entry host m = .ok entry ∧ path = cachedPath host m args entry ∧
        isIntact env onRead path entry.sha256 = true ∧
        isExecutable host onAccess path = true := by
  rw [resolveProvisionedBinary, bind_eq_ok]
  constructor
  · rintro ⟨entry, hentry, h⟩
    dsimp only at h
    split at h
    · cases h
    · next hintact =>
        split at h
        · cases h
        · next hexec =>
            cases h
            exact ⟨entry, hentry, rfl, by simpa using hintact, by simpa using hexec⟩
  · rintro ⟨entry, hentry, rfl, hintact, hexec⟩
    refine ⟨entry, hentry, ?_⟩
    simp only [hintact, hexec, Bool.not_true, Bool.false_eq_true, if_false]

/-! ### Provisioning -/

namespace ProvisionBinary

/-- Where a call waits: for `mkdir`, for `isIntact`, for `chmod`, for `onProgress` to return
(`present`, `fetching`, `fetched`), and for `fetchPinned`. It resolves with the path and the
action, of which `true` is `fetched`. -/
inductive Stage (env : Setting) where
  | mkdir (entry : BinaryEntry)
  | reading (entry : BinaryEntry)
  | chmodding (entry : BinaryEntry)
  | present (entry : BinaryEntry)
  | fetching (entry : BinaryEntry)
  | installing (entry : BinaryEntry) (spec : Spec) (phase : FetchPinned.Phase env spec)
  | fetched (entry : BinaryEntry)
  | resolved (path : String) (fetched : Bool)
  | rejected (e : Thrown)

/-- A call: its stage, and the requests it has made. -/
structure Call (env : Setting) where
  stage : Stage env
  asked : List Download

/-- What a call is told: that what it waits for has succeeded or failed (`onProgress` by
throwing), or what happened to its `fetchPinned`. -/
inductive Event where
  | proceeds
  | fails (e : Thrown)
  | fetch (e : FetchPinned.Event)

/-- The event is a write to the buffer that the call was handed. -/
def Event.overwrites : Event → Bool
  | .fetch e => e.overwrites
  | _ => false

/-- **The assumption about `fetchImpl`**: an `ArrayBuffer` that it hands over belongs to the call,
and no code writes to it afterwards. So it is documented of `fetch`. -/
def KeepsBuffers (events : List Event) : Prop :=
  ∀ e ∈ events, e.overwrites = false

instance (events : List Event) : Decidable (KeepsBuffers events) :=
  inferInstanceAs (Decidable (∀ e ∈ events, e.overwrites = false))

/-- The call of `fetchPinned` by `fetchBinary(entry, path, fetchImpl)`. -/
def fetchBinary (m : BinaryManifest) (entry : BinaryEntry) (path : String) : Spec where
  url := "https://github.com/hamr0/8een/releases/download/" ++ m.release ++ "/" ++ entry.asset
  label := "binary " ++ entry.asset
  bytes := entry.bytes
  sha256 := entry.sha256
  path
  origin := "from release " ++ m.release
  timeoutMs := some 120000
  mode := some 0o755

section Step

variable (env : Setting) (host : Host) (m : BinaryManifest) (args : BinaryArgs)

/-- A call, down to `mkdir`. -/
def Call.begin : Call env :=
  match args.entry host m with
  | .error e => ⟨.rejected e, []⟩
  | .ok entry => ⟨.mkdir entry, []⟩

/-- Behind `isIntact`. -/
def examined (files : Files.Store) (entry : BinaryEntry) : Stage env :=
  if isIntact env files (cachedPath host m args entry) entry.sha256 then .chmodding entry
  else .fetching entry

/-- Behind a step of `fetchPinned`. -/
def settle (entry : BinaryEntry) {spec : Spec} : FetchPinned.Phase env spec → Stage env
  | .installing _ .installed => .fetched entry
  | .installing _ (.failed e _) => .rejected e
  | .refused e => .rejected e
  | phase => .installing entry spec phase

/-- One step of a call of `provisionBinary(dir, opts)`, with its random suffix. -/
def step (uuid : String) (state : Files.Store × Call env) :
    Event → Option (Files.Store × Call env)
  | .proceeds =>
      match state.2.stage with
      | .mkdir entry => some (state.1, { state.2 with stage := .reading entry })
      | .reading entry =>
          some (state.1, { state.2 with stage := examined env host m args state.1 entry })
      | .chmodding entry =>
          some (state.1.modify (cachedPath host m args entry) fun file =>
              { file with mode := 0o755 },
            { state.2 with stage := .present entry })
      | .present entry =>
          some (state.1, { state.2 with stage := .resolved (cachedPath host m args entry) false })
      | .fetching entry =>
          some (state.1, {
            stage :=
              .installing entry (fetchBinary m entry (cachedPath host m args entry)) .fetching
            asked := state.2.asked ++
              [(fetchBinary m entry (cachedPath host m args entry)).download] })
      | .fetched entry =>
          some (state.1, { state.2 with stage := .resolved (cachedPath host m args entry) true })
      | _ => none
  | .fails e =>
      match state.2.stage with
      | .mkdir _ | .chmodding _ | .present _ | .fetching _ | .fetched _ =>
          some (state.1, { state.2 with stage := .rejected e })
      | _ => none
  | .fetch e =>
      match state.2.stage with
      | .installing entry spec phase =>
          (FetchPinned.step env spec uuid (state.1, phase) e).map fun next =>
            (next.1, { state.2 with stage := settle env entry next.2 })
      | _ => none

end Step

/-- What each step does, by the stage it is taken in. -/
inductive Moves (env : Setting) (host : Host) (m : BinaryManifest) (args : BinaryArgs)
    (uuid : String) (files : Files.Store) (call : Call env) :
    Event → Files.Store → Call env → Prop
  | made {entry : BinaryEntry} (h : call.stage = .mkdir entry) :
      Moves env host m args uuid files call .proceeds files { call with stage := .reading entry }
  | examined {entry : BinaryEntry} (h : call.stage = .reading entry) :
      Moves env host m args uuid files call .proceeds files
        { call with stage := examined env host m args files entry }
  | repaired {entry : BinaryEntry} (h : call.stage = .chmodding entry) :
      Moves env host m args uuid files call .proceeds
        (files.modify (cachedPath host m args entry) fun file => { file with mode := 0o755 })
        { call with stage := .present entry }
  | found {entry : BinaryEntry} (h : call.stage = .present entry) :
      Moves env host m args uuid files call .proceeds files
        { call with stage := .resolved (cachedPath host m args entry) false }
  | asked {entry : BinaryEntry} (h : call.stage = .fetching entry) :
      Moves env host m args uuid files call .proceeds files {
        stage := .installing entry (fetchBinary m entry (cachedPath host m args entry)) .fetching
        asked := call.asked ++ [(fetchBinary m entry (cachedPath host m args entry)).download] }
  | installed {entry : BinaryEntry} (h : call.stage = .fetched entry) :
      Moves env host m args uuid files call .proceeds files
        { call with stage := .resolved (cachedPath host m args entry) true }
  | failed {e : Thrown} :
      Moves env host m args uuid files call (.fails e) files { call with stage := .rejected e }
  | fetched {entry : BinaryEntry} {spec : Spec} {phase phase' : FetchPinned.Phase env spec}
      {e : FetchPinned.Event} {files' : Files.Store} (h : call.stage = .installing entry spec phase)
      (hstep : FetchPinned.step env spec uuid (files, phase) e = some (files', phase')) :
      Moves env host m args uuid files call (.fetch e) files'
        { call with stage := settle env entry phase' }

section Run

variable {env : Setting} {host : Host} {m : BinaryManifest} {args : BinaryArgs}

/-- **One step, by its event.** -/
theorem moves_of_step {uuid : String} {files files' : Files.Store} {call call' : Call env}
    {e : Event} (h : step env host m args uuid (files, call) e = some (files', call')) :
    Moves env host m args uuid files call e files' call' := by
  cases e with
  | proceeds =>
      rw [step] at h
      split at h
      · next hstage => cases h; exact .made hstage
      · next hstage => cases h; exact .examined hstage
      · next hstage => cases h; exact .repaired hstage
      · next hstage => cases h; exact .found hstage
      · next hstage => cases h; exact .asked hstage
      · next hstage => cases h; exact .installed hstage
      · cases h
  | fails e =>
      rw [step] at h
      split at h
      all_goals cases h
      all_goals exact .failed
  | fetch e =>
      rw [step] at h
      split at h
      · next hstage =>
          obtain ⟨⟨files₁, phase₁⟩, hstep, hnext⟩ := Option.map_eq_some_iff.mp h
          cases hnext
          exact .fetched hstage hstep
      · cases h

/-- The binary is in its place: intact, and executable by everyone. -/
def Ready (env : Setting) (files : Files.Store) (path : String) (entry : BinaryEntry) : Prop :=
  ∃ file, files path = some file ∧ env.sha256 file.bytes = entry.sha256 ∧ file.mode = 0o755

/-- What holds of a call, by its stage. -/
def Invariant (env : Setting) (host : Host) (m : BinaryManifest) (args : BinaryArgs)
    (uuid : String) (files : Files.Store) : Stage env → Prop
  | .mkdir entry | .reading entry | .fetching entry => args.entry host m = .ok entry
  | .chmodding entry => args.entry host m = .ok entry ∧
      isIntact env files (cachedPath host m args entry) entry.sha256 = true
  | .present entry | .fetched entry => args.entry host m = .ok entry ∧
      Ready env files (cachedPath host m args entry) entry
  | .installing entry spec phase => args.entry host m = .ok entry ∧
      spec = fetchBinary m entry (cachedPath host m args entry) ∧
      FetchPinned.Holds uuid files phase
  | .resolved path _ => ∃ entry, args.entry host m = .ok entry ∧
      path = cachedPath host m args entry ∧ Ready env files path entry
  | .rejected _ => True

theorem invariant_begin (uuid : String) (files : Files.Store) :
    Invariant env host m args uuid files (Call.begin env host m args).stage := by
  rw [Call.begin]
  cases hentry : args.entry host m with
  | error e => trivial
  | ok entry => exact hentry

theorem examined_of_intact {files : Files.Store} {entry : BinaryEntry}
    (h : isIntact env files (cachedPath host m args entry) entry.sha256 = true) :
    examined env host m args files entry = .chmodding entry :=
  if_pos h

theorem Ready.intact {files : Files.Store} {path : String} {entry : BinaryEntry}
    (h : Ready env files path entry) : isIntact env files path entry.sha256 = true := by
  obtain ⟨file, hfile, hsha, -⟩ := h
  exact isIntact_of_file hfile hsha

/-- A file that is intact and whose mode has been set. -/
theorem ready_of_intact {files : Files.Store} {path : String} {entry : BinaryEntry}
    (h : isIntact env files path entry.sha256 = true) :
    Ready env (files.modify path fun file => { file with mode := 0o755 }) path entry := by
  rw [isIntact] at h
  split at h
  · next file hfile =>
      refine ⟨{ file with mode := 0o755 }, ?_, of_decide_eq_true h, rfl⟩
      rw [Files.Store.modify_self, hfile]
      rfl
  · cases h

/-- A step of the fetch. -/
theorem invariant_settle {uuid : String} {files files' : Files.Store} {entry : BinaryEntry}
    {phase phase' : FetchPinned.Phase env (fetchBinary m entry (cachedPath host m args entry))}
    {e : FetchPinned.Event} (hentry : args.entry host m = .ok entry)
    (hholds : FetchPinned.Holds uuid files phase) (hkeeps : e.overwrites = false)
    (hstep : FetchPinned.step env _ uuid (files, phase) e = some (files', phase')) :
    Invariant env host m args uuid files' (settle env entry phase') := by
  have hholds' := hholds.step hkeeps hstep
  cases phase' with
  | installing body stage =>
      cases stage with
      | installed =>
          obtain ⟨-, hbuffer, hfile⟩ := FetchPinned.step_installed hholds hstep
          exact ⟨hentry, _, hfile, FetchPinned.sha256_job hbuffer uuid, rfl⟩
      | failed e unlinked => trivial
      | _ => exact ⟨hentry, rfl, hholds'⟩
  | refused e => trivial
  | fetching | crashed => exact ⟨hentry, rfl, hholds'⟩

/-- **Every step of a call keeps the invariant**, unless the buffer at hand is written to. -/
theorem Invariant.step {uuid : String} {files files' : Files.Store} {call call' : Call env}
    {e : Event} (h : Invariant env host m args uuid files call.stage)
    (hkeeps : e.overwrites = false)
    (hstep : ProvisionBinary.step env host m args uuid (files, call) e = some (files', call')) :
    Invariant env host m args uuid files' call'.stage := by
  cases moves_of_step hstep with
  | made hstage =>
      rw [hstage] at h
      exact h
  | @examined entry hstage =>
      rw [hstage] at h
      have hentry : args.entry host m = .ok entry := h
      by_cases hintact : isIntact env files (cachedPath host m args entry) entry.sha256 = true
      · have hexamined := examined_of_intact hintact
        exact hexamined ▸ ⟨hentry, hintact⟩
      · have hexamined : examined env host m args files entry = .fetching entry :=
          if_neg hintact
        exact hexamined ▸ hentry
  | repaired hstage =>
      rw [hstage] at h
      exact ⟨h.1, ready_of_intact h.2⟩
  | @found entry hstage | @installed entry hstage =>
      rw [hstage] at h
      exact ⟨entry, h.1, rfl, h.2⟩
  | asked hstage =>
      rw [hstage] at h
      exact ⟨h, rfl, trivial⟩
  | failed => trivial
  | fetched hstage hfetch =>
      rw [hstage] at h
      obtain ⟨hentry, rfl, hholds⟩ := h
      exact invariant_settle hentry hholds hkeeps hfetch

/-- **What holds at every moment of a call**, if its buffers are its own. -/
theorem invariant_of_run {uuid : String} {before after : Files.Store} {call : Call env}
    {events : List Event} (hkeeps : KeepsBuffers events)
    (hrun : exec (ProvisionBinary.step env host m args uuid)
      (before, Call.begin env host m args) events = some (after, call)) :
    Invariant env host m args uuid after call.stage := by
  have hmeets : Meets (ProvisionBinary.step env host m args uuid)
      (fun _ e => e.overwrites = false) (before, Call.begin env host m args) events :=
    meets_of_forall fun e he _ => hkeeps e he
  refine exec_invariant_of_meets (I := fun s => Invariant env host m args uuid s.1 s.2.stage) ?_
    hrun hmeets (invariant_begin uuid before)
  rintro ⟨u, c⟩ e ⟨v, c'⟩ hu hkeeps hstep
  exact hu.step hkeeps hstep

/-- What is in its place will be run. -/
theorem resolves_of_ready (hexecutes : host.Executes) {files : Files.Store} {entry : BinaryEntry}
    (hentry : args.entry host m = .ok entry)
    (h : Ready env files (cachedPath host m args entry) entry) :
    resolveProvisionedBinary env host m args files files =
      .ok (cachedPath host m args entry) := by
  have hintact := h.intact
  obtain ⟨file, hfile, -, hmode⟩ := h
  refine resolveProvisionedBinary_eq_ok_iff.mpr ⟨entry, hentry, rfl, hintact, ?_⟩
  · rw [isExecutable, hfile]
    change host.executable file.mode = true
    rw [hmode]
    exact hexecutes

/-- The stages of a call that finds the binary in its place. -/
def Finds (entry : BinaryEntry) (path : String) (call : Call env) : Prop :=
  call.asked = [] ∧
    (call.stage = .mkdir entry ∨ call.stage = .reading entry ∨ call.stage = .chmodding entry ∨
      call.stage = .present entry ∨ call.stage = .resolved path false ∨
      ∃ e, call.stage = .rejected e)

theorem modify_of_ready {files : Files.Store} {path : String} {entry : BinaryEntry}
    (h : Ready env files path entry) :
    files.modify path (fun file => { file with mode := 0o755 }) = files := by
  obtain ⟨file, hfile, -, hmode⟩ := h
  funext other
  by_cases hother : other = path
  · rw [hother, Files.Store.modify_self, hfile, Option.map_some, ← hmode]
  · exact files.modify_of_ne hother _

/-- **A call over a binary in its place** asks for nothing and changes nothing. -/
theorem Finds.step {uuid : String} {files files' : Files.Store} {entry : BinaryEntry}
    {call call' : Call env} {e : Event}
    (hready : Ready env files (cachedPath host m args entry) entry)
    (h : Finds entry (cachedPath host m args entry) call)
    (hstep : ProvisionBinary.step env host m args uuid (files, call) e = some (files', call')) :
    files' = files ∧ Finds entry (cachedPath host m args entry) call' := by
  obtain ⟨hasked, hstage⟩ := h
  cases moves_of_step hstep with
  | made hs =>
      obtain rfl : _ = entry := by simpa [hs] using hstage
      exact ⟨rfl, hasked, by simp⟩
  | examined hs =>
      obtain rfl : _ = entry := by simpa [hs] using hstage
      exact ⟨rfl, hasked, by simp [examined_of_intact hready.intact]⟩
  | repaired hs =>
      obtain rfl : _ = entry := by simpa [hs] using hstage
      exact ⟨modify_of_ready hready, hasked, by simp⟩
  | found hs =>
      obtain rfl : _ = entry := by simpa [hs] using hstage
      exact ⟨rfl, hasked, by simp⟩
  | asked hs | installed hs | fetched hs _ => simp [hs] at hstage
  | failed => exact ⟨rfl, hasked, by simp⟩

/-- What a call that resolves with this path leaves behind: the binary that a start will resolve
to is the one at this path, and a second call finds it there, asks for nothing, changes nothing,
and says so. -/
structure Agrees (env : Setting) (host : Host) (m : BinaryManifest) (args : BinaryArgs)
    (after : Files.Store) (path : String) : Prop where
  resolves : resolveProvisionedBinary env host m args after after = .ok path
  again : ∀ uuid events now call, exec (ProvisionBinary.step env host m args uuid)
    (after, Call.begin env host m args) events = some (now, call) → now = after ∧
      call.asked = [] ∧ ∀ path' fetched, call.stage = .resolved path' fetched →
        path' = path ∧ fetched = false
  present : ∀ uuid, exec (ProvisionBinary.step env host m args uuid)
    (after, Call.begin env host m args) [.proceeds, .proceeds, .proceeds, .proceeds] =
      some (after, ⟨.resolved path false, []⟩)

/-- **A binary in its place** is what a start resolves to, and what a second call finds. -/
theorem agrees_of_ready (hexecutes : host.Executes) {files : Files.Store} {entry : BinaryEntry}
    (hentry : args.entry host m = .ok entry)
    (hready : Ready env files (cachedPath host m args entry) entry) :
    Agrees env host m args files (cachedPath host m args entry) where
  resolves := resolves_of_ready hexecutes hentry hready
  again uuid events now call hrun := by
    have hbegin : Call.begin env host m args = ⟨.mkdir entry, []⟩ := by
      rw [Call.begin, hentry]
    rw [hbegin] at hrun
    obtain ⟨rfl, hasked, hstage⟩ := exec_invariant
      (I := fun s => s.1 = files ∧ Finds entry (cachedPath host m args entry) s.2)
      (by
        rintro ⟨u, c⟩ e ⟨v, c'⟩ ⟨rfl, hfinds⟩ hstep
        exact hfinds.step hready hstep)
      hrun ⟨rfl, rfl, Or.inl rfl⟩
    refine ⟨rfl, hasked, fun path' fetched hend => ?_⟩
    rw [hend] at hstage
    simpa using hstage
  present uuid := by
    have hmodify := modify_of_ready hready
    have hexamined := examined_of_intact hready.intact
    have hbegin : Call.begin env host m args = ⟨.mkdir entry, []⟩ := by
      rw [Call.begin, hentry]
    simp only [exec, hbegin, ProvisionBinary.step, Option.bind_some, hexamined, hmodify]

/-- **What has been installed is what will be run.** A start resolves to a path only where an own
entry of the manifest pins the bytes that are there, in a file that can be executed; and behind
a call of `provisionBinary` that resolves, it resolves to the same path. The second part is about
a file system that permits execution, and downloads in buffers that are the call's own. -/
theorem provisionBinary_agrees (env : Setting) (host : Host) (m : BinaryManifest)
    (args : BinaryArgs) :
    (∀ onRead onAccess path,
      resolveProvisionedBinary env host m args onRead onAccess = .ok path →
      ∃ entry file file', m.binaries.own.lookup (args.platform.key host) = some (some entry) ∧
        path = cachedPath host m args entry ∧ onRead path = some file ∧
        env.sha256 file.bytes = entry.sha256 ∧ onAccess path = some file' ∧
        host.executable file'.mode = true) ∧
    ∀ uuid before events after call path fetched, host.Executes → KeepsBuffers events →
      exec (ProvisionBinary.step env host m args uuid)
        (before, Call.begin env host m args) events = some (after, call) →
      call.stage = .resolved path fetched → Agrees env host m args after path := by
  refine ⟨fun onRead onAccess path h => ?_, fun uuid before events after call path fetched
    hexecutes hkeeps hrun hstage => ?_⟩
  · obtain ⟨entry, hentry, hpath, hintact, hexec⟩ := resolveProvisionedBinary_eq_ok_iff.mp h
    rw [isIntact] at hintact
    rw [isExecutable] at hexec
    split at hintact
    · next file hfile =>
        split at hexec
        · next file' hfile' =>
            exact ⟨entry, file, file', entryFor_eq_ok hentry, hpath, hfile,
              of_decide_eq_true hintact, hfile', hexec⟩
        · cases hexec
    · cases hintact
  · have hinv := invariant_of_run hkeeps hrun
    rw [hstage] at hinv
    obtain ⟨entry, hentry, rfl, hready⟩ := hinv
    exact agrees_of_ready hexecutes hentry hready

end Run

/-- A setting in which one byte string has the pinned digest. -/
def sampleSetting : Setting where
  numberText _ := ""
  jsonText _ := .ok ""
  sha256 bytes := if bytes = [0x7F] then "pinned" else "other"
  umask := 0o111

/-- A glibc machine. -/
def sampleHost : Host where
  platform := "linux"
  arch := "x64"
  header := .ok (some true)
  xdgCacheHome := ""
  homedir := "/root"
  join dir name := dir ++ "/" ++ name
  executable mode := mode = 0o755

/-- A manifest with one binary, of one byte. -/
def sampleManifest : BinaryManifest where
  release := "longfellow-bin-1"
  binaries := ⟨[("linux-x64", some ⟨"verifier", "pinned", .finite 1⟩)], fun _ => none⟩

/-- The binary is missing, and its host has it. -/
def sampleEvents : List Event :=
  [.proceeds, .proceeds, .proceeds,
    .fetch (.answer (.reply ⟨true, .finite 200, .finite 1, .ok [0x7F]⟩)),
    .fetch (.op .opened), .fetch (.op (.wrote 1)), .fetch (.op .closed), .fetch (.op .chmodded),
    .fetch (.op .renamed), .proceeds]

/-- A call that downloads its binary into an empty cache resolves, and `resolveProvisionedBinary`
agrees with it about the path. -/
theorem provisionBinary_agrees_sample :
    ∃ after call, exec (step sampleSetting sampleHost sampleManifest ⟨none, .undefined⟩ "one")
        (fun _ => none, Call.begin sampleSetting sampleHost sampleManifest ⟨none, .undefined⟩)
        sampleEvents = some (after, call) ∧
      Agrees sampleSetting sampleHost sampleManifest ⟨none, .undefined⟩ after
        "/root/.cache/zk8een/verifier-longfellow-bin-1" := by
  have hrun : exec (step sampleSetting sampleHost sampleManifest ⟨none, .undefined⟩ "one")
      (fun _ => none, Call.begin sampleSetting sampleHost sampleManifest ⟨none, .undefined⟩)
      sampleEvents = some (_, _) := rfl
  exact ⟨_, _, hrun, (provisionBinary_agrees sampleSetting sampleHost sampleManifest
    ⟨none, .undefined⟩).2 _ _ _ _ _ _ _ rfl (by decide) hrun rfl⟩

end ProvisionBinary

end EightEen
