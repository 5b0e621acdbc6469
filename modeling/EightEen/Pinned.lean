import EightEen.Files
import EightEen.Js.Value
import EightEen.Transition

/-!
# Pinned Bytes

This module models `src/pinned.js`. `fetchPinned` asks an untrusted host for bytes that the
package has pinned, goes through its checks in the order of the source (`vet`), and only then
writes: beside the target, under a random name, and onto the target by a rename. The checks
return the bytes together with the proof that they are the pinned ones (`PinnedBody`).

A run waits for its host and for every file operation. `Phase` is where it waits, and `Event`
what it is told. What it hashes and what it writes is one buffer, which is a view of the
`ArrayBuffer` that it was handed: code that has kept this `ArrayBuffer` can write to it in
between (`Event.overwritten`). The fetch of Node hands over a buffer of its own each time, and
`KeepsBuffers` says so of a run.

## Main results

* `vet_eq_ok_iff`: what passes the checks.
* `FetchPinned.Holds.step`, `FetchPinned.step_target`: one run of `fetchPinned`, operation by
  operation.
-/

open Js

namespace EightEen

/-- What a run finds around it: how numbers are shown, `JSON.stringify`, the digest of `sha256`,
in lowercase hexadecimal, and the umask of the process. -/
structure Setting where
  numberText : Number → String
  jsonText : Value → Completion String
  sha256 : List UInt8 → String
  umask : ℕ

/-- A mode, without the bits that the umask takes away. -/
def Setting.masked (env : Setting) (mode : ℕ) : ℕ :=
  mode ^^^ (mode &&& env.umask)

/-- `isIntact(path, expected)`. What cannot be read is not in the store. -/
def isIntact (env : Setting) (files : Files.Store) (path expected : String) : Bool :=
  match files path with
  | some file => env.sha256 file.bytes = expected
  | none => false

theorem isIntact_of_file {env : Setting} {files : Files.Store} {path expected : String}
    {file : Files.File} (h : files path = some file) (hsha : env.sha256 file.bytes = expected) :
    isIntact env files path expected = true := by
  rw [isIntact, h]
  exact decide_eq_true hsha

/-- Only the file at the path matters. -/
theorem isIntact_congr {env : Setting} {files files' : Files.Store} {path : String}
    (h : files' path = files path) (expected : String) :
    isIntact env files' path expected = isIntact env files path expected := by
  rw [isIntact, isIntact, h]

/-- The `spec` of `fetchPinned`; what is left out is `none`. -/
structure Spec where
  url : String
  label : String
  bytes : Number
  sha256 : String
  path : String
  origin : String
  timeoutMs : Option ℕ
  mode : Option ℕ

/-- What `fetchImpl` is called with: `url`, and the time after which the signal aborts. -/
structure Download where
  url : String
  timeoutMs : ℕ
  deriving DecidableEq

/-- The call of `fetchImpl`. -/
def Spec.download (spec : Spec) : Download :=
  ⟨spec.url, spec.timeoutMs.getD 60000⟩

/-- The answer of a host: `res.ok`, `res.status`, `Number(res.headers?.get?.('content-length'))`
and what `res.arrayBuffer()` comes to. The body is what that `ArrayBuffer` holds as it is handed
over; a later write of its sender to it is an event of its own, `Event.overwritten`. -/
structure Reply where
  ok : Bool
  status : Number
  advertised : Number
  body : Completion (List UInt8)

/-- What comes of the call of `fetchImpl`: it rejects with an error that has this message, it
settles with something that throws when it is looked at, or it is an answer. -/
inductive Fetched where
  | unreachable (message : String)
  | throws (e : Thrown)
  | reply (res : Reply)

/-- `Number.isFinite(advertised) && advertised > expectedBytes`. -/
def advertisesMore : Number → Number → Bool
  | .finite q, .finite b => b < q
  | .finite _, .negInf => true
  | _, _ => false

/-- The bytes that were hashed, whose length and digest are those of the spec, and what their
buffer holds. -/
structure PinnedBody (env : Setting) (spec : Spec) where
  bytes : List UInt8
  buffer : List UInt8
  length_eq : Number.finite bytes.length = spec.bytes
  sha256_eq : env.sha256 bytes = spec.sha256

/-- The checks of `fetchPinned`, in their order. -/
def vet (env : Setting) (spec : Spec) : Fetched → Completion (PinnedBody env spec)
  | .unreachable message =>
      .error (.error (spec.label ++ ": cannot reach " ++ spec.url ++ ": " ++ message))
  | .throws e => .error e
  | .reply res =>
      if res.ok = false then
        .error (.error (spec.label ++ ": " ++ spec.url ++ " returned HTTP " ++
          env.numberText res.status))
      else if advertisesMore res.advertised spec.bytes then
        .error (.error (spec.label ++ ": " ++ spec.url ++ " advertises " ++
          env.numberText res.advertised ++ " bytes, expected " ++ env.numberText spec.bytes ++
          ". Refusing to download it."))
      else do
        let body ← res.body
        if hlen : Number.finite body.length = spec.bytes then
          if hsha : env.sha256 body = spec.sha256 then .ok ⟨body, body, hlen, hsha⟩
          else
            .error (.error (spec.label ++ ": SHA256 MISMATCH.\n  expected " ++ spec.sha256 ++
              "\n  received " ++ env.sha256 body ++ "\nThese are not the bytes pinned " ++
              spec.origin ++ ". Refusing to install them."))
        else
          .error (.error (spec.label ++ ": expected " ++ env.numberText spec.bytes ++
            " bytes, got " ++ env.numberText (.finite body.length) ++ ". Refusing."))

/-- **What passes the checks**: an answer without an error status that does not announce too
much, and whose body has the pinned length and the pinned digest. Its buffer holds it then. -/
theorem vet_eq_ok_iff {env : Setting} {spec : Spec} {o : Fetched}
    {body : PinnedBody env spec} :
    vet env spec o = .ok body ↔ ∃ res, o = .reply res ∧ res.ok = true ∧
      advertisesMore res.advertised spec.bytes = false ∧ res.body = .ok body.bytes ∧
      body.buffer = body.bytes := by
  cases o with
  | unreachable message => simp [vet]
  | throws e => simp [vet]
  | reply res =>
      rw [vet]
      by_cases hok : res.ok = false
      · simp [hok]
      by_cases hmore : advertisesMore res.advertised spec.bytes = true
      · simp [hok, hmore]
      rw [if_neg hok, if_neg hmore, bind_eq_ok]
      constructor
      · rintro ⟨bytes, hbytes, h⟩
        split at h
        · next hlen =>
            split at h
            · next hsha =>
                obtain rfl := Except.ok.inj h
                exact ⟨res, rfl, by simpa using hok, by simpa using hmore, hbytes, rfl⟩
            · cases h
        · cases h
      · rintro ⟨res', hres, -, -, hbody, hbuffer⟩
        obtain rfl := Fetched.reply.inj hres
        obtain ⟨bytes, buffer, hlen, hsha⟩ := body
        obtain rfl : buffer = bytes := hbuffer
        refine ⟨buffer, hbody, ?_⟩
        rw [dif_pos hlen, dif_pos hsha]

/-- The path of the partial file: `${path}.part-${randomUUID()}`. -/
def partialPath (path uuid : String) : String :=
  path ++ ".part-" ++ uuid

theorem partialPath_ne (path uuid : String) : path ≠ partialPath path uuid := by
  intro h
  have hlen := congrArg String.length h
  rw [partialPath, String.length_append, String.length_append] at hlen
  have hmid : ".part-".length = 6 := by decide
  omega

theorem partialPath_injective {path uuid uuid' : String}
    (h : partialPath path uuid = partialPath path uuid') : uuid = uuid' := by
  have hchars := congrArg String.toList h
  simp only [partialPath, String.toList_append, List.append_right_inj] at hchars
  exact String.toList_injective hchars

namespace FetchPinned

/-- The installation of bytes that have passed: what is written is what the buffer holds. -/
def job (env : Setting) (spec : Spec) (uuid : String) (body : PinnedBody env spec) :
    Files.Job where
  body := body.buffer
  target := spec.path
  beside := partialPath spec.path uuid
  created := env.masked (spec.mode.getD 0o666)
  mode := spec.mode
  beside_ne := partialPath_ne spec.path uuid

/-- Where a run waits. It ends when a check refuses the answer, when the installation ends, or
when its process does. -/
inductive Phase (env : Setting) (spec : Spec) where
  | fetching
  | refused (e : Thrown)
  | installing (body : PinnedBody env spec) (stage : Files.Stage Thrown)
  | crashed

/-- What a run is told: the answer of the host, or the outcome of a file operation; and what it
is not told: that code elsewhere has written to the buffer it was handed. -/
inductive Event where
  | answer (o : Fetched)
  | op (o : Files.Op Thrown)
  | overwritten (bytes : List UInt8)

/-- The event is a write to the buffer. -/
def Event.overwrites : Event → Bool
  | .overwritten _ => true
  | _ => false

/-- One step of a run of `fetchPinned`, with its random suffix. -/
def step (env : Setting) (spec : Spec) (uuid : String) :
    Files.Store × Phase env spec → Event → Option (Files.Store × Phase env spec)
  | (files, .fetching), .answer o =>
      match vet env spec o with
      | .ok body => some (files, .installing body .opening)
      | .error e => some (files, .refused e)
  | (files, .fetching), .op .crash => some (files, .crashed)
  | (files, .installing body stage), .op o =>
      (Files.step (job env spec uuid body) (files, stage) o).map fun next =>
        (next.1, .installing body next.2)
  | (files, .installing body stage), .overwritten bytes =>
      -- A write to the buffer leaves its length as it is.
      if bytes.length = body.buffer.length ∧ stage.underway then
        some (files, .installing { body with buffer := bytes } stage)
      else none
  | _, _ => none

/-- The buffer holds what was hashed, and the partial file what the phase of its run says. -/
def Holds {env : Setting} {spec : Spec} (uuid : String) (files : Files.Store) :
    Phase env spec → Prop
  | .installing body stage =>
      body.buffer = body.bytes ∧ Files.Holds (job env spec uuid body) files stage
  | _ => True

/-- The run is over: it has settled, or its process is gone. -/
def Phase.over {env : Setting} {spec : Spec} : Phase env spec → Bool
  | .fetching => false
  | .installing _ stage => stage.over
  | .refused _ | .crashed => true

/-! ### One step of a run -/

/-- What each step does. -/
inductive Moves {env : Setting} {spec : Spec} (uuid : String) (files : Files.Store) :
    Phase env spec → Event → Files.Store → Phase env spec → Prop
  | passes {o : Fetched} {body : PinnedBody env spec} (passed : vet env spec o = .ok body) :
      Moves uuid files .fetching (.answer o) files (.installing body .opening)
  | refuses {o : Fetched} {e : Thrown} (refused : vet env spec o = .error e) :
      Moves uuid files .fetching (.answer o) files (.refused e)
  | crash : Moves uuid files .fetching (.op .crash) files .crashed
  | installs {body : PinnedBody env spec} {stage stage' : Files.Stage Thrown}
      {o : Files.Op Thrown} {files' : Files.Store}
      (moves : Files.step (job env spec uuid body) (files, stage) o = some (files', stage')) :
      Moves uuid files (.installing body stage) (.op o) files' (.installing body stage')
  | overwritten {body : PinnedBody env spec} {stage : Files.Stage Thrown} {bytes : List UInt8}
      (underway : stage.underway = true) :
      Moves uuid files (.installing body stage) (.overwritten bytes) files
        (.installing { body with buffer := bytes } stage)

section Step

variable {env : Setting} {spec : Spec} {uuid : String} {files files' : Files.Store}
  {phase phase' : Phase env spec} {e : Event}

/-- **One step, by its event.** -/
theorem moves_of_step (h : step env spec uuid (files, phase) e = some (files', phase')) :
    Moves uuid files phase e files' phase' := by
  unfold step at h
  split at h
  · next heq =>
      cases heq
      split at h
      · next hvet => cases h; exact .passes hvet
      · next hvet => cases h; exact .refuses hvet
  · next heq => cases heq; cases h; exact .crash
  · next heq =>
      cases heq
      obtain ⟨⟨files₁, stage₁⟩, hstep, hnext⟩ := Option.map_eq_some_iff.mp h
      cases hnext
      exact .installs hstep
  · next heq =>
      cases heq
      split at h
      · next hunder => cases h; exact .overwritten hunder.2
      · cases h
  · cases h

/-- What is installed has the pinned digest, if its buffer holds what was hashed. -/
theorem sha256_job {body : PinnedBody env spec} (h : body.buffer = body.bytes) (uuid : String) :
    env.sha256 (job env spec uuid body).file.bytes = spec.sha256 := by
  change env.sha256 body.buffer = spec.sha256
  rw [h, body.sha256_eq]

/-- A run touches its target and its partial file. -/
theorem step_frame (h : step env spec uuid (files, phase) e = some (files', phase'))
    {path : String} (htarget : path ≠ spec.path) (hbeside : path ≠ partialPath spec.path uuid) :
    files' path = files path := by
  cases moves_of_step h with
  | passes | refuses | crash | overwritten => rfl
  | installs moves => exact Files.step_frame moves htarget hbeside

/-- Only the partial file matters. -/
theorem Holds.of_agree (h : Holds uuid files phase)
    (hagree : files' (partialPath spec.path uuid) = files (partialPath spec.path uuid)) :
    Holds uuid files' phase := by
  cases phase with
  | installing body stage => exact ⟨h.1, Files.Holds.of_agree h.2 hagree⟩
  | fetching | refused | crashed => trivial

/-- **The partial file is what the phase says**, while nobody writes to the buffer. -/
theorem Holds.step (hholds : Holds uuid files phase) (hkeeps : e.overwrites = false)
    (h : FetchPinned.step env spec uuid (files, phase) e = some (files', phase')) :
    Holds uuid files' phase' := by
  cases moves_of_step h with
  | installs moves => exact ⟨hholds.1, Files.Holds.step hholds.2 moves⟩
  | passes passed =>
      obtain ⟨res, -, -, -, -, hbuffer⟩ := vet_eq_ok_iff.mp passed
      exact ⟨hbuffer, trivial⟩
  | refuses | crash => trivial
  | overwritten => cases hkeeps

/-- **The target changes in one step**, to the pinned bytes, and the run resolves. -/
theorem step_target (hholds : Holds uuid files phase)
    (h : step env spec uuid (files, phase) e = some (files', phase')) :
    files' spec.path = files spec.path ∨ ∃ body : PinnedBody env spec,
      body.buffer = body.bytes ∧ files' spec.path = some (job env spec uuid body).file ∧
        phase' = .installing body .installed := by
  cases moves_of_step h with
  | passes | refuses | crash | overwritten => exact Or.inl rfl
  | @installs body stage stage' o files' moves =>
      rcases Files.step_target hholds.2 moves with hsame | ⟨hfile, hstage⟩
      · exact Or.inl hsame
      · exact Or.inr ⟨body, hholds.1, hfile, congrArg _ hstage⟩

/-- **What a step leaves at a path** that is not its partial file: what was there, or, at the
target, the pinned bytes. -/
theorem step_path (hholds : Holds uuid files phase)
    (h : step env spec uuid (files, phase) e = some (files', phase')) {path : String}
    (hbeside : path ≠ partialPath spec.path uuid) :
    files' path = files path ∨ path = spec.path ∧ ∃ body : PinnedBody env spec,
      body.buffer = body.bytes ∧ files' path = some (job env spec uuid body).file := by
  by_cases htarget : path = spec.path
  · subst htarget
    rcases step_target hholds h with hsame | ⟨body, hbuffer, hfile, -⟩
    · exact Or.inl hsame
    · exact Or.inr ⟨rfl, body, hbuffer, hfile⟩
  · exact Or.inl (step_frame h htarget hbeside)

/-- A run resolves by its rename, which has put the pinned bytes there. -/
theorem step_installed {body : PinnedBody env spec} (hholds : Holds uuid files phase)
    (h : step env spec uuid (files, phase) e = some (files', .installing body .installed)) :
    e = .op .renamed ∧ body.buffer = body.bytes ∧
      files' spec.path = some (job env spec uuid body).file := by
  generalize hend : Phase.installing body .installed = phase' at h
  cases moves_of_step h with
  | passes | refuses | crash => cases hend
  | installs moves =>
      cases hend
      obtain ⟨rfl, hfile⟩ := Files.step_installed hholds.2 moves
      exact ⟨rfl, hholds.1, hfile⟩
  | overwritten underway =>
      cases hend
      cases underway

/-- A run writes only when its answer has passed. -/
theorem step_unwritten (h : step env spec uuid (files, phase) e = some (files', phase'))
    (hphase : (∀ body stage, phase ≠ .installing body stage) ∨
      ∀ body stage, phase' ≠ .installing body stage) : files' = files := by
  cases moves_of_step h with
  | passes | refuses | crash | overwritten => rfl
  | installs moves =>
      rcases hphase with hbefore | hafter
      · exact absurd rfl (hbefore _ _)
      · exact absurd rfl (hafter _ _)

/-- A run does not come back to where it asks its host, and is refused nowhere else. -/
theorem step_asks (h : step env spec uuid (files, phase) e = some (files', phase'))
    (hphase : phase' = .fetching ∨ ∃ e, phase' = .refused e) : phase = .fetching := by
  cases moves_of_step h with
  | passes | refuses | crash => rfl
  | installs | overwritten =>
      rcases hphase with hend | ⟨e, hend⟩
      · cases hend
      · cases hend

/-- Nothing happens to a run that is over. -/
theorem step_of_over (h : phase.over = true) : step env spec uuid (files, phase) e = none := by
  cases hstep : step env spec uuid (files, phase) e with
  | none => rfl
  | some next =>
      obtain ⟨files', phase'⟩ := next
      exfalso
      cases moves_of_step hstep with
      | installs moves =>
          rw [Files.step_of_over h] at moves
          cases moves
      | @overwritten body stage bytes underway => cases stage <;> cases h <;> cases underway
      | passes | refuses | crash => cases h

end Step

end FetchPinned

end EightEen
