import EightEen.Js.Text
import EightEen.Pinned

/-!
# Provisioning Circuits

This module models `provision` of `src/circuits.js`: a loop over the manifest that leaves an
intact circuit alone and fetches every other one. The call waits for the file system and for its
host, and hands over to code of the caller at each `onProgress` and at the call of `fetchImpl`;
`Stage` is where it waits, and the manifest is read between two such points only, through the
`View` that is current there. Over a manifest that does not change the view is always the same
(`Manifest.view`).

## Main results

* `Provision.moves_of_step`: what each step of a call does.
-/

open Js Transition

namespace EightEen

namespace Provision

/-- `CIRCUIT_ID.test(id)`. -/
def isCircuitId (id : String) : Bool :=
  id.toList.length = 64 && id.toList.all isLowerHex

/-- The error about a circuit id. -/
def malformed (env : Setting) (id : Value) : Completion String := do
  let shown ← env.jsonText id
  .error (.error ("manifest contains a malformed circuit id: " ++ shown))

/-- `assertCircuitId(id)`, with the id that has passed. -/
def assertCircuitId (env : Setting) : Value → Completion String
  | .string s => if isCircuitId s then .ok s else malformed env (.string s)
  | id => malformed env id

theorem malformed_ne_ok (env : Setting) (id : Value) (s : String) :
    malformed env id ≠ .ok s := by
  intro h
  obtain ⟨shown, -, h⟩ := bind_eq_ok.mp h
  cases h

/-- What passes is the id itself, and well formed. -/
theorem assertCircuitId_eq_ok_iff {env : Setting} {id : Value} {s : String} :
    assertCircuitId env id = .ok s ↔ id = .string s ∧ isCircuitId s = true := by
  constructor
  · intro h
    cases id with
    | string t =>
        rw [assertCircuitId] at h
        split at h
        · next hid => cases h; exact ⟨rfl, hid⟩
        · exact absurd h (malformed_ne_ok env _ s)
    | _ => exact absurd h (malformed_ne_ok env _ s)
  · rintro ⟨rfl, hid⟩
    exact if_pos hid

/-- A directory, by what `join(dir, name)` puts in front of the name of a file in it. -/
structure Dir where
  base : String

/-- `join(dir, name)`, for a plain name. -/
def Dir.join (dir : Dir) (name : String) : String :=
  dir.base ++ name

theorem join_injective {dir : Dir} {name name' : String} (h : dir.join name = dir.join name') :
    name = name' := by
  have hchars := congrArg String.toList h
  simp only [Dir.join, String.toList_append, List.append_right_inj] at hchars
  exact String.toList_injective hchars

/-- The texts that `fetchCircuit` makes of a circuit: `url`, `label` and `origin`. -/
structure Source where
  url : String
  label : String
  origin : String

/-- What the manifest reads as at some moment: the next element of the iteration over
`manifest.circuits.entries()`, and the fields of an element. -/
structure View (Ref : Type) where
  next : ℕ → Completion (Option Ref)
  id : Ref → Value
  bytes : Ref → Value
  sha256 : Ref → Value
  source : Ref → Completion Source

/-- Where a call waits: for `mkdir`, at the head of the loop, for `isIntact`, for `onProgress` to
return (`present`, `fetching`, `fetched`), and for `fetchPinned`. A pin that is not a number and a
string is met by no bytes at all (`refusing`). A call that rejects tells whether the circuit at
hand had been fetched. -/
inductive Stage (env : Setting) (Ref : Type) where
  | mkdir
  | head
  | reading (circuit : Ref) (path : String) (expected : Value)
  | present
  | fetching (circuit : Ref) (path : String)
  | installing (spec : Spec) (phase : FetchPinned.Phase env spec)
  | refusing
  | fetched
  | resolved
  | rejected (e : Thrown) (installed : Bool)

/-- A call: its stage, the index of the circuit at hand, its counters, and the requests it has
made. -/
structure Call (env : Setting) (Ref : Type) where
  stage : Stage env Ref
  index : ℕ
  present : ℕ
  fetched : ℕ
  asked : List Download

/-- What a call is told: that what it waits for has succeeded or failed, that `onProgress` has
thrown, or what happened to its `fetchPinned`. -/
inductive Event where
  | proceeds
  | fails (e : Thrown)
  | throws (e : Thrown)
  | fetch (e : FetchPinned.Event)

/-- The event is a write to the buffer that the call was handed. -/
def Event.overwrites : Event → Bool
  | .fetch e => e.overwrites
  | _ => false

/-- **The assumption about `fetchImpl`**: an `ArrayBuffer` that it hands over belongs to the call,
and no code writes to it afterwards. So it is documented of `fetch`. -/
def KeepsBuffers (events : List Event) : Prop :=
  ∀ e ∈ events, e.overwrites = false

instance (events : List Event) : Decidable (KeepsBuffers events) :=
  inferInstanceAs (Decidable (∀ e ∈ events, e.overwrites = false))

section Step

variable {Ref : Type} (env : Setting) (view : View Ref) (dir : Dir)

/-- A call that begins. -/
def Call.begin : Call env Ref :=
  ⟨.mkdir, 0, 0, 0, []⟩

/-- The head of the loop, down to `isIntact`. -/
def Call.enter (call : Call env Ref) : Stage env Ref :=
  match view.next call.index with
  | .error e => .rejected e false
  | .ok none => .resolved
  | .ok (some circuit) =>
      match assertCircuitId env (view.id circuit) with
      | .error e => .rejected e false
      | .ok id => .reading circuit (dir.join id) (view.sha256 circuit)

/-- `await isIntact(path, circuit.sha256)`. -/
def Call.examine (files : Files.Store) (call : Call env Ref) (circuit : Ref) (path : String) :
    Value → Call env Ref
  | .string expected =>
      if isIntact env files path expected then
        { call with stage := .present, present := call.present + 1 }
      else { call with stage := .fetching circuit path }
  | _ => { call with stage := .fetching circuit path }

/-- `fetchCircuit(circuit, path, fetchImpl)`, up to the call of `fetchImpl`. -/
def Call.ask (call : Call env Ref) (circuit : Ref) (path : String) : Call env Ref :=
  match view.source circuit with
  | .error e => { call with stage := .rejected e false }
  | .ok source =>
      match view.bytes circuit, view.sha256 circuit with
      | .number bytes, .string sha256 =>
          let spec : Spec :=
            { url := source.url, label := source.label, bytes, sha256, path,
              origin := source.origin, timeoutMs := none, mode := none }
          { call with stage := .installing spec .fetching, asked := call.asked ++ [spec.download] }
      | _, _ => { call with stage := .refusing, asked := call.asked ++ [⟨source.url, 60000⟩] }

/-- Behind a step of `fetchPinned`: the call goes on when it has resolved, and rejects when it
has rejected. -/
def Call.settle (call : Call env Ref) {spec : Spec} : FetchPinned.Phase env spec → Call env Ref
  | .installing _ .installed => { call with stage := .fetched, fetched := call.fetched + 1 }
  | .installing _ (.failed e _) => { call with stage := .rejected e false }
  | .refused e => { call with stage := .rejected e false }
  | phase => { call with stage := .installing spec phase }

/-- One step of a call of `provision(dir, opts)`, with the random suffix of each circuit. -/
def step (uuid : ℕ → String) (state : Files.Store × Call env Ref) :
    Event → Option (Files.Store × Call env Ref)
  | .proceeds =>
      match state.2.stage with
      | .mkdir => some (state.1, { state.2 with stage := .head })
      | .head => some (state.1, { state.2 with stage := state.2.enter env view dir })
      | .reading circuit path expected =>
          some (state.1, state.2.examine env state.1 circuit path expected)
      | .fetching circuit path => some (state.1, state.2.ask env view circuit path)
      | .present | .fetched =>
          some (state.1, { state.2 with stage := .head, index := state.2.index + 1 })
      | _ => none
  | .fails e =>
      match state.2.stage with
      | .mkdir | .refusing => some (state.1, { state.2 with stage := .rejected e false })
      | _ => none
  | .throws e =>
      match state.2.stage with
      | .present | .fetching _ _ => some (state.1, { state.2 with stage := .rejected e false })
      | .fetched => some (state.1, { state.2 with stage := .rejected e true })
      | _ => none
  | .fetch e =>
      match state.2.stage with
      | .installing spec phase =>
          (FetchPinned.step env spec (uuid state.2.index) (state.1, phase) e).map fun next =>
            (next.1, state.2.settle env next.2)
      | _ => none

end Step

/-- What each step does, by the stage it is taken in. -/
inductive Moves {Ref : Type} (env : Setting) (view : View Ref) (dir : Dir)
    (uuid : ℕ → String) (files : Files.Store) (call : Call env Ref) :
    Event → Files.Store → Call env Ref → Prop
  | made (h : call.stage = .mkdir) :
      Moves env view dir uuid files call .proceeds files { call with stage := .head }
  | entered (h : call.stage = .head) :
      Moves env view dir uuid files call .proceeds files
        { call with stage := call.enter env view dir }
  | examined {circuit : Ref} {path : String} {expected : Value}
      (h : call.stage = .reading circuit path expected) :
      Moves env view dir uuid files call .proceeds files
        (call.examine env files circuit path expected)
  | asked {circuit : Ref} {path : String} (h : call.stage = .fetching circuit path) :
      Moves env view dir uuid files call .proceeds files (call.ask env view circuit path)
  | continued (h : call.stage = .present ∨ call.stage = .fetched) :
      Moves env view dir uuid files call .proceeds files
        { call with stage := .head, index := call.index + 1 }
  | failed {e : Thrown} (h : call.stage = .mkdir ∨ call.stage = .refusing) :
      Moves env view dir uuid files call (.fails e) files
        { call with stage := .rejected e false }
  | thrown {e : Thrown}
      (h : call.stage = .present ∨ ∃ circuit path, call.stage = .fetching circuit path) :
      Moves env view dir uuid files call (.throws e) files
        { call with stage := .rejected e false }
  | thrownAfter {e : Thrown} (h : call.stage = .fetched) :
      Moves env view dir uuid files call (.throws e) files
        { call with stage := .rejected e true }
  | fetched {spec : Spec} {phase phase' : FetchPinned.Phase env spec} {e : FetchPinned.Event}
      {files' : Files.Store} (h : call.stage = .installing spec phase)
      (hstep : FetchPinned.step env spec (uuid call.index) (files, phase) e =
        some (files', phase')) :
      Moves env view dir uuid files call (.fetch e) files' (call.settle env phase')

/-- **One step, by its event.** -/
theorem moves_of_step {Ref : Type} {env : Setting} {view : View Ref} {dir : Dir}
    {uuid : ℕ → String} {files files' : Files.Store} {call call' : Call env Ref} {e : Event}
    (h : step env view dir uuid (files, call) e = some (files', call')) :
    Moves env view dir uuid files call e files' call' := by
  cases e with
  | proceeds =>
      rw [step] at h
      split at h
      · next hstage => cases h; exact .made hstage
      · next hstage => cases h; exact .entered hstage
      · next hstage => cases h; exact .examined hstage
      · next hstage => cases h; exact .asked hstage
      · next hstage => cases h; exact .continued (Or.inl hstage)
      · next hstage => cases h; exact .continued (Or.inr hstage)
      · cases h
  | fails e =>
      rw [step] at h
      split at h
      · next hstage => cases h; exact .failed (Or.inl hstage)
      · next hstage => cases h; exact .failed (Or.inr hstage)
      · cases h
  | throws e =>
      rw [step] at h
      split at h
      · next hstage => cases h; exact .thrown (Or.inl hstage)
      · next hstage => cases h; exact .thrown (Or.inr ⟨_, _, hstage⟩)
      · next hstage => cases h; exact .thrownAfter hstage
      · cases h
  | fetch e =>
      rw [step] at h
      split at h
      · next hstage =>
          obtain ⟨⟨files₁, phase₁⟩, hstep, hnext⟩ := Option.map_eq_some_iff.mp h
          cases hnext
          exact .fetched hstage hstep
      · cases h

section Ends

variable {Ref : Type} {env : Setting} {view : View Ref} {dir : Dir}

/-- What the head of the loop leads to. -/
theorem enter_cases (view : View Ref) (dir : Dir) (call : Call env Ref) :
    (∃ e, call.enter env view dir = .rejected e false) ∨
      (view.next call.index = .ok none ∧ call.enter env view dir = .resolved) ∨
      ∃ circuit id, view.next call.index = .ok (some circuit) ∧
        view.id circuit = .string id ∧ isCircuitId id = true ∧
        call.enter env view dir = .reading circuit (dir.join id) (view.sha256 circuit) := by
  rw [Call.enter]
  split
  · exact Or.inl ⟨_, rfl⟩
  · next hnext => exact Or.inr (Or.inl ⟨hnext, rfl⟩)
  · next circuit hnext =>
      split
      · exact Or.inl ⟨_, rfl⟩
      · next id hassert =>
          obtain ⟨hid, hwell⟩ := assertCircuitId_eq_ok_iff.mp hassert
          exact Or.inr (Or.inr ⟨circuit, id, hnext, hid, hwell, rfl⟩)

/-- A call rejects behind a fetch that was made only when `onProgress` throws there. -/
theorem thrown_of_step {uuid : ℕ → String} {files files' : Files.Store} {call call' : Call env Ref}
    {e : Event} {reason : Thrown} (h : step env view dir uuid (files, call) e =
      some (files', call')) (hend : call'.stage = .rejected reason true) :
    e = .throws reason := by
  cases moves_of_step h with
  | made | failed | thrown | continued => cases hend
  | entered =>
      rcases enter_cases view dir call with ⟨e, he⟩ | ⟨-, he⟩ | ⟨c, id, -, -, -, he⟩
      · rw [he] at hend; cases hend
      · rw [he] at hend; cases hend
      · rw [he] at hend; cases hend
  | examined =>
      rw [Call.examine.eq_def] at hend
      split at hend
      · split at hend <;> cases hend
      · cases hend
  | asked =>
      rw [Call.ask] at hend
      split at hend
      · cases hend
      · split at hend <;> cases hend
  | thrownAfter => cases hend; rfl
  | fetched =>
      rw [Call.settle.eq_def] at hend
      split at hend <;> cases hend

end Ends

end Provision

end EightEen
