import EightEen.Provision
import Mathlib.Data.List.Nodup

/-!
# What Provisioning Leaves

`provision` over a manifest that does not change, with distinct and well-formed ids: the files
that a call leaves behind, whatever was in the directory before and whatever its host answers.
The invariant says for each place of the loop which circuits are done (`Progress`), and what has
been counted and asked for (`Tally`).

## Main results

* `Invariant.step`: every step of a call keeps the invariant.
* `provision_converges`: a call that resolves has made every circuit intact and touched no other
  file, a repeated call finds nothing to do, and a call that rejects has handled the circuits
  before the one at hand.
-/

open Js Transition

namespace EightEen

/-- An entry of the manifest. -/
structure Circuit where
  id : String
  bytes : Number
  sha256 : String
  deriving DecidableEq

/-- The manifest, as `provision` reads it. -/
structure Manifest where
  commit : String
  path : String
  circuits : List Circuit

namespace Manifest

/-- `sourceUrl(id)`. -/
def sourceUrl (m : Manifest) (id : String) : String :=
  "https://raw.githubusercontent.com/google/longfellow-zk/" ++ m.commit ++ "/" ++ m.path ++ "/" ++
    id

/-- The texts of `fetchCircuit`. -/
def source (m : Manifest) (circuit : Circuit) : Provision.Source where
  url := m.sourceUrl circuit.id
  label := "circuit " ++ String.ofList (circuit.id.toList.take 12)
  origin := "at upstream " ++ String.ofList (m.commit.toList.take 8)

/-- What the manifest reads as. -/
def view (m : Manifest) : Provision.View Circuit where
  next i := .ok m.circuits[i]?
  id circuit := .string circuit.id
  bytes circuit := .number circuit.bytes
  sha256 circuit := .string circuit.sha256
  source circuit := .ok (m.source circuit)

/-- The call of `fetchPinned` for a circuit. -/
def spec (m : Manifest) (dir : Provision.Dir) (circuit : Circuit) : Spec where
  url := m.sourceUrl circuit.id
  label := (m.source circuit).label
  bytes := circuit.bytes
  sha256 := circuit.sha256
  path := dir.join circuit.id
  origin := (m.source circuit).origin
  timeoutMs := none
  mode := none

/-- The ids are well formed, and no two circuits share one. -/
structure WellFormed (m : Manifest) : Prop where
  distinct : (m.circuits.map Circuit.id).Nodup
  ids : ∀ circuit ∈ m.circuits, Provision.isCircuitId circuit.id = true

end Manifest

namespace Provision

variable {env : Setting} {m : Manifest} {dir : Dir}

/-- The circuit is not intact in these files. -/
def missing (env : Setting) (dir : Dir) (files : Files.Store) (circuit : Circuit) : Bool :=
  !isIntact env files (dir.join circuit.id) circuit.sha256

/-- Only the file at the path of the circuit says whether it is missing. -/
theorem missing_congr {files files' : Files.Store} {circuit : Circuit}
    (h : files' (dir.join circuit.id) = files (dir.join circuit.id)) :
    missing env dir files' circuit = missing env dir files circuit := by
  rw [missing, missing, isIntact_congr h]

/-- The id of a circuit has 64 characters. -/
theorem length_of_isCircuitId {id : String} (h : isCircuitId id = true) : id.length = 64 := by
  rw [isCircuitId, Bool.and_eq_true, decide_eq_true_eq] at h
  exact h.1

/-- A partial file is beside the circuits, not one of them. -/
theorem join_ne_partialPath {id id' : String} (hid : isCircuitId id = true)
    (hid' : isCircuitId id' = true) (uuid : String) :
    dir.join id ≠ partialPath (dir.join id') uuid := by
  intro h
  have hlen := congrArg String.length h
  simp only [Dir.join, partialPath, String.length_append, length_of_isCircuitId hid,
    length_of_isCircuitId hid'] at hlen
  have hmid : ".part-".length = 6 := by decide
  omega

/-! ### Circuits that are done -/

/-- The circuits before `n` are intact. Of the files, those of the circuits among them that were
missing have changed, and no others but the spare one. -/
structure Progress (env : Setting) (m : Manifest) (dir : Dir) (files : Files.Store)
    (spare : Option String) (n : ℕ) (now : Files.Store) : Prop where
  intact : ∀ circuit ∈ m.circuits.take n, missing env dir now circuit = false
  frame : ∀ path, some path ≠ spare →
    (∀ circuit ∈ m.circuits.take n, missing env dir files circuit = true →
      path ≠ dir.join circuit.id) → now path = files path

/-- What has been counted of the circuits before `n`, and asked for of those before `k`. -/
structure Tally (env : Setting) (m : Manifest) (dir : Dir) (files : Files.Store) (n k : ℕ)
    (call : Call env Circuit) : Prop where
  present : call.present = (m.circuits.take n).countP fun circuit => !missing env dir files circuit
  fetched : call.fetched = (m.circuits.take n).countP (missing env dir files)
  asked : call.asked = ((m.circuits.take k).filter (missing env dir files)).map
    fun circuit => (m.spec dir circuit).download

/-- The circuits up to and including the `n`th are those before it, and it. -/
theorem take_succ_of_getElem? {n : ℕ} {circuit : Circuit} (h : m.circuits[n]? = some circuit) :
    m.circuits.take (n + 1) = m.circuits.take n ++ [circuit] := by
  rw [List.take_add_one, h, Option.toList_some]

/-- The path of a circuit is not that of one before it. -/
theorem join_ne_of_mem_take (hm : m.WellFormed) {n : ℕ} {circuit other : Circuit}
    (h : m.circuits[n]? = some circuit) (hother : other ∈ m.circuits.take n) :
    dir.join circuit.id ≠ dir.join other.id := by
  intro heq
  have hids := hm.distinct.sublist ((List.take_sublist (n + 1) m.circuits).map Circuit.id)
  rw [take_succ_of_getElem? h, List.map_append, List.nodup_append] at hids
  exact hids.2.2 other.id (List.mem_map_of_mem hother) circuit.id (by simp)
    (join_injective heq).symm

/-- A circuit that is still ahead is as it was. -/
theorem Progress.ahead (hm : m.WellFormed) {files now : Files.Store} {n : ℕ} {circuit : Circuit}
    {spare : Option String} (h : Progress env m dir files spare n now)
    (hcircuit : m.circuits[n]? = some circuit) (hspare : some (dir.join circuit.id) ≠ spare) :
    now (dir.join circuit.id) = files (dir.join circuit.id) :=
  h.frame _ hspare fun _ hother _ => join_ne_of_mem_take hm hcircuit hother

/-- Progress over a number of circuits is progress over any number that takes the same ones. -/
theorem Progress.of_take {files now : Files.Store} {n k : ℕ} {spare : Option String}
    (h : Progress env m dir files spare n now) (heq : m.circuits.take n = m.circuits.take k) :
    Progress env m dir files spare k now :=
  ⟨heq ▸ h.intact, heq ▸ h.frame⟩

/-- What happens away from the circuits does not matter. -/
theorem Progress.of_agree {files now now' : Files.Store} {n : ℕ}
    {spare : Option String} (h : Progress env m dir files spare n now)
    (hspare : ∀ circuit ∈ m.circuits, some (dir.join circuit.id) ≠ spare)
    (hagree : ∀ path, some path ≠ spare → now' path = now path) :
    Progress env m dir files spare n now' where
  intact circuit hcircuit := by
    rw [missing_congr (hagree _ (hspare circuit (List.mem_of_mem_take hcircuit)))]
    exact h.intact circuit hcircuit
  frame path hpath hmissing := (hagree path hpath).trans (h.frame path hpath hmissing)

/-- A circuit that is found intact was intact. -/
theorem Progress.found (hm : m.WellFormed) {files now : Files.Store} {n : ℕ} {circuit : Circuit}
    (h : Progress env m dir files none n now) (hcircuit : m.circuits[n]? = some circuit) :
    missing env dir now circuit = missing env dir files circuit :=
  missing_congr (h.ahead hm hcircuit (by simp))

/-- **A circuit that is found intact** is done: the progress goes on to the next one, and no file
has changed. -/
theorem Progress.succ_of_intact (hm : m.WellFormed) {files now : Files.Store} {n : ℕ}
    {circuit : Circuit} (h : Progress env m dir files none n now)
    (hcircuit : m.circuits[n]? = some circuit) (hintact : missing env dir files circuit = false) :
    Progress env m dir files none (n + 1) now where
  intact other hother := by
    rw [take_succ_of_getElem? hcircuit, List.mem_append, List.mem_singleton] at hother
    rcases hother with hother | rfl
    · exact h.intact other hother
    · rw [h.found hm hcircuit]
      exact hintact
  frame path hpath hmissing := h.frame path hpath fun other hother =>
    hmissing other (by
      rw [take_succ_of_getElem? hcircuit]
      exact List.mem_append_left _ hother)

/-- **A circuit that was missing has been put in its place**, and its partial file is gone. -/
theorem Progress.succ_of_installed (hm : m.WellFormed) {files now now' : Files.Store} {n : ℕ}
    {circuit : Circuit} {spare : String} (h : Progress env m dir files (some spare) n now)
    (hcircuit : m.circuits[n]? = some circuit) (hmissing : missing env dir files circuit = true)
    (hspare : ∀ other ∈ m.circuits, dir.join other.id ≠ spare)
    (hinstalled : missing env dir now' circuit = false) (hgone : now' spare = files spare)
    (hagree : ∀ path, path ≠ spare → path ≠ dir.join circuit.id → now' path = now path) :
    Progress env m dir files none (n + 1) now' where
  intact other hother := by
    rw [take_succ_of_getElem? hcircuit, List.mem_append, List.mem_singleton] at hother
    rcases hother with hother | rfl
    · rw [missing_congr (hagree _ (hspare other (List.mem_of_mem_take hother))
        (join_ne_of_mem_take hm hcircuit hother).symm)]
      exact h.intact other hother
    · exact hinstalled
  frame path _ hpath := by
    have htake := take_succ_of_getElem? hcircuit
    have hself : path ≠ dir.join circuit.id :=
      hpath circuit (htake ▸ List.mem_append_right _ (List.mem_singleton_self _)) hmissing
    by_cases hspared : path = spare
    · rw [hspared, hgone]
    · rw [hagree path hspared hself]
      exact h.frame path (by simpa using hspared) fun other hother =>
        hpath other (htake ▸ List.mem_append_left _ hother)

/-- Only the counters and the requests matter. -/
theorem Tally.of_eq {files : Files.Store} {n k : ℕ} {call call' : Call env Circuit}
    (h : Tally env m dir files n k call) (hpresent : call'.present = call.present)
    (hfetched : call'.fetched = call.fetched) (hasked : call'.asked = call.asked) :
    Tally env m dir files n k call' :=
  ⟨hpresent.trans h.present, hfetched.trans h.fetched, hasked.trans h.asked⟩

/-- The counters depend on the circuits that have been taken, and not on their number. -/
theorem Tally.of_take {files : Files.Store} {n k : ℕ} {call call' : Call env Circuit}
    (h : Tally env m dir files n n call) (heq : m.circuits.take n = m.circuits.take k)
    (hpresent : call'.present = call.present) (hfetched : call'.fetched = call.fetched)
    (hasked : call'.asked = call.asked) : Tally env m dir files k k call' :=
  Tally.of_eq ⟨heq ▸ h.present, heq ▸ h.fetched, heq ▸ h.asked⟩ hpresent hfetched hasked

/-- A circuit that is found intact is counted as present, and nothing is asked for. -/
theorem Tally.succ_of_intact {files : Files.Store} {n : ℕ} {circuit : Circuit}
    {call : Call env Circuit} (h : Tally env m dir files n n call)
    (hcircuit : m.circuits[n]? = some circuit) (hintact : missing env dir files circuit = false)
    (stage : Stage env Circuit) :
    Tally env m dir files (n + 1) (n + 1)
      { call with stage, present := call.present + 1 } where
  present := by
    rw [take_succ_of_getElem? hcircuit, List.countP_append, List.countP_singleton, hintact]
    exact congrArg (· + 1) h.present
  fetched := by
    rw [take_succ_of_getElem? hcircuit, List.countP_append, List.countP_singleton, hintact]
    exact h.fetched
  asked := by
    rw [take_succ_of_getElem? hcircuit, List.filter_append, List.filter_singleton, hintact,
      cond_false, List.append_nil]
    exact h.asked

/-- A circuit that is missing is asked for, and its download is put down once. -/
theorem Tally.asks {files : Files.Store} {n : ℕ} {circuit : Circuit} {call : Call env Circuit}
    (h : Tally env m dir files n n call) (hcircuit : m.circuits[n]? = some circuit)
    (hmissing : missing env dir files circuit = true) (stage : Stage env Circuit) :
    Tally env m dir files n (n + 1)
      { call with stage, asked := call.asked ++ [(m.spec dir circuit).download] } where
  present := h.present
  fetched := h.fetched
  asked := by
    rw [take_succ_of_getElem? hcircuit, List.filter_append, List.filter_singleton, hmissing,
      List.map_append]
    exact congrArg (· ++ _) h.asked

/-- A circuit that was missing and has been installed is counted as fetched. -/
theorem Tally.succ_of_installed {files : Files.Store} {n : ℕ} {circuit : Circuit}
    {call : Call env Circuit} (h : Tally env m dir files n (n + 1) call)
    (hcircuit : m.circuits[n]? = some circuit) (hmissing : missing env dir files circuit = true)
    (stage : Stage env Circuit) :
    Tally env m dir files (n + 1) (n + 1)
      { call with stage, fetched := call.fetched + 1 } where
  present := by
    rw [take_succ_of_getElem? hcircuit, List.countP_append, List.countP_singleton, hmissing]
    exact h.present
  fetched := by
    rw [take_succ_of_getElem? hcircuit, List.countP_append, List.countP_singleton, hmissing]
    exact congrArg (· + 1) h.fetched
  asked := h.asked

/-! ### The invariant -/

/-- The partial file of a fetch: as it was, until it is opened, and then there was none. -/
def Spared {spec : Spec} (files now : Files.Store) (spare : String) :
    FetchPinned.Phase env spec → Prop
  | .fetching | .installing _ .opening => now spare = files spare
  | .installing _ (.writing _) | .installing _ .chmodding | .installing _ .moving
  | .installing _ .installed => files spare = none
  | _ => True

/-- A step of a fetch keeps what is known of its partial file: before it is opened it is as it
was, and it is opened only where there was none. -/
theorem Spared.step {spec : Spec} {uuid : String} {files now now' : Files.Store}
    {phase phase' : FetchPinned.Phase env spec} {e : FetchPinned.Event}
    (h : Spared files now (partialPath spec.path uuid) phase)
    (hstep : FetchPinned.step env spec uuid (now, phase) e = some (now', phase')) :
    Spared files now' (partialPath spec.path uuid) phase' := by
  cases FetchPinned.moves_of_step hstep with
  | passes passed => exact h
  | refuses refused => trivial
  | crash => trivial
  | installs moves =>
      cases Files.moves_of_step moves with
      | opened fresh => exact h.symm.trans fresh
      | wrote fits => exact h
      | closed => split <;> exact h
      | chmodded => exact h
      | renamed => exact h
      | fails live => trivial
      | unlinked => trivial
      | unlinkFails => trivial
      | crash live => trivial
  | @overwritten body stage bytes underway => cases stage <;> exact h

/-- What a call has done, by its stage. -/
def Invariant (env : Setting) (m : Manifest) (dir : Dir) (uuid : ℕ → String)
    (files now : Files.Store) (call : Call env Circuit) : Prop :=
  match call.stage with
  | .mkdir | .head =>
      Progress env m dir files none call.index now ∧
        Tally env m dir files call.index call.index call
  | .reading circuit path expected =>
      m.circuits[call.index]? = some circuit ∧ path = dir.join circuit.id ∧
        expected = .string circuit.sha256 ∧ Progress env m dir files none call.index now ∧
        Tally env m dir files call.index call.index call
  | .fetching circuit path =>
      m.circuits[call.index]? = some circuit ∧ path = dir.join circuit.id ∧
        missing env dir files circuit = true ∧ Progress env m dir files none call.index now ∧
        Tally env m dir files call.index call.index call
  | .installing spec phase =>
      ∃ circuit, m.circuits[call.index]? = some circuit ∧ spec = m.spec dir circuit ∧
        missing env dir files circuit = true ∧
        Progress env m dir files (some (partialPath spec.path (uuid call.index))) call.index now ∧
        Tally env m dir files call.index (call.index + 1) call ∧
        FetchPinned.Holds (uuid call.index) now phase ∧
        Spared files now (partialPath spec.path (uuid call.index)) phase
  | .present =>
      ∃ circuit, m.circuits[call.index]? = some circuit ∧ missing env dir files circuit = false ∧
        Progress env m dir files none call.index now ∧
        Tally env m dir files (call.index + 1) (call.index + 1) call
  | .fetched =>
      Progress env m dir files none (call.index + 1) now ∧
        Tally env m dir files (call.index + 1) (call.index + 1) call
  | .refusing => False
  | .resolved =>
      Progress env m dir files none m.circuits.length now ∧
        Tally env m dir files m.circuits.length m.circuits.length call
  | .rejected _ false =>
      ∃ spare, (∀ circuit ∈ m.circuits, some (dir.join circuit.id) ≠ spare) ∧
        Progress env m dir files spare call.index now
  | .rejected _ true => Progress env m dir files none (call.index + 1) now

/-- A call that has not begun has done nothing, and asked for nothing. -/
theorem invariant_begin (env : Setting) (m : Manifest) (dir : Dir) (uuid : ℕ → String)
    (files : Files.Store) : Invariant env m dir uuid files files (Call.begin env) :=
  ⟨⟨fun _ h => (by cases h), fun _ _ _ => rfl⟩, rfl, rfl, rfl⟩

/-- Unless a fetch has resolved, its target is as it was. -/
theorem Progress.of_unresolved {files now now' : Files.Store} {circuit : Circuit} {uuid : String}
    {i : ℕ} {phase phase' : FetchPinned.Phase env (m.spec dir circuit)} {e : FetchPinned.Event}
    (h : Progress env m dir files (some (partialPath (dir.join circuit.id) uuid)) i now)
    (hspare : ∀ other ∈ m.circuits,
      dir.join other.id ≠ partialPath (dir.join circuit.id) uuid)
    (hholds : FetchPinned.Holds uuid now phase)
    (hstep : FetchPinned.step env (m.spec dir circuit) uuid (now, phase) e = some (now', phase'))
    (hlive : ∀ body, phase' ≠ .installing body .installed) :
    Progress env m dir files (some (partialPath (dir.join circuit.id) uuid)) i now' := by
  have htarget : now' (dir.join circuit.id) = now (dir.join circuit.id) := by
    rcases FetchPinned.step_target hholds hstep with hsame | ⟨body, -, -, hphase⟩
    · exact hsame
    · exact absurd hphase (hlive body)
  refine h.of_agree (fun other hother => by simpa using hspare other hother) fun path hpath => ?_
  by_cases hc : path = dir.join circuit.id
  · rw [hc, htarget]
  · exact FetchPinned.step_frame hstep hc fun heq => hpath (congrArg some heq)

/-- A step of the fetch of the circuit at hand. -/
theorem invariant_settle (hm : m.WellFormed) {uuid : ℕ → String} {files now now' : Files.Store}
    {call : Call env Circuit} {circuit : Circuit}
    {phase phase' : FetchPinned.Phase env (m.spec dir circuit)} {e : FetchPinned.Event}
    (hcircuit : m.circuits[call.index]? = some circuit)
    (hmissing : missing env dir files circuit = true)
    (hprogress : Progress env m dir files
      (some (partialPath (dir.join circuit.id) (uuid call.index))) call.index now)
    (htally : Tally env m dir files call.index (call.index + 1) call)
    (hholds : FetchPinned.Holds (uuid call.index) now phase)
    (hspared : Spared files now (partialPath (dir.join circuit.id) (uuid call.index)) phase)
    (hkeeps : e.overwrites = false)
    (hstep : FetchPinned.step env (m.spec dir circuit) (uuid call.index) (now, phase) e =
      some (now', phase')) :
    Invariant env m dir uuid files now' (call.settle env phase') := by
  have hid := hm.ids circuit (List.mem_of_getElem? hcircuit)
  have hspare : ∀ other ∈ m.circuits,
      dir.join other.id ≠ partialPath (dir.join circuit.id) (uuid call.index) :=
    fun other hother => join_ne_partialPath (hm.ids other hother) hid _
  have hholds' := hholds.step hkeeps hstep
  have hspared' := hspared.step hstep
  have hkept : (∀ body, phase' ≠ .installing body .installed) →
      Progress env m dir files
        (some (partialPath (dir.join circuit.id) (uuid call.index))) call.index now' :=
    hprogress.of_unresolved hspare hholds hstep
  have hrejected : (∀ body, phase' ≠ .installing body .installed) → ∀ e : Thrown,
      Invariant env m dir uuid files now' { call with stage := .rejected e false } :=
    fun hlive e => ⟨_, fun other hother => by simpa using hspare other hother, hkept hlive⟩
  have hgoes : (∀ body, phase' ≠ .installing body .installed) →
      Invariant env m dir uuid files now' { call with stage := .installing _ phase' } :=
    fun hlive => ⟨circuit, hcircuit, rfl, hmissing, hkept hlive, htally.of_eq rfl rfl rfl, hholds',
      hspared'⟩
  cases phase' with
  | fetching => exact hgoes fun body h => by cases h
  | refused e => exact hrejected (fun body h => by cases h) e
  | crashed => exact hgoes fun body h => by cases h
  | installing body stage =>
      cases stage with
      | installed =>
          obtain ⟨-, hbuffer, hfile⟩ := FetchPinned.step_installed hholds hstep
          have hintact : missing env dir now' circuit = false := by
            change now' (dir.join circuit.id) = _ at hfile
            rw [missing, Bool.not_eq_false']
            exact isIntact_of_file hfile (FetchPinned.sha256_job hbuffer _)
          exact ⟨hprogress.succ_of_installed hm hcircuit hmissing hspare hintact
            (hholds'.2.trans hspared'.symm) (fun path hp hc => FetchPinned.step_frame hstep hc hp),
            htally.succ_of_installed hcircuit hmissing _⟩
      | failed e unlinked => exact hrejected (fun body h => by cases h) e
      | _ => exact hgoes fun body h => by cases h

/-- **Every step of a call keeps the invariant**, unless the buffer at hand is written to. -/
theorem Invariant.step (hm : m.WellFormed) {uuid : ℕ → String} {files now now' : Files.Store}
    {call call' : Call env Circuit} {e : Event} (h : Invariant env m dir uuid files now call)
    (hkeeps : e.overwrites = false)
    (hstep : Provision.step env m.view dir uuid (now, call) e = some (now', call')) :
    Invariant env m dir uuid files now' call' := by
  cases moves_of_step hstep with
  | made hstage =>
      rw [Invariant, hstage] at h
      exact ⟨h.1, h.2.of_eq rfl rfl rfl⟩
  | entered hstage =>
      rw [Invariant, hstage] at h
      obtain ⟨hprogress, htally⟩ := h
      have hnext : m.view.next call.index = .ok m.circuits[call.index]? := rfl
      rw [Call.enter, hnext]
      cases hcircuit : m.circuits[call.index]? with
      | none =>
          have hall : m.circuits.take call.index = m.circuits.take m.circuits.length := by
            rw [List.take_length, List.take_of_length_le (List.getElem?_eq_none_iff.mp hcircuit)]
          exact ⟨hprogress.of_take hall, htally.of_take hall rfl rfl rfl⟩
      | some circuit =>
          have hassert : assertCircuitId env (m.view.id circuit) = .ok circuit.id :=
            assertCircuitId_eq_ok_iff.mpr ⟨rfl, hm.ids circuit (List.mem_of_getElem? hcircuit)⟩
          dsimp only
          rw [hassert]
          exact ⟨hcircuit, rfl, rfl, hprogress, htally.of_eq rfl rfl rfl⟩
  | @examined circuit path expected hstage =>
      rw [Invariant, hstage] at h
      obtain ⟨hcircuit, rfl, rfl, hprogress, htally⟩ := h
      have hfound := hprogress.found hm hcircuit
      rw [Call.examine]
      split
      · next hintact =>
          rw [missing, hintact] at hfound
          exact ⟨circuit, hcircuit, hfound.symm, hprogress,
            htally.succ_of_intact hcircuit hfound.symm _⟩
      · next hbroken =>
          rw [missing, Bool.eq_false_iff.mpr hbroken] at hfound
          exact ⟨hcircuit, rfl, hfound.symm, hprogress, htally.of_eq rfl rfl rfl⟩
  | @asked circuit path hstage =>
      rw [Invariant, hstage] at h
      obtain ⟨hcircuit, rfl, hmissing, hprogress, htally⟩ := h
      change Invariant env m dir uuid files now
        { call with
          stage := .installing (m.spec dir circuit) .fetching
          asked := call.asked ++ [(m.spec dir circuit).download] }
      have hid := hm.ids circuit (List.mem_of_getElem? hcircuit)
      refine ⟨circuit, hcircuit, rfl, hmissing,
        ⟨hprogress.intact, fun path _ => hprogress.frame path (by simp)⟩,
        htally.asks hcircuit hmissing _, trivial, ?_⟩
      exact hprogress.frame _ (by simp) fun other hother _ =>
        (join_ne_partialPath (hm.ids other (List.mem_of_mem_take hother)) hid _).symm
  | continued hstage =>
      rcases hstage with hstage | hstage
      · rw [Invariant, hstage] at h
        obtain ⟨circuit, hcircuit, hintact, hprogress, htally⟩ := h
        exact ⟨hprogress.succ_of_intact hm hcircuit hintact, htally.of_eq rfl rfl rfl⟩
      · rw [Invariant, hstage] at h
        exact ⟨h.1, h.2.of_eq rfl rfl rfl⟩
  | failed hstage =>
      rcases hstage with hstage | hstage
      · rw [Invariant, hstage] at h
        exact ⟨none, by simp, h.1⟩
      · rw [Invariant, hstage] at h
        exact h.elim
  | thrown hstage =>
      rcases hstage with hstage | ⟨circuit, path, hstage⟩
      · rw [Invariant, hstage] at h
        obtain ⟨circuit, -, -, hprogress, -⟩ := h
        exact ⟨none, by simp, hprogress⟩
      · rw [Invariant, hstage] at h
        exact ⟨none, by simp, h.2.2.2.1⟩
  | thrownAfter hstage =>
      rw [Invariant, hstage] at h
      exact h.1
  | fetched hstage hfetch =>
      rw [Invariant, hstage] at h
      obtain ⟨circuit, hcircuit, rfl, hmissing, hprogress, htally, hholds, hspared⟩ := h
      exact invariant_settle hm hcircuit hmissing hprogress htally hholds hspared hkeeps hfetch

/-! ### Whole calls -/

/-- **What holds at every moment of a call**, if its buffers are its own. -/
theorem invariant_of_run (hm : m.WellFormed) {uuid : ℕ → String} {files now : Files.Store}
    {call : Call env Circuit} {events : List Event} (hkeeps : KeepsBuffers events)
    (hrun : exec (Provision.step env m.view dir uuid) (files, Call.begin env) events =
      some (now, call)) : Invariant env m dir uuid files now call := by
  have hmeets : Meets (Provision.step env m.view dir uuid) (fun _ e => e.overwrites = false)
      (files, Call.begin env) events := meets_of_forall fun e he _ => hkeeps e he
  refine exec_invariant_of_meets (I := fun s => Invariant env m dir uuid files s.1 s.2) ?_ hrun
    hmeets (invariant_begin env m dir uuid files)
  rintro ⟨u, c⟩ e ⟨v, c'⟩ hu hkeeps hstep
  exact hu.step hm hkeeps hstep

/-- The call has not asked its host for anything, and will not. -/
def Idle (call : Call env Circuit) : Prop :=
  call.asked = [] ∧ call.fetched = 0 ∧
    match call.stage with
    | .fetching _ _ | .installing _ _ | .refusing | .fetched | .rejected _ true => False
    | _ => True

/-- Where no circuit is missing, every step leaves the call idle and the files as they are, and
there is no buffer to write to. -/
theorem Idle.step {uuid : ℕ → String} {files now : Files.Store} {call call' : Call env Circuit}
    {e : Event}
    (hall : ∀ circuit ∈ m.circuits, missing env dir files circuit = false)
    (hidle : Idle call) (h : Invariant env m dir uuid files files call)
    (hstep : Provision.step env m.view dir uuid (files, call) e = some (now, call')) :
    e.overwrites = false ∧ now = files ∧ Idle call' := by
  obtain ⟨hasked, hfetched, hstage'⟩ := hidle
  cases moves_of_step hstep with
  | made hstage => exact ⟨rfl, rfl, hasked, hfetched, trivial⟩
  | entered hstage =>
      refine ⟨rfl, rfl, hasked, hfetched, ?_⟩
      dsimp only
      rcases enter_cases m.view dir call with
        ⟨e, he⟩ | ⟨-, he⟩ | ⟨circuit, id, -, -, -, he⟩
      · rw [he]; trivial
      · rw [he]; trivial
      · rw [he]; trivial
  | @examined circuit path expected hstage =>
      rw [Invariant, hstage] at h
      obtain ⟨hcircuit, rfl, rfl, -, -⟩ := h
      have hintact := hall circuit (List.mem_of_getElem? hcircuit)
      rw [missing, Bool.not_eq_false'] at hintact
      rw [Call.examine, if_pos hintact]
      exact ⟨rfl, rfl, hasked, hfetched, trivial⟩
  | asked hstage => rw [hstage] at hstage'; exact hstage'.elim
  | continued hstage => exact ⟨rfl, rfl, hasked, hfetched, trivial⟩
  | failed hstage => exact ⟨rfl, rfl, hasked, hfetched, trivial⟩
  | thrown hstage => exact ⟨rfl, rfl, hasked, hfetched, trivial⟩
  | thrownAfter hstage => rw [hstage] at hstage'; exact hstage'.elim
  | fetched hstage hfetch => rw [hstage] at hstage'; exact hstage'.elim

/-- **A repeated call finds nothing to do.** -/
theorem idle_of_run (hm : m.WellFormed) {uuid : ℕ → String} {files now : Files.Store}
    {call : Call env Circuit} {events : List Event}
    (hall : ∀ circuit ∈ m.circuits, missing env dir files circuit = false)
    (hrun : exec (Provision.step env m.view dir uuid) (files, Call.begin env) events =
      some (now, call)) :
    now = files ∧ Idle call ∧ Invariant env m dir uuid files files call := by
  refine exec_invariant (I := fun s => s.1 = files ∧ Idle s.2 ∧
    Invariant env m dir uuid files files s.2) ?_ hrun
    ⟨rfl, ⟨rfl, rfl, trivial⟩, invariant_begin env m dir uuid files⟩
  rintro ⟨u, c⟩ e ⟨v, c'⟩ ⟨rfl, hidle, hinv⟩ hstep
  obtain ⟨hkeeps, rfl, hidle'⟩ := hidle.step hall hinv hstep
  exact ⟨rfl, hidle', hinv.step hm hkeeps hstep⟩

/-- What a call that resolves leaves behind: every circuit is intact; the counters add up; the
host has been asked once for each circuit that was missing, and for nothing else; no other file
has changed; and a call made right after it asks for nothing and changes nothing. -/
structure Converged (env : Setting) (m : Manifest) (dir : Dir) (before after : Files.Store)
    (call : Call env Circuit) : Prop where
  intact : ∀ circuit ∈ m.circuits, isIntact env after (dir.join circuit.id) circuit.sha256 = true
  counts : call.present + call.fetched = m.circuits.length
  asked : call.asked = (m.circuits.filter fun circuit =>
    !isIntact env before (dir.join circuit.id) circuit.sha256).map
      fun circuit => (m.spec dir circuit).download
  frame : ∀ path, (∀ circuit ∈ m.circuits,
    isIntact env before (dir.join circuit.id) circuit.sha256 = false →
      path ≠ dir.join circuit.id) → after path = before path
  again : ∀ uuid events now call', exec (Provision.step env m.view dir uuid)
    (after, Call.begin env) events = some (now, call') → now = after ∧ call'.asked = [] ∧
      (call'.stage = .resolved → call'.present = m.circuits.length ∧ call'.fetched = 0)

/-- What a call that rejects leaves behind, at circuit `i`: those before it are intact, and all
files from there on are as they were. Only a callback that throws behind a fetch makes a call
reject when circuit `i` has been installed. -/
structure Stopped (env : Setting) (m : Manifest) (dir : Dir) (before after : Files.Store)
    (i : ℕ) (installed : Bool) : Prop where
  intact : ∀ circuit ∈ m.circuits.take i,
    isIntact env after (dir.join circuit.id) circuit.sha256 = true
  kept : ∀ k circuit, m.circuits[k]? = some circuit → i ≤ k → (k = i → installed = false) →
    after (dir.join circuit.id) = before (dir.join circuit.id)

/-- The circuits that are done hold their pinned bytes. -/
theorem Progress.isIntact {files now : Files.Store} {n : ℕ} {spare : Option String}
    (h : Progress env m dir files spare n now) :
    ∀ circuit ∈ m.circuits.take n,
      isIntact env now (dir.join circuit.id) circuit.sha256 = true := by
  intro circuit hcircuit
  have hintact := h.intact circuit hcircuit
  rwa [missing, Bool.not_eq_false'] at hintact

/-- **All circuits are done**: a call that has gone through the whole manifest leaves the
directory converged. -/
theorem converged_of_progress (hm : m.WellFormed) {before after : Files.Store}
    {call : Call env Circuit} (hprogress : Progress env m dir before none m.circuits.length after)
    (htally : Tally env m dir before m.circuits.length m.circuits.length call) :
    Converged env m dir before after call := by
  have hintact := hprogress.intact
  have hframe := hprogress.frame
  obtain ⟨hpresent, hfetched, hasked⟩ := htally
  rw [List.take_length] at hintact hframe hpresent hfetched hasked
  refine ⟨?_, ?_, hasked, fun path hpath => ?_, fun uuid events now call' hrun => ?_⟩
  · have h := hprogress.isIntact
    rwa [List.take_length] at h
  · have hsum := List.length_eq_countP_add_countP (missing env dir before) (l := m.circuits)
    have hnot : m.circuits.countP (fun circuit => decide ¬missing env dir before circuit = true) =
        m.circuits.countP fun circuit => !missing env dir before circuit := by
      congr 1
      funext circuit
      simp
    rw [hpresent, hfetched, Nat.add_comm, hsum, hnot]
  · refine hframe path (by simp) fun circuit hcircuit hmissing => hpath circuit hcircuit ?_
    rwa [missing, Bool.not_eq_true'] at hmissing
  · obtain ⟨rfl, ⟨hnone, hzero, -⟩, hinv⟩ := idle_of_run hm hintact hrun
    refine ⟨rfl, hnone, fun hstage => ⟨?_, hzero⟩⟩
    rw [Invariant, hstage] at hinv
    have hcount := hinv.2.present
    rw [List.take_length] at hcount
    rw [hcount, List.countP_eq_length]
    intro circuit hcircuit
    rw [hintact circuit hcircuit, Bool.not_false]

/-- **A call that stops at a circuit** has done those before it, and left the files from there on
as they were. -/
theorem stopped_of_progress (hm : m.WellFormed) {before after : Files.Store} {i n : ℕ}
    {installed : Bool} {spare : Option String} (h : Progress env m dir before spare n after)
    (hspare : ∀ circuit ∈ m.circuits, some (dir.join circuit.id) ≠ spare) (hi : i ≤ n)
    (hn : n = if installed then i + 1 else i) : Stopped env m dir before after i installed where
  intact circuit hcircuit := h.isIntact circuit (List.take_subset_take_left _ hi hcircuit)
  kept k circuit hcircuit hk hlast := by
    have hnk : n ≤ k := by
      rw [hn]
      split
      · next hinstalled =>
          have hne : k ≠ i := fun heq => by
            rw [hlast heq] at hinstalled
            cases hinstalled
          omega
      · exact hk
    refine h.frame _ (hspare circuit (List.mem_of_getElem? hcircuit)) fun other hother _ =>
      join_ne_of_mem_take hm hcircuit (List.take_subset_take_left _ hnk hother)

/-- **Provisioning converges.** Whatever was in the directory and whatever the host answers, in
buffers that are the call's own, a call that resolves has repaired exactly the circuits that were
not intact, and a call that rejects has repaired those before the one it stopped at. -/
theorem provision_converges (hm : m.WellFormed) {uuid : ℕ → String} {before after : Files.Store}
    {call : Call env Circuit} {events : List Event} (hkeeps : KeepsBuffers events)
    (hrun : exec (Provision.step env m.view dir uuid) (before, Call.begin env) events =
      some (after, call)) :
    (call.stage = .resolved → Converged env m dir before after call) ∧
      ∀ e installed, call.stage = .rejected e installed →
        Stopped env m dir before after call.index installed ∧
          (installed = true → Event.throws e ∈ events) := by
  have hinv := invariant_of_run hm hkeeps hrun
  refine ⟨fun hstage => ?_, fun e installed hstage => ⟨?_, fun hinstalled => ?_⟩⟩
  · rw [Invariant, hstage] at hinv
    exact converged_of_progress hm hinv.1 hinv.2
  · rw [Invariant, hstage] at hinv
    cases installed with
    | false =>
        obtain ⟨spare, hspare, hprogress⟩ := hinv
        exact stopped_of_progress hm hprogress hspare le_rfl rfl
    | true => exact stopped_of_progress hm hinv (by simp) (Nat.le_succ _) rfl
  · subst hinstalled
    refine exec_history (J := fun done s => ∀ e, s.2.stage = .rejected e true →
      Event.throws e ∈ done) ?_ hrun (fun e h => by cases h) e hstage
    rintro done ⟨u, c⟩ a ⟨v, c'⟩ hu hstep e hend
    obtain rfl := thrown_of_step hstep hend
    exact List.mem_append_right _ (List.mem_singleton_self _)

/-- A setting in which one byte string has the pinned digest. -/
def sampleSetting : Setting where
  numberText _ := ""
  jsonText _ := .ok ""
  sha256 bytes := if bytes = [0x7F] then "pinned" else "other"
  umask := 0o022

/-- A manifest with one circuit, of one byte. -/
def sampleManifest : Manifest where
  commit := "d8ad8f65"
  path := "lib"
  circuits := [⟨String.ofList (List.replicate 64 'a'), .finite 1, "pinned"⟩]

/-- The manifest of one circuit is well formed. -/
theorem sampleManifest_wellFormed : sampleManifest.WellFormed where
  distinct := List.nodup_singleton _
  ids circuit hcircuit := by
    obtain rfl := List.mem_singleton.mp hcircuit
    decide +kernel

/-- The circuit is missing, and its host has it. -/
def sampleEvents : List Event :=
  [.proceeds, .proceeds, .proceeds, .proceeds,
    .fetch (.answer (.reply ⟨true, .finite 200, .finite 1, .ok [0x7F]⟩)),
    .fetch (.op .opened), .fetch (.op (.wrote 1)), .fetch (.op .closed), .fetch (.op .renamed),
    .proceeds, .proceeds]

/-- The id that is one character, repeated. -/
def sampleId (c : Char) : String :=
  String.ofList (List.replicate 64 c)

/-- A setting that tells three byte strings apart. -/
def mixedSetting : Setting where
  numberText _ := ""
  jsonText _ := .ok ""
  sha256 bytes :=
    if bytes = [0x0A] then "a" else if bytes = [0x0B] then "b" else if bytes = [0x0C] then "c"
    else "other"
  umask := 0o022

/-- A manifest with three circuits. -/
def mixedManifest : Manifest where
  commit := "d8ad8f65"
  path := "lib"
  circuits := [⟨sampleId 'a', .finite 1, "a"⟩, ⟨sampleId 'b', .finite 1, "b"⟩,
    ⟨sampleId 'c', .finite 1, "c"⟩]

/-- The manifest of the worked run is well formed: its circuits are distinct. -/
theorem mixedManifest_wellFormed : mixedManifest.WellFormed where
  distinct := by decide +kernel
  ids := by
    simp only [mixedManifest, List.forall_mem_cons, List.not_mem_nil, false_imp_iff, implies_true,
      and_true]
    and_intros <;> decide +kernel

/-- A directory with the first circuit intact, the second one corrupt, the third one missing, and
a file that is none of them. -/
def mixedFiles : Files.Store := fun path =>
  if path = "circuits/" ++ sampleId 'a' then some ⟨[0x0A], 0o644⟩
  else if path = "circuits/" ++ sampleId 'b' then some ⟨[0xFF], 0o644⟩
  else if path = "circuits/README" then some ⟨[0x23], 0o644⟩
  else none

/-- A fetch that is answered with this byte and installs it. -/
def fetches (byte : UInt8) : List Event :=
  [.proceeds, .fetch (.answer (.reply ⟨true, .finite 200, .finite 1, .ok [byte]⟩)),
    .fetch (.op .opened), .fetch (.op (.wrote 1)), .fetch (.op .closed), .fetch (.op .renamed),
    .proceeds]

/-- The second circuit is repaired, and the third one fetched. -/
def mixedEvents : List Event :=
  [.proceeds, .proceeds, .proceeds, .proceeds] ++ [.proceeds, .proceeds] ++ fetches 0x0B ++
    [.proceeds, .proceeds] ++ fetches 0x0C ++ [.proceeds]

/-- The second circuit is repaired, and the host has other bytes for the third one. -/
def refusedEvents : List Event :=
  [.proceeds, .proceeds, .proceeds, .proceeds] ++ [.proceeds, .proceeds] ++ fetches 0x0B ++
    [.proceeds, .proceeds, .proceeds,
      .fetch (.answer (.reply ⟨true, .finite 200, .finite 1, .ok [0xFF]⟩))]

/-- A call that finds an intact, a corrupt and a missing circuit, and resolves; and one that is
given other bytes for the last of them, and rejects there. -/
theorem provision_converges_mixedManifest :
    (∃ after call,
      exec (Provision.step mixedSetting mixedManifest.view ⟨"circuits/"⟩ fun i => toString i)
        (mixedFiles, Call.begin mixedSetting) mixedEvents = some (after, call) ∧
      call.present = 1 ∧ call.fetched = 2 ∧
      Converged mixedSetting mixedManifest ⟨"circuits/"⟩ mixedFiles after call) ∧
    ∃ after call,
      exec (Provision.step mixedSetting mixedManifest.view ⟨"circuits/"⟩ fun i => toString i)
        (mixedFiles, Call.begin mixedSetting) refusedEvents = some (after, call) ∧
      call.index = 2 ∧ Stopped mixedSetting mixedManifest ⟨"circuits/"⟩ mixedFiles after 2 false := by
  refine ⟨?_, ?_⟩
  · have hkeeps : KeepsBuffers mixedEvents := by decide
    have hrun : exec (Provision.step mixedSetting mixedManifest.view ⟨"circuits/"⟩ fun i =>
      toString i) (mixedFiles, Call.begin mixedSetting) mixedEvents = some (_, _) := rfl
    exact ⟨_, _, hrun, rfl, rfl, (provision_converges mixedManifest_wellFormed hkeeps hrun).1 rfl⟩
  · have hkeeps : KeepsBuffers refusedEvents := by decide
    have hrun : exec (Provision.step mixedSetting mixedManifest.view ⟨"circuits/"⟩ fun i =>
      toString i) (mixedFiles, Call.begin mixedSetting) refusedEvents = some (_, _) := rfl
    exact ⟨_, _, hrun, rfl, ((provision_converges mixedManifest_wellFormed hkeeps hrun).2 _ _ rfl).1⟩

end Provision

end EightEen
