import EightEen.Pins
import Mathlib.Tactic.IntervalCases

/-!
# Writing to the Pins

One process that uses the package: any code in it writes to the objects that it can reach, in any
order and between any two steps of any number of calls of `provision`, each of which has its own
directory, host and random suffixes. A call reads the manifest as it is at that moment.

The export is frozen, but the array in it and the entries are not. While the pins stand (`Stand`),
every call that resolves has left the shipped bytes under every shipped id; a write that moves a
pin lets other bytes in, or leaves a circuit out.

## Main results

* `Sound.step`: what every step keeps, as long as the writes leave the pins standing.
* `pins_hold`: runs whose writes all leave the pins standing keep the promise throughout.
* `not_pins_hold_movedPin`: a run that writes to a pin and to the length of the array.
-/

open Js Transition

namespace EightEen

namespace Pins

open Provision (Call Dir Stage isCircuitId)

/-! ### Paths -/

/-- A text is cut in one way only behind the last character that does not pass. -/
theorem cut_unique {p : Char → Bool} {xs ys l l' : List Char} (h : xs ++ l = ys ++ l')
    (hl : ∀ c ∈ l, p c = true) (hl' : ∀ c ∈ l', p c = true)
    (hxs : ∀ c, xs.getLast? = some c → p c = false)
    (hys : ∀ c, ys.getLast? = some c → p c = false) : xs = ys ∧ l = l' := by
  have hnil : ∀ {zs middle : List Char}, (∀ c, (zs ++ middle).getLast? = some c → p c = false) →
      (∀ c ∈ middle, p c = true) → middle = [] := by
    intro zs middle hlast hmiddle
    by_contra hne
    have hmem := List.getLast_mem hne
    have hfalse := hlast _ (by
      rw [List.getLast?_append_of_ne_nil _ hne, List.getLast?_eq_some_getLast hne])
    rw [hmiddle _ hmem] at hfalse
    cases hfalse
  rcases List.append_eq_append_iff.mp h with ⟨middle, rfl, rfl⟩ | ⟨middle, rfl, rfl⟩
  · obtain rfl := hnil hys fun c hc => hl c (List.mem_append_left _ hc)
    exact ⟨(List.append_nil _).symm, rfl⟩
  · obtain rfl := hnil hxs fun c hc => hl' c (List.mem_append_left _ hc)
    exact ⟨List.append_nil _, rfl⟩

/-- A character that is neither a dot nor a slash. -/
def isPlain (c : Char) : Bool :=
  c ≠ '.' && c ≠ '/'

/-- The directories and the random suffixes of the calls: a directory is given with the slash
behind it, or is the current one; and no two suffixes are alike. -/
structure Callers where
  dir : ℕ → Dir
  uuid : ℕ → ℕ → String
  dir_slash : ∀ c ch, (dir c).base.toList.getLast? = some ch → ch = '/'
  uuid_plain : ∀ c i, ∀ ch ∈ (uuid c i).toList, isPlain ch = true
  uuid_distinct : ∀ {c i c' i'}, uuid c i = uuid c' i' → c = c' ∧ i = i'

/-- A hexadecimal digit is a plain character. -/
theorem isPlain_of_isLowerHex {c : Char} (h : isLowerHex c = true) : isPlain c = true := by
  rw [isPlain]
  by_contra hne
  simp only [ne_eq, decide_not, Bool.and_eq_true, Bool.not_eq_true', decide_eq_false_iff_not,
    not_and_or, not_not] at hne
  rcases hne with rfl | rfl
  · exact absurd h (by decide)
  · exact absurd h (by decide)

/-- The id of a circuit is made of plain characters. -/
theorem isPlain_of_isCircuitId {id : String} (h : isCircuitId id = true) :
    ∀ c ∈ id.toList, isPlain c = true := by
  rw [isCircuitId, Bool.and_eq_true, List.all_eq_true] at h
  exact fun c hc => isPlain_of_isLowerHex (h.2 c hc)

namespace Callers

variable (callers : Callers)

/-- The directory of a call ends in a slash, or is empty: its last character is not plain. -/
theorem dir_not_plain (c : ℕ) (ch : Char) (h : (callers.dir c).base.toList.getLast? = some ch) :
    isPlain ch = false := by
  rw [callers.dir_slash c ch h]
  decide

/-- Two circuits at one path have one id. -/
theorem id_unique {c c' : ℕ} {id id' : String} (hid : isCircuitId id = true)
    (hid' : isCircuitId id' = true) (h : (callers.dir c).join id = (callers.dir c').join id') :
    id = id' := by
  have hchars := congrArg String.toList h
  simp only [Dir.join, String.toList_append] at hchars
  exact String.toList_injective (cut_unique hchars (isPlain_of_isCircuitId hid)
    (isPlain_of_isCircuitId hid') (callers.dir_not_plain c) (callers.dir_not_plain c')).2

/-- The characters of a partial path, cut behind its last dot. -/
theorem toList_partialPath (path uuid : String) :
    (partialPath path uuid).toList =
      (path.toList ++ ['.']) ++ ("part-".toList ++ uuid.toList) := by
  rw [partialPath, String.toList_append, String.toList_append, List.append_assoc,
    List.append_assoc, ← List.append_assoc ['.']]
  rfl

/-- What is put behind the dot of a partial path is made of plain characters. -/
theorem plain_suffix (c i : ℕ) :
    ∀ ch ∈ "part-".toList ++ (callers.uuid c i).toList, isPlain ch = true := by
  intro ch hch
  rcases List.mem_append.mp hch with hpart | huuid
  · have hall : "part-".toList.all isPlain = true := by decide
    exact List.all_eq_true.mp hall ch hpart
  · exact callers.uuid_plain c i ch huuid

/-- A path with a dot behind it does not end in a plain character. -/
theorem last_dot (path : List Char) (ch : Char) (h : (path ++ ['.']).getLast? = some ch) :
    isPlain ch = false := by
  rw [List.getLast?_concat] at h
  obtain rfl := Option.some.inj h
  decide

/-- No circuit is at the path of a partial file. -/
theorem join_ne_partialPath {c : ℕ} {id : String} (hid : isCircuitId id = true) (path : String)
    (c' i : ℕ) : (callers.dir c).join id ≠ partialPath path (callers.uuid c' i) := by
  intro h
  have hchars := congrArg String.toList h
  rw [toList_partialPath] at hchars
  simp only [Dir.join, String.toList_append] at hchars
  obtain ⟨hbase, -⟩ := cut_unique hchars (isPlain_of_isCircuitId hid)
    (callers.plain_suffix c' i) (callers.dir_not_plain c) (last_dot path.toList)
  have hlast := callers.dir_slash c '.' (by rw [hbase, List.getLast?_concat])
  exact absurd hlast (by decide)

/-- The partial files of two fetches are two files. -/
theorem partialPath_unique {path path' : String} {c i c' i' : ℕ}
    (h : partialPath path (callers.uuid c i) = partialPath path' (callers.uuid c' i')) :
    c = c' ∧ i = i' := by
  have hchars := congrArg String.toList h
  rw [toList_partialPath, toList_partialPath] at hchars
  obtain ⟨-, hsuffix⟩ := cut_unique hchars (callers.plain_suffix c i)
    (callers.plain_suffix c' i') (last_dot path.toList) (last_dot path'.toList)
  exact callers.uuid_distinct (String.toList_injective (List.append_cancel_left hsuffix))

end Callers

/-! ### The process -/

/-- The objects, the files, and how far each call of `provision` is. -/
structure Process (env : Setting) where
  heap : Heap
  files : Files.Store
  calls : ℕ → Call env Slot

/-- What happens: code writes to an object, or one of the calls is told something. -/
inductive Act where
  | write (mutation : Mutation)
  | call (c : ℕ) (e : Provision.Event)

/-- **The assumption about `fetchImpl`**: what it hands over to a call belongs to that call. The
writes of a run go to the objects of the package, and none to a buffer. -/
def KeepsBuffers (acts : List Act) : Prop :=
  ∀ c e, Act.call c e ∈ acts → e.overwrites = false

namespace Process

variable (env : Setting) (m : Manifest) (strangers : Strangers) (callers : Callers)

/-- The module has been loaded, and no call has begun. -/
def start (files : Files.Store) : Process env :=
  ⟨heapOf m, files, fun _ => Call.begin env⟩

/-- One step. A call reads the heap as it is. -/
def step (s : Process env) : Act → Option (Process env)
  | .write mutation => some { s with heap := s.heap.mutate mutation }
  | .call c e =>
      (Provision.step env (view strangers s.heap) (callers.dir c) (callers.uuid c)
        (s.files, s.calls c) e).map fun next =>
          { s with files := next.1, calls := Function.update s.calls c next.2 }

/-- The write leaves the pins standing, and goes to no object of the language, on which everything
else in the process rests. -/
def Spares (s : Process env) : Act → Prop
  | .write mutation => (∀ r, mutation.target = some r → isBuiltIn r = false) ∧
      Stand m (s.heap.mutate mutation)
  | .call _ _ => True

/-- Every call that has resolved finds the shipped bytes under every shipped id. -/
def KeepsPins (s : Process env) : Prop :=
  ∀ c, (s.calls c).stage = .resolved → ∀ circuit ∈ m.circuits,
    isIntact env s.files ((callers.dir c).join circuit.id) circuit.sha256 = true

end Process

/-! ### What a call keeps -/

variable {env : Setting} {m : Manifest} {strangers : Strangers} {callers : Callers}

/-- The element and the path that a call has read at place `i`. -/
def Aims (m : Manifest) (dir : Dir) (i : ℕ) (slot : Slot) (path : String) : Prop :=
  ∃ id, path = dir.join id ∧ isCircuitId id = true ∧
    (∀ circuit, m.circuits[i]? = some circuit → id = circuit.id) ∧
    ∀ j circuit, m.circuits[j]? = some circuit → id = circuit.id → slot = .ref (entryRef j)

/-- The spec of a fetch at place `i`. -/
def Fits (m : Manifest) (dir : Dir) (i : ℕ) (spec : Spec) : Prop :=
  ∃ id, spec.path = dir.join id ∧ isCircuitId id = true ∧
    (∀ circuit, m.circuits[i]? = some circuit → id = circuit.id) ∧
    ∀ circuit ∈ m.circuits, id = circuit.id → spec.sha256 = circuit.sha256

/-- What holds at each stage of a call at place `i`. -/
def StageSound (m : Manifest) (files : Files.Store) (dir : Dir) (uuid : String) (i : ℕ) :
    Stage env Slot → Prop
  | .reading slot path expected => Aims m dir i slot path ∧
      ∀ circuit, m.circuits[i]? = some circuit → expected = .string circuit.sha256
  | .fetching slot path => Aims m dir i slot path
  | .installing spec phase => Fits m dir i spec ∧ FetchPinned.Holds uuid files phase
  | .present | .fetched => ∀ circuit, m.circuits[i]? = some circuit →
      isIntact env files (dir.join circuit.id) circuit.sha256 = true
  | .resolved => ∀ circuit ∈ m.circuits,
      isIntact env files (dir.join circuit.id) circuit.sha256 = true
  | _ => True

/-- The circuits before the place at hand are intact, and the stage is sound. -/
structure CallSound (m : Manifest) (callers : Callers) (files : Files.Store) (c : ℕ)
    (call : Call env Slot) : Prop where
  done : ∀ j < call.index, ∀ circuit, m.circuits[j]? = some circuit →
    isIntact env files ((callers.dir c).join circuit.id) circuit.sha256 = true
  stage : StageSound m files (callers.dir c) (callers.uuid c call.index) call.index call.stage

/-- **A fetch leaves every circuit that is intact intact**, in every directory. -/
theorem intact_of_fetch {files files' : Files.Store} {spec : Spec} {c i : ℕ}
    {phase phase' : FetchPinned.Phase env spec} {e : FetchPinned.Event}
    (hfits : Fits m (callers.dir c) i spec)
    (hholds : FetchPinned.Holds (callers.uuid c i) files phase)
    (hstep : FetchPinned.step env spec (callers.uuid c i) (files, phase) e =
      some (files', phase')) {c' : ℕ} {circuit : Circuit} (hcircuit : circuit ∈ m.circuits)
    (hid : isCircuitId circuit.id = true)
    (h : isIntact env files ((callers.dir c').join circuit.id) circuit.sha256 = true) :
    isIntact env files' ((callers.dir c').join circuit.id) circuit.sha256 = true := by
  obtain ⟨id, hpath, hidwell, -, hpins⟩ := hfits
  by_cases hsame : (callers.dir c').join circuit.id = spec.path
  · rcases FetchPinned.step_target hholds hstep with hkept | ⟨body, hbuffer, hfile, -⟩
    · rw [isIntact_congr (hsame ▸ hkept)]
      exact h
    · rw [hsame]
      have hids := callers.id_unique hid hidwell (hsame.trans hpath)
      exact isIntact_of_file hfile
        ((FetchPinned.sha256_job hbuffer _).trans (hpins circuit hcircuit hids.symm))
  · rw [isIntact_congr (FetchPinned.step_frame hstep hsame
      (callers.join_ne_partialPath hid spec.path c i))]
    exact h

/-- A call that is not told anything keeps what it has. -/
theorem CallSound.of_agree {files files' : Files.Store} {c : ℕ} {call : Call env Slot}
    (h : CallSound m callers files c call)
    (hintact : ∀ circuit ∈ m.circuits,
      isIntact env files ((callers.dir c).join circuit.id) circuit.sha256 = true →
      isIntact env files' ((callers.dir c).join circuit.id) circuit.sha256 = true)
    (hbeside : ∀ path, files' (partialPath path (callers.uuid c call.index)) =
      files (partialPath path (callers.uuid c call.index))) :
    CallSound m callers files' c call := by
  refine ⟨fun j hj circuit hget =>
    hintact circuit (List.mem_of_getElem? hget) (h.done j hj circuit hget), ?_⟩
  have hstage := h.stage
  revert hstage
  cases call.stage with
  | installing spec phase => exact fun hstage => ⟨hstage.1, hstage.2.of_agree (hbeside _)⟩
  | present | fetched =>
      exact fun hstage circuit hget =>
        hintact circuit (List.mem_of_getElem? hget) (hstage circuit hget)
  | resolved =>
      exact fun hstage circuit hcircuit => hintact circuit hcircuit (hstage circuit hcircuit)
  | mkdir | head | reading _ _ _ | fetching _ _ | refusing | rejected _ _ =>
      exact fun hstage => hstage

/-! ### What a call does -/

section Step

variable {heap : Heap} {files files' : Files.Store} {c : ℕ} {call : Call env Slot}

/-- At the head of the loop, a call reads the pin of its place, or is at the end. -/
theorem enter_sound (strangers : Strangers) (hwf : m.WellFormed) (hstand : Stand m heap)
    (hm : heap[manifestRef]? = some (manifestObj m)) (h : CallSound m callers files c call) :
    StageSound m files (callers.dir c) (callers.uuid c call.index) call.index
      (call.enter env (view strangers heap) (callers.dir c)) := by
  rcases Provision.enter_cases (view strangers heap) (callers.dir c) call with
    ⟨e, he⟩ | ⟨hnext, he⟩ | ⟨slot, id, hnext, hid, hwell, he⟩
  · rw [he]
    trivial
  · rw [he]
    intro circuit hcircuit
    obtain ⟨j, hj⟩ := List.getElem?_of_mem hcircuit
    have hlen := (List.getElem?_eq_some_iff.mp hj).1
    have hend := hstand.next_end hm hnext
    exact h.done j (by omega) circuit hj
  · rw [he]
    have hplace : ∀ circuit, m.circuits[call.index]? = some circuit →
        slot = .ref (entryRef call.index) := by
      intro circuit hget
      have hentry := hstand.next_place strangers hm
        (List.getElem?_eq_some_iff.mp hget).1
      exact Option.some.inj (Except.ok.inj (hnext.symm.trans hentry))
    refine ⟨⟨id, rfl, hwell, fun circuit hget => ?_, fun j circuit hget hsame => ?_⟩,
      fun circuit hget => ?_⟩
    · obtain rfl := hplace circuit hget
      rw [hstand.id_entry hget, Value.string.injEq] at hid
      exact hid.symm
    · exact hstand.ref_of_id hwf hm hnext hget (hsame ▸ hid)
    · obtain rfl := hplace circuit hget
      exact hstand.sha256_entry hget

/-- A file that is met as intact has the bytes of the pin. -/
theorem examine_sound {slot : Slot} {path : String} {expected : Value}
    (hstage : StageSound m files (callers.dir c) (callers.uuid c call.index) call.index
      (.reading slot path expected : Stage env Slot)) :
    StageSound m files (callers.dir c) (callers.uuid c call.index) call.index
      (call.examine env files slot path expected).stage := by
  obtain ⟨haims, hexpected⟩ := hstage
  cases expected with
  | string s =>
      rw [Call.examine]
      split
      · next hintact =>
          intro circuit hget
          obtain ⟨id, rfl, -, hplace, -⟩ := haims
          have hs := hexpected circuit hget
          rw [Value.string.injEq] at hs
          rwa [← hs, ← hplace circuit hget]
      · exact haims
  | _ => exact haims

/-- A fetch asks for the bytes of the pin. -/
theorem ask_sound (strangers : Strangers) (files : Files.Store) (hstand : Stand m heap)
    {slot : Slot} {path : String}
    (haims : Aims m (callers.dir c) call.index slot path) :
    StageSound m files (callers.dir c) (callers.uuid c call.index) call.index
      (call.ask env (view strangers heap) slot path).stage := by
  rw [Call.ask]
  split
  · trivial
  · split
    · next bytes sha256 hbytes hsha =>
        obtain ⟨id, hpath, hwell, hplace, hslot⟩ := haims
        refine ⟨⟨id, hpath, hwell, hplace, fun circuit hcircuit hsame => ?_⟩, trivial⟩
        obtain ⟨j, hj⟩ := List.getElem?_of_mem hcircuit
        rw [hslot j circuit hj hsame, hstand.sha256_entry hj, Value.string.injEq] at hsha
        exact hsha.symm
    · trivial

/-- What a step of a fetch leaves. -/
theorem settle_sound {spec : Spec} {phase phase' : FetchPinned.Phase env spec}
    {e : FetchPinned.Event} (hfits : Fits m (callers.dir c) call.index spec)
    (hholds : FetchPinned.Holds (callers.uuid c call.index) files phase)
    (hkeeps : e.overwrites = false)
    (hstep : FetchPinned.step env spec (callers.uuid c call.index) (files, phase) e =
      some (files', phase')) :
    StageSound m files' (callers.dir c) (callers.uuid c call.index) call.index
      (call.settle env phase').stage := by
  unfold Call.settle
  split
  · next body =>
      intro circuit hget
      obtain ⟨-, hbuffer, hfile⟩ := FetchPinned.step_installed hholds hstep
      obtain ⟨id, hpath, -, hplace, hpins⟩ := hfits
      have hid := hplace circuit hget
      rw [← hid, ← hpath]
      exact isIntact_of_file hfile
        ((FetchPinned.sha256_job hbuffer _).trans
          (hpins circuit (List.mem_of_getElem? hget) hid))
  · trivial
  · trivial
  · exact ⟨hfits, hholds.step hkeeps hstep⟩

/-- Looking at a file does not move a call on to another entry. -/
theorem index_examine (files : Files.Store) (call : Call env Slot) (slot : Slot) (path : String)
    (expected : Value) : (call.examine env files slot path expected).index = call.index := by
  unfold Call.examine
  split
  · split <;> rfl
  · rfl

/-- Nor does asking the host for a circuit. -/
theorem index_ask (heap : Heap) (call : Call env Slot) (slot : Slot) (path : String) :
    (call.ask env (view strangers heap) slot path).index = call.index := by
  rw [Call.ask]
  split
  · rfl
  · split <;> rfl

/-- Nor does what a fetch comes to. -/
theorem index_settle (call : Call env Slot) {spec : Spec} (phase : FetchPinned.Phase env spec) :
    (call.settle env phase).index = call.index := by
  unfold Call.settle
  split <;> rfl

/-- **What a step of a call keeps while the pins stand.** -/
theorem CallSound.step (hwf : m.WellFormed) (hstand : Stand m heap)
    (hm : heap[manifestRef]? = some (manifestObj m)) (h : CallSound m callers files c call)
    {call' : Call env Slot} {e : Provision.Event} (hkeeps : e.overwrites = false)
    (hstep : Provision.step env (view strangers heap) (callers.dir c) (callers.uuid c)
      (files, call) e = some (files', call')) : CallSound m callers files' c call' := by
  have hdone := h.done
  have hsound := h.stage
  cases Provision.moves_of_step hstep with
  | made | failed | thrown | thrownAfter => exact ⟨hdone, trivial⟩
  | entered =>
      have henter := enter_sound strangers hwf hstand hm h
      exact ⟨hdone, henter⟩
  | @examined slot path expected hstage =>
      rw [hstage] at hsound
      have hexamine := examine_sound hsound
      refine ⟨?_, ?_⟩
      · rw [index_examine]
        exact hdone
      · rw [index_examine]
        exact hexamine
  | @asked slot path hstage =>
      rw [hstage] at hsound
      have hask := ask_sound strangers files hstand hsound
      refine ⟨?_, ?_⟩
      · rw [index_ask]
        exact hdone
      · rw [index_ask]
        exact hask
  | continued hstage =>
      refine ⟨fun j hj circuit hget => ?_, trivial⟩
      rcases Nat.lt_succ_iff_lt_or_eq.mp hj with hlt | rfl
      · exact hdone j hlt circuit hget
      · rcases hstage with hstage | hstage
        · rw [hstage] at hsound
          exact hsound circuit hget
        · rw [hstage] at hsound
          exact hsound circuit hget
  | @fetched spec phase phase' e _ hstage hfetch =>
      rw [hstage] at hsound
      obtain ⟨hfits, hholds⟩ := hsound
      have hsettle := settle_sound hfits hholds hkeeps hfetch
      refine ⟨?_, ?_⟩
      · rw [index_settle]
        intro j hj circuit hget
        have hmem := List.mem_of_getElem? hget
        exact intact_of_fetch hfits hholds hfetch hmem (hwf.ids circuit hmem)
          (hdone j hj circuit hget)
      · rw [index_settle]
        exact hsettle

end Step

/-! ### What the process keeps -/

/-- The pins stand, the export is as it was, and every call is sound. -/
structure Sound (m : Manifest) (callers : Callers) (s : Process env) : Prop where
  stand : Stand m s.heap
  manifest : s.heap[manifestRef]? = some (manifestObj m)
  calls : ∀ c, CallSound m callers s.files c (s.calls c)

/-- **A process starts sound**: the pins stand, and no call has begun. -/
theorem sound_start (m : Manifest) (callers : Callers) (files : Files.Store) :
    Sound m callers (Process.start env m files) where
  stand := stand_heapOf m
  manifest := manifest_heapOf m
  calls _ := ⟨fun j hj => absurd hj (Nat.not_lt_zero j), trivial⟩

/-- The export is frozen, as `Object.freeze` leaves it. -/
theorem frozen_manifest (m : Manifest) : (manifestObj m).Frozen :=
  Obj.frozen_freeze rfl

/-- No write to the export moves a pin. -/
theorem Stand.of_target {heap : Heap} (h : Stand m heap)
    (hm : heap[manifestRef]? = some (manifestObj m)) {mutation : Mutation}
    (htarget : mutation.target = some manifestRef) : Stand m (heap.mutate mutation) := by
  rw [Heap.mutate_target_frozen hm (frozen_manifest m) htarget]
  exact h

/-- A call changes none of the files that another call relies on. -/
theorem CallSound.of_other {files files' : Files.Store} {heap : Heap} {c c' : ℕ}
    {call other : Call env Slot} {call' : Call env Slot} {e : Provision.Event} (hwf : m.WellFormed)
    (hother : CallSound m callers files c' other) (hne : c' ≠ c)
    (h : CallSound m callers files c call)
    (hstep : Provision.step env (view strangers heap) (callers.dir c) (callers.uuid c)
      (files, call) e = some (files', call')) : CallSound m callers files' c' other := by
  have hsound := h.stage
  cases Provision.moves_of_step hstep with
  | made | entered | examined | asked | continued | failed | thrown | thrownAfter => exact hother
  | fetched hstage hfetch =>
      rw [hstage] at hsound
      obtain ⟨hfits, hholds⟩ := hsound
      refine hother.of_agree (fun circuit hcircuit =>
        intact_of_fetch hfits hholds hfetch hcircuit (hwf.ids circuit hcircuit)) fun path => ?_
      obtain ⟨id, hpath, hwell, -, -⟩ := hfits
      refine FetchPinned.step_frame hfetch ?_ fun heq => hne (callers.partialPath_unique heq).1
      rw [hpath]
      exact (callers.join_ne_partialPath hwell path c' _).symm

/-- **What every step keeps**, as long as the writes leave the pins standing. -/
theorem Sound.step (hwf : m.WellFormed) {s s' : Process env} {act : Act} (h : Sound m callers s)
    (hspares : Process.Spares env m s act)
    (hkeeps : ∀ c e, act = .call c e → e.overwrites = false)
    (hstep : Process.step env strangers callers s act = some s') : Sound m callers s' := by
  cases act with
  | write mutation =>
      obtain rfl := Option.some.inj hstep
      exact ⟨hspares.2, Heap.mutate_of_frozen h.manifest (frozen_manifest m) mutation, h.calls⟩
  | call c e =>
      obtain ⟨⟨files', call'⟩, hcall, hnext⟩ := Option.map_eq_some_iff.mp hstep
      subst hnext
      refine ⟨h.stand, h.manifest, fun c' => ?_⟩
      by_cases hc : c' = c
      · subst hc
        change CallSound m callers files' c' (Function.update s.calls c' call' c')
        rw [Function.update_self]
        exact (h.calls c').step hwf h.stand h.manifest (hkeeps c' e rfl) hcall
      · change CallSound m callers files' c' (Function.update s.calls c call' c')
        rw [Function.update_of_ne hc]
        exact (h.calls c').of_other hwf hc (h.calls c) hcall

/-- A sound process keeps its pins: a call that has resolved finds the shipped bytes. -/
theorem Sound.keepsPins {s : Process env} (h : Sound m callers s) :
    Process.KeepsPins env m callers s := by
  intro c hstage
  have hsound := (h.calls c).stage
  rw [hstage] at hsound
  exact hsound

/-- A run whose writes all leave the pins standing, and go to no buffer, is sound in every
state. -/
theorem sound_of_run (hwf : m.WellFormed) {files : Files.Store} {acts : List Act} {s : Process env}
    (hkeeps : KeepsBuffers acts)
    (hspares : Meets (Process.step env strangers callers) (Process.Spares env m)
      (Process.start env m files) acts)
    (hrun : exec (Process.step env strangers callers) (Process.start env m files) acts = some s) :
    Sound m callers s := by
  have howned : Meets (Process.step env strangers callers)
      (fun _ act => ∀ c e, act = .call c e → e.overwrites = false) (Process.start env m files)
      acts := meets_of_forall fun act hact s c e heq => hkeeps c e (heq ▸ hact)
  exact exec_invariant_of_meets (fun _ _ _ hu hok hstep => hu.step hwf hok.1 hok.2 hstep) hrun
    (meets_and hspares howned) (sound_start m callers files)

/-- **The pins hold** in every state of every run whose writes all leave them standing, and go to no
buffer that a call was handed: a call that has resolved finds the shipped bytes under every
shipped id. -/
theorem pins_hold (strangers : Strangers) (callers : Callers) {files : Files.Store}
    {acts : List Act} (hkeeps : KeepsBuffers acts)
    (hspares : Meets (Process.step env strangers callers) (Process.Spares env shippedManifest)
      (Process.start env shippedManifest files) acts) :
    Always (Process.step env strangers callers) (Process.KeepsPins env shippedManifest callers)
      (Process.start env shippedManifest files) acts := by
  rintro before after s rfl hrun
  exact (sound_of_run shippedManifest_wellFormed
    (fun c e hmem => hkeeps c e (List.mem_append_left _ hmem))
    (meets_append_iff.mp hspares).1 hrun).keepsPins

/-! ### Two runs -/

/-- No one else's code answers anything. -/
def sampleStrangers : Strangers where
  next _ _ := .ok none
  get _ _ _ := .undefined
  shown _ _ := .null
  shown_ne_string := by
    intro heap r s h
    cases h
  source _ _ := .error (.error "")

/-- The suffix of a fetch: as many letters as the call says, and as many as the place says. -/
def sampleUuid (c i : ℕ) : String :=
  String.ofList (List.replicate c 'a' ++ '-' :: List.replicate i 'a')

/-- All calls provision one directory. -/
def sampleCallers : Callers where
  dir _ := ⟨"c/"⟩
  uuid := sampleUuid
  dir_slash := by
    intro c ch h
    have hlast : "c/".toList.getLast? = some '/' := by decide
    exact (Option.some.inj (hlast.symm.trans h)).symm
  uuid_plain := by
    intro c i ch hch
    rw [sampleUuid, String.toList_ofList, List.mem_append, List.mem_cons, List.mem_replicate,
      List.mem_replicate] at hch
    rcases hch with ⟨-, rfl⟩ | rfl | ⟨-, rfl⟩ <;> decide
  uuid_distinct := by
    intro c i c' i' h
    have hchars := String.ofList_injective h
    have hplace := congrArg (List.idxOf '-') hchars
    rw [List.idxOf_append_of_notMem (by simp), List.idxOf_append_of_notMem (by simp)] at hplace
    have hlen := congrArg List.length hchars
    simp at hplace hlen
    omega

/-- A setting in which a file of one byte has the digest of the circuit with this number. -/
def numberedSetting : Setting where
  numberText _ := ""
  jsonText _ := .ok ""
  sha256 bytes := match bytes with
    | [b] => ((shippedManifest.circuits[b.toNat]?).map Circuit.sha256).getD ""
    | _ => ""
  umask := 0o022

/-- A directory with all the shipped circuits but the first one. -/
def shippedFiles : Files.Store := fun path =>
  (shippedManifest.circuits.zipIdx.tail.find? fun entry => "c/" ++ entry.1.id = path).map
    fun entry => ⟨[UInt8.ofNat entry.2], 0o644⟩

/-- Code assigns to the export, which is frozen. -/
def ignoredWrite : Mutation :=
  .assign manifestRef (.name "circuits") (.prim .undefined)

/-- Code assigns to the first entry, which is not frozen, but to a property that is no pin. -/
def harmlessWrite : Mutation :=
  .assign (entryRef 0) (.name "bytes") (.prim (.number (.finite 1)))

/-- The answer of a host with the bytes of the first circuit. -/
def shippedBytes : FetchPinned.Event :=
  .answer (.reply ⟨true, .finite 200, .finite 1, .ok [0]⟩)

/-- Both writes, and a call that fetches the first circuit, finds the others, and resolves. -/
def harmlessRun : List Act :=
  [.write harmlessWrite, .write ignoredWrite] ++
    ([.proceeds, .proceeds, .proceeds, .proceeds, .fetch shippedBytes, .fetch (.op .opened),
      .fetch (.op (.wrote 1)), .fetch (.op .closed), .fetch (.op .renamed), .proceeds] ++
      List.replicate 49 .proceeds : List Provision.Event).map (Act.call 0)

/-- The pins stand behind the write that is no harm. -/
theorem stand_harmlessWrite : Stand shippedManifest ((heapOf shippedManifest).mutate
    harmlessWrite) where
  entries := rfl
  iterator := rfl
  length := ⟨17, rfl, le_rfl⟩
  places i hi := by
    change i < 17 at hi
    interval_cases i <;> exact ⟨true, rfl⟩
  ids i circuit hi := by
    have hlt : i < 17 := (List.getElem?_eq_some_iff.mp hi).1
    interval_cases i <;> (obtain rfl := Option.some.inj hi; exact ⟨true, rfl⟩)
  digests i circuit hi := by
    have hlt : i < 17 := (List.getElem?_eq_some_iff.mp hi).1
    interval_cases i <;> (obtain rfl := Option.some.inj hi; exact ⟨true, rfl⟩)
  getters n i hn hi hlt := by
    obtain rfl : 17 = n := Option.some.inj hn
    exact absurd hlt (not_lt.mpr hi)
  others n i slot hn hi hlt := by
    obtain rfl : 17 = n := Option.some.inj hn
    exact absurd hlt (not_lt.mpr hi)

/-- Behind writes that move no pin, a call resolves and finds the shipped digests. -/
theorem pins_hold_harmlessRun :
    ∃ s : Process numberedSetting,
      exec (Process.step numberedSetting sampleStrangers sampleCallers)
        (Process.start numberedSetting shippedManifest shippedFiles) harmlessRun = some s ∧
      (s.calls 0).stage = .resolved ∧ (s.calls 0).fetched = 1 ∧
      ∀ circuit ∈ shippedManifest.circuits,
        isIntact numberedSetting s.files ("c/" ++ circuit.id) circuit.sha256 = true := by
  have hend : (exec (Process.step numberedSetting sampleStrangers sampleCallers)
      (Process.start numberedSetting shippedManifest shippedFiles) harmlessRun).map
      (fun s => ((match (s.calls 0).stage with | .resolved => true | _ => false),
        (s.calls 0).fetched)) = some (true, 1) := by decide +kernel
  obtain ⟨s, hrun, hs⟩ := Option.map_eq_some_iff.mp hend
  obtain ⟨hstage, hfetched⟩ := Prod.mk.inj hs
  have hresolved : (s.calls 0).stage = .resolved := by
    split at hstage
    · assumption
    · cases hstage
  have hkeeps : KeepsBuffers harmlessRun := by
    have hall : harmlessRun.all (fun act => match act with
        | .call _ e => !e.overwrites
        | .write _ => true) = true := by decide
    intro c e hmem
    simpa using List.all_eq_true.mp hall _ hmem
  have hspares : Meets (Process.step numberedSetting sampleStrangers sampleCallers)
      (Process.Spares numberedSetting shippedManifest)
      (Process.start numberedSetting shippedManifest shippedFiles) harmlessRun := by
    refine ⟨⟨?_, stand_harmlessWrite⟩, fun s' hs' => ⟨⟨?_, ?_⟩, fun s'' _ => meets_of_forall ?_⟩⟩
    · intro r hr
      obtain rfl := Option.some.inj hr
      decide
    · intro r hr
      obtain rfl := Option.some.inj hr
      decide
    · obtain rfl := Option.some.inj hs'
      exact stand_harmlessWrite.of_target
        (Heap.mutate_of_frozen (manifest_heapOf _) (frozen_manifest _) harmlessWrite) rfl
    · intro act hact s
      obtain ⟨e, -, rfl⟩ := List.mem_map.mp hact
      trivial
  have hpins := pins_hold sampleStrangers sampleCallers hkeeps hspares harmlessRun []
    s (List.append_nil _).symm hrun
  exact ⟨s, hrun, hresolved, hfetched, hpins 0 hresolved⟩

/-- The answer of a host with one byte. -/
def pinnedByte : FetchPinned.Event :=
  .answer (.reply ⟨true, .finite 200, .finite 1, .ok [0x7F]⟩)

/-- Code moves the first pin to a byte of its own and cuts the array behind it; a call fetches
this byte, and resolves. -/
def movedPin : List Act :=
  [.write (.assign (entryRef 0) (.name "sha256") (text "pinned")),
    .write (.assign (entryRef 0) (.name "bytes") (.prim (.number (.finite 1)))),
    .write (.setLength circuitsRef 1), .call 0 .proceeds, .call 0 .proceeds, .call 0 .proceeds,
    .call 0 .proceeds, .call 0 (.fetch pinnedByte), .call 0 (.fetch (.op .opened)),
    .call 0 (.fetch (.op (.wrote 1))), .call 0 (.fetch (.op .closed)),
    .call 0 (.fetch (.op .renamed)), .call 0 .proceeds, .call 0 .proceeds]

/-- **A pin that is written to lets other bytes in**, and the circuits behind it are skipped. -/
theorem not_pins_hold_movedPin :
    ¬ Always (Process.step Provision.sampleSetting sampleStrangers sampleCallers)
      (Process.KeepsPins Provision.sampleSetting shippedManifest sampleCallers)
      (Process.start Provision.sampleSetting shippedManifest fun _ => none) movedPin := by
  intro hkeeps
  have hlast := hkeeps movedPin [] _ (List.append_nil _).symm rfl
  have hintact := hlast 0 rfl _ List.mem_cons_self
  exact absurd hintact (by decide +kernel)

end Pins

end EightEen
