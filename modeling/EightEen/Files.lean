import Mathlib.Data.List.Basic
import Mathlib.Logic.Function.Basic

/-!
# Installing a File

A store of regular files by path, and the way to put a file into it that no one ever sees half
done: the bytes are written beside the target, under a name of their own, and renamed onto it
when they are complete. Every operation may fail, and the installer may stop for good between
any two of them.

`Stage` is how far an installer is, and `step` is one operation, with its outcome as the
event. What a directory or another obstacle does to an operation is to make it fail, so the
store holds nothing but files.

## Main results

* `step_frame`: an installer touches its two paths and no others.
* `Holds.step`, `Holds.of_agree`: what the partial file holds at every stage, whatever happens
  at other paths.
* `step_target`: the target changes in one step, to the complete file, and the installer is done.
-/

namespace Files

/-- A regular file. -/
structure File where
  bytes : List UInt8
  mode : ℕ
  deriving DecidableEq

/-- The files, by path. -/
abbrev Store := String → Option File

namespace Store

/-- The store with another file at the path, or with none. -/
def set (s : Store) (path : String) (file : Option File) : Store :=
  Function.update s path file

/-- The file at the path is changed, if there is one. -/
def modify (s : Store) (path : String) (f : File → File) : Store :=
  s.set path ((s path).map f)

/-- The file at `source` takes the place of the one at `target`. -/
def rename (s : Store) (source target : String) : Store :=
  (s.set target (s source)).set source none

/-- What was put at a path is there. -/
@[simp] theorem set_self (s : Store) (path : String) (file : Option File) :
    s.set path file path = file := by
  rw [set, Function.update_self]

/-- Every other path has what it had. -/
theorem set_of_ne (s : Store) {path other : String} (h : other ≠ path) (file : Option File) :
    s.set path file other = s other := by
  rw [set, Function.update_of_ne h]

/-- What is modified at a path is what was there, and nothing comes of nothing. -/
@[simp] theorem modify_self (s : Store) (path : String) (f : File → File) :
    s.modify path f path = (s path).map f :=
  set_self s path _

/-- Every other path has what it had. -/
theorem modify_of_ne (s : Store) {path other : String} (h : other ≠ path) (f : File → File) :
    s.modify path f other = s other :=
  set_of_ne s h _

/-- After a rename there is nothing at the source. -/
@[simp] theorem rename_source (s : Store) (source target : String) :
    s.rename source target source = none :=
  set_self _ source none

/-- After a rename the target has what the source had. -/
theorem rename_target (s : Store) {source target : String} (h : target ≠ source) :
    s.rename source target target = s source := by
  rw [rename, set_of_ne _ h, set_self]

/-- Every other path has what it had. -/
theorem rename_of_ne (s : Store) {source target other : String} (hs : other ≠ source)
    (ht : other ≠ target) : s.rename source target other = s other := by
  rw [rename, set_of_ne _ hs, set_of_ne _ ht]

end Store

/-- What is to be installed: the bytes, the path they go to and the path they are written at,
the mode the file is created with, and the mode it is given afterwards, if any. -/
structure Job where
  body : List UInt8
  target : String
  beside : String
  created : ℕ
  mode : Option ℕ
  beside_ne : target ≠ beside

/-- The file that is installed. -/
def Job.file (job : Job) : File :=
  ⟨job.body, job.mode.getD job.created⟩

/-- How far an installer is. It fails with the error of the operation that failed, and may or
may not have removed its partial file before. -/
inductive Stage (ε : Type) where
  | opening
  | writing (done : ℕ)
  | chmodding
  | moving
  | unlinking (e : ε)
  | installed
  | failed (e : ε) (unlinked : Bool)
  | crashed

/-- The outcome of an operation. Bytes are written in any number of pieces, and `fails` is the
failure of whatever comes next on the way to the target. -/
inductive Op (ε : Type) where
  | opened
  | wrote (n : ℕ)
  | closed
  | chmodded
  | renamed
  | fails (e : ε)
  | unlinked
  | unlinkFails
  | crash

/-- The installer is on its way to the target. -/
def Stage.underway {ε : Type} : Stage ε → Bool
  | opening | writing _ | chmodding | moving => true
  | _ => false

/-- The installer has stopped. -/
def Stage.over {ε : Type} : Stage ε → Bool
  | installed | failed _ _ | crashed => true
  | _ => false

/-- One operation. The file is opened only where there is none, and its mode is set only when
one is asked for. -/
def step {ε : Type} (job : Job) : Store × Stage ε → Op ε → Option (Store × Stage ε)
  | (s, .opening), .opened =>
      if s job.beside = none then
        some (s.set job.beside (some ⟨[], job.created⟩), .writing 0)
      else none
  | (s, .writing done), .wrote n =>
      if done + n ≤ job.body.length then
        some (s.modify job.beside fun file =>
            { file with bytes := file.bytes ++ (job.body.drop done).take n },
          .writing (done + n))
      else none
  | (s, .writing done), .closed =>
      if done = job.body.length then
        some (s, if job.mode.isSome then .chmodding else .moving)
      else none
  | (s, .chmodding), .chmodded =>
      some (s.modify job.beside fun file => { file with mode := job.mode.getD file.mode },
        .moving)
  | (s, .moving), .renamed => some (s.rename job.beside job.target, .installed)
  | (s, stage), .fails e => if stage.underway then some (s, .unlinking e) else none
  | (s, .unlinking e), .unlinked => some (s.set job.beside none, .failed e true)
  | (s, .unlinking e), .unlinkFails => some (s, .failed e false)
  | (s, stage), .crash => if stage.over then none else some (s, .crashed)
  | _, _ => none

/-! ### What an operation does -/

/-- What each operation does: the store and the stage behind it. -/
inductive Moves {ε : Type} (job : Job) (s : Store) : Stage ε → Op ε → Store → Stage ε → Prop
  | opened (fresh : s job.beside = none) :
      Moves job s .opening .opened (s.set job.beside (some ⟨[], job.created⟩)) (.writing 0)
  | wrote {done n : ℕ} (fits : done + n ≤ job.body.length) :
      Moves job s (.writing done) (.wrote n)
        (s.modify job.beside fun file =>
          { file with bytes := file.bytes ++ (job.body.drop done).take n })
        (.writing (done + n))
  | closed : Moves job s (.writing job.body.length) .closed s
      (if job.mode.isSome then .chmodding else .moving)
  | chmodded : Moves job s .chmodding .chmodded
      (s.modify job.beside fun file => { file with mode := job.mode.getD file.mode }) .moving
  | renamed : Moves job s .moving .renamed (s.rename job.beside job.target) .installed
  | fails {stage : Stage ε} {e : ε} (live : stage.underway = true) :
      Moves job s stage (.fails e) s (.unlinking e)
  | unlinked {e : ε} : Moves job s (.unlinking e) .unlinked (s.set job.beside none)
      (.failed e true)
  | unlinkFails {e : ε} : Moves job s (.unlinking e) .unlinkFails s (.failed e false)
  | crash {stage : Stage ε} (live : stage.over = false) : Moves job s stage .crash s .crashed

section Step

variable {ε : Type} {job : Job} {s s' : Store} {stage stage' : Stage ε} {op : Op ε}

/-- **One operation, by its outcome.** -/
theorem moves_of_step (h : step job (s, stage) op = some (s', stage')) :
    Moves job s stage op s' stage' := by
  unfold step at h
  split at h
  · next heq =>
      cases heq
      split at h
      · next fresh => cases h; exact .opened fresh
      · cases h
  · next heq =>
      cases heq
      split at h
      · next fits => cases h; exact .wrote fits
      · cases h
  · next heq =>
      cases heq
      split at h
      · next hdone => subst hdone; cases h; exact .closed
      · cases h
  · next heq => cases heq; cases h; exact .chmodded
  · next heq => cases heq; cases h; exact .renamed
  · next heq =>
      cases heq
      split at h
      · next live => cases h; exact .fails live
      · cases h
  · next heq => cases heq; cases h; exact .unlinked
  · next heq => cases heq; cases h; exact .unlinkFails
  · next heq =>
      cases heq
      split at h
      · cases h
      · next live => cases h; exact .crash (by simpa using live)
  · cases h

/-- **An installer touches its two paths** and no others. -/
theorem step_frame (h : step job (s, stage) op = some (s', stage')) {path : String}
    (htarget : path ≠ job.target) (hbeside : path ≠ job.beside) : s' path = s path := by
  cases moves_of_step h with
  | opened fresh => exact s.set_of_ne hbeside _
  | wrote fits => exact s.modify_of_ne hbeside _
  | chmodded => exact s.modify_of_ne hbeside _
  | renamed => exact s.rename_of_ne hbeside htarget
  | unlinked => exact s.set_of_ne hbeside _
  | closed | fails | unlinkFails | crash => rfl

/-- What the partial file holds, by the stage of its installer. -/
def Holds (job : Job) (s : Store) : Stage ε → Prop
  | .writing done =>
      done ≤ job.body.length ∧ s job.beside = some ⟨job.body.take done, job.created⟩
  | .chmodding => s job.beside = some ⟨job.body, job.created⟩
  | .moving => s job.beside = some job.file
  | .installed | .failed _ true => s job.beside = none
  | _ => True

/-- Only the partial file matters. -/
theorem Holds.of_agree (h : Holds job s stage) (hagree : s' job.beside = s job.beside) :
    Holds job s' stage := by
  cases stage with
  | writing done => exact ⟨h.1, hagree.trans h.2⟩
  | chmodding | moving | installed => exact hagree.trans h
  | failed e unlinked =>
      cases unlinked with
      | true => exact hagree.trans h
      | false => trivial
  | opening | unlinking e | crashed => trivial

/-- **The partial file is what the stage says.** -/
theorem Holds.step (hholds : Holds job s stage) (h : step job (s, stage) op = some (s', stage')) :
    Holds job s' stage' := by
  cases moves_of_step h with
  | opened fresh => exact ⟨Nat.zero_le _, s.set_self _ _⟩
  | @wrote done n fits =>
      refine ⟨fits, ?_⟩
      rw [Store.modify_self, hholds.2, Option.map_some, ← List.take_add]
  | closed =>
      have hfile := hholds.2
      rw [List.take_length] at hfile
      split
      · exact hfile
      · next hmode =>
          rw [Holds, hfile, Job.file, Option.not_isSome_iff_eq_none.mp hmode, Option.getD_none]
  | chmodded =>
      have hfile : s job.beside = some ⟨job.body, job.created⟩ := hholds
      rw [Holds, Store.modify_self, hfile]
      rfl
  | renamed => exact s.rename_source _ _
  | fails live => trivial
  | unlinked => exact s.set_self _ _
  | unlinkFails => trivial
  | crash live => trivial

/-- **The target changes in one step**, to the complete file, and the installer is done. -/
theorem step_target (hholds : Holds job s stage)
    (h : Files.step job (s, stage) op = some (s', stage')) :
    s' job.target = s job.target ∨ s' job.target = some job.file ∧ stage' = .installed := by
  cases moves_of_step h with
  | opened fresh => exact Or.inl (s.set_of_ne job.beside_ne _)
  | wrote fits => exact Or.inl (s.modify_of_ne job.beside_ne _)
  | chmodded => exact Or.inl (s.modify_of_ne job.beside_ne _)
  | renamed => exact Or.inr ⟨(s.rename_target job.beside_ne).trans hholds, rfl⟩
  | unlinked => exact Or.inl (s.set_of_ne job.beside_ne _)
  | closed | fails | unlinkFails | crash => exact Or.inl rfl

/-- An installer is done by the rename, which has put the file there. -/
theorem step_installed (hholds : Holds job s stage)
    (h : Files.step job (s, stage) op = some (s', .installed)) :
    op = .renamed ∧ s' job.target = some job.file := by
  generalize hend : Stage.installed = stage' at h
  cases moves_of_step h with
  | renamed => exact ⟨rfl, (s.rename_target job.beside_ne).trans hholds⟩
  | closed => split at hend <;> cases hend
  | _ => cases hend

/-- Nothing happens to an installer that has stopped. -/
theorem step_of_over (hstage : stage.over = true) : step job (s, stage) op = none := by
  cases h : step job (s, stage) op with
  | none => rfl
  | some next =>
      obtain ⟨s', stage'⟩ := next
      exfalso
      cases moves_of_step h with
      | fails live => cases stage <;> cases hstage <;> cases live
      | crash live => rw [hstage] at live; cases live
      | _ => cases hstage

end Step

end Files
