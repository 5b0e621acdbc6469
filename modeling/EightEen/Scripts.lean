import Mathlib.Logic.Basic

/-!
# Scripts That Stop Where They Fail

A script is a program of `EStateM`: it goes from one operation to the next, the first
operation that fails ends it, and what the operations before have done to the state is not
taken back. The rules here cut a script in two and carry a relation between the first state and
the last one along it, wherever it stops.

## Main results

* `bind_eq_ok_iff`: a sequence returns when both parts do.
* `Relates.bind`, `Relates.forM`: a relation that the operations keep is kept by the script.
* `forM_eq_ok_iff`: a loop returns when all its rounds do.
-/

namespace Scripts

variable {ε σ α β : Type}

/-- The state that a script leaves, whether it returns or fails. -/
def after (m : EStateM ε σ α) (s : σ) : σ :=
  match m.run s with
  | .ok _ t => t
  | .error _ t => t

/-- A script that succeeds leaves the state that it returns with. -/
theorem after_of_ok {m : EStateM ε σ α} {s t : σ} {a : α} (h : m.run s = .ok a t) :
    after m s = t := by
  rw [after, h]

/-- A script that fails leaves the state that it fails in. -/
theorem after_of_error {m : EStateM ε σ α} {s t : σ} {e : ε} (h : m.run s = .error e t) :
    after m s = t := by
  rw [after, h]

/-- A script behind one that succeeds runs from the state which that one leaves. -/
theorem bind_of_ok {m : EStateM ε σ α} {s t : σ} {a : α} (h : m.run s = .ok a t)
    (f : α → EStateM ε σ β) : (m >>= f).run s = (f a).run t := by
  change EStateM.bind m f s = (f a).run t
  change m s = .ok a t at h
  rw [EStateM.bind, h]
  rfl

/-- A script behind one that fails does not run. -/
theorem bind_of_error {m : EStateM ε σ α} {s t : σ} {e : ε} (h : m.run s = .error e t)
    (f : α → EStateM ε σ β) : (m >>= f).run s = .error e t := by
  change EStateM.bind m f s = .error e t
  change m s = .error e t at h
  rw [EStateM.bind, h]

/-- A sequence of two scripts returns when both do. -/
theorem bind_eq_ok_iff {m : EStateM ε σ α} {f : α → EStateM ε σ β} {s t : σ} {b : β} :
    (m >>= f).run s = .ok b t ↔ ∃ a u, m.run s = .ok a u ∧ (f a).run u = .ok b t := by
  cases h : m.run s with
  | ok a u =>
      rw [bind_of_ok h]
      constructor
      · intro hf
        exact ⟨a, u, rfl, hf⟩
      · rintro ⟨a', u', heq, hf⟩
        cases heq
        exact hf
  | error e u =>
      rw [bind_of_error h]
      constructor
      · intro hf
        cases hf
      · rintro ⟨a, u', heq, -⟩
        cases heq

/-- So the two of them leave what the second one leaves. -/
theorem after_bind_of_ok {m : EStateM ε σ α} {s t : σ} {a : α} (h : m.run s = .ok a t)
    (f : α → EStateM ε σ β) : after (m >>= f) s = after (f a) t := by
  rw [after, after, bind_of_ok h]

/-- So the two of them leave what the first one leaves. -/
theorem after_bind_of_error {m : EStateM ε σ α} {s t : σ} {e : ε} (h : m.run s = .error e t)
    (f : α → EStateM ε σ β) : after (m >>= f) s = t :=
  after_of_error (bind_of_error h f)

/-- A script whose result is replaced leaves the same state. -/
theorem after_bind_pure (m : EStateM ε σ α) (b : β) (s : σ) :
    after (m >>= fun _ => Pure.pure b) s = after m s := by
  cases h : m.run s with
  | ok a t =>
      rw [after_bind_of_ok h, after_of_ok h]
      rfl
  | error e t => rw [after_bind_of_error h, after_of_error h]

/-- A pure result comes back as it is, over the same state. -/
theorem pure_eq_ok_iff {s t : σ} {a b : α} :
    (Pure.pure a : EStateM ε σ α).run s = .ok b t ↔ b = a ∧ t = s := by
  constructor
  · intro h
    cases h
    exact ⟨rfl, rfl⟩
  · rintro ⟨rfl, rfl⟩
    rfl

/-! ### Results of earlier calls -/

/-- A sequence of two calls returns when both do. -/
theorem call_eq_ok_iff {x : Except ε α} {f : α → Except ε β} {b : β} :
    x >>= f = .ok b ↔ ∃ a, x = .ok a ∧ f a = .ok b := by
  cases x with
  | ok a => simp [bind, Except.bind]
  | error e => simp [bind, Except.bind]

/-- The script that returns what a call returned. -/
def lift : Except ε α → EStateM ε σ α
  | .ok a => pure a
  | .error e => throw e

/-- A call that touches nothing and succeeds leaves the state as it was. -/
theorem lift_ok (a : α) (s : σ) : (lift (.ok a) : EStateM ε σ α).run s = .ok a s := rfl

/-- A call that touches nothing and fails leaves the state as it was. -/
theorem lift_error (e : ε) (s : σ) : (lift (.error e) : EStateM ε σ α).run s = .error e s := rfl

/-- **A call that touches nothing** succeeds as the call does, over the same state. -/
theorem lift_eq_ok_iff {x : Except ε α} {s t : σ} {a : α} :
    (lift x).run s = .ok a t ↔ x = .ok a ∧ t = s := by
  cases x with
  | ok b =>
      rw [lift_ok]
      constructor
      · intro h
        cases h
        exact ⟨rfl, rfl⟩
      · rintro ⟨h, rfl⟩
        cases h
        rfl
  | error e =>
      rw [lift_error]
      constructor
      · intro h
        cases h
      · rintro ⟨h, -⟩
        cases h

/-! ### Relations that are kept -/

/-- Wherever the script stops, the state it leaves is related to the one it started in. -/
def Relates (R : σ → σ → Prop) (m : EStateM ε σ α) : Prop :=
  ∀ s, R s (after m s)

variable {R : σ → σ → Prop}

/-- A pure result relates a state to itself, so any reflexive relation holds over it. -/
theorem Relates.pure (hrefl : ∀ s, R s s) (a : α) :
    Relates R (Pure.pure a : EStateM ε σ α) :=
  hrefl

/-- What both parts of a sequence keep, the sequence keeps. -/
theorem Relates.bind (htrans : ∀ s t u, R s t → R t u → R s u) {m : EStateM ε σ α}
    {f : α → EStateM ε σ β} (hm : Relates R m) (hf : ∀ a, Relates R (f a)) :
    Relates R (m >>= f) := by
  intro s
  cases h : m.run s with
  | ok a t =>
      rw [after_bind_of_ok h]
      exact htrans s t _ (after_of_ok h ▸ hm s) (hf a t)
  | error e t =>
      rw [after_bind_of_error h]
      exact after_of_error h ▸ hm s

/-- What the rest of a script keeps holds between the end of its first part and its end. -/
theorem Relates.after_bind (hrefl : ∀ s, R s s) {f : α → EStateM ε σ β}
    (hf : ∀ a, Relates R (f a)) (m : EStateM ε σ α) (s : σ) :
    R (after m s) (after (m >>= f) s) := by
  cases h : m.run s with
  | ok a t =>
      rw [after_bind_of_ok h, after_of_ok h]
      exact hf a t
  | error e t =>
      rw [after_bind_of_error h, after_of_error h]
      exact hrefl t

/-- A script that begins with the result of a call keeps what its rest keeps. -/
theorem Relates.lift_bind (hrefl : ∀ s, R s s) {x : Except ε α} {f : α → EStateM ε σ β}
    (hf : ∀ a, x = .ok a → Relates R (f a)) : Relates R (lift x >>= f) := by
  intro s
  cases x with
  | ok a =>
      rw [after_bind_of_ok (lift_ok a s)]
      exact hf a rfl s
  | error e =>
      rw [after_bind_of_error (lift_error e s)]
      exact hrefl s

/-- What every round of a loop keeps, the loop keeps. -/
theorem Relates.forM (hrefl : ∀ s, R s s) (htrans : ∀ s t u, R s t → R t u → R s u)
    {items : List α} {f : α → EStateM ε σ PUnit} (hf : ∀ a ∈ items, Relates R (f a)) :
    Relates R (forM items f) := by
  induction items with
  | nil => exact hrefl
  | cons a items ih =>
      rw [List.forM_cons]
      exact Relates.bind htrans (hf a List.mem_cons_self) fun _ =>
        ih fun a' ha' => hf a' (List.mem_cons_of_mem a ha')

/-- A loop returns exactly when all its rounds do, and has then done to the state what they do one
after the other. -/
theorem forM_eq_ok_iff {f : α → EStateM ε σ PUnit} {P : α → Prop} {g : σ → α → σ}
    (hf : ∀ a s t, (f a).run s = .ok ⟨⟩ t ↔ P a ∧ t = g s a) {items : List α} {s t : σ} :
    (forM items f).run s = .ok ⟨⟩ t ↔ (∀ a ∈ items, P a) ∧ t = items.foldl g s := by
  induction items generalizing s with
  | nil =>
      rw [List.forM_nil, pure_eq_ok_iff]
      simp
  | cons a items ih =>
      rw [List.forM_cons, bind_eq_ok_iff, List.forall_mem_cons, List.foldl_cons]
      constructor
      · rintro ⟨⟨⟩, u, hfirst, hrest⟩
        obtain ⟨ha, rfl⟩ := (hf a s u).mp hfirst
        obtain ⟨hitems, rfl⟩ := ih.mp hrest
        exact ⟨⟨ha, hitems⟩, rfl⟩
      · rintro ⟨⟨ha, hitems⟩, ht⟩
        exact ⟨⟨⟩, g s a, (hf a s _).mpr ⟨ha, rfl⟩, ih.mpr ⟨hitems, ht⟩⟩

end Scripts
