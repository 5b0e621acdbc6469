import Mathlib.Order.Basic

/-!
# Components That Answer

A component with one operation: a call finds the component in a state, gets an answer and
leaves a state. `answers` are the answers to a sequence of calls and `after` is the state
that they leave. The rules are those of a component that is compared with another one while
time passes: two components that are related at the time of a call, answer it alike and
stay related, give the same answers to every sequence of calls in time order.

## Main results

* `simulation`: related components give the same answers.
* `invariant`: what every call preserves that meets a condition holds at every call.
* `related_at`: related components are related at every call.
-/

namespace Answering

variable {σ τ α β T : Type}

/-- The answers to the calls, one after the other. -/
def answers (op : σ → α → β × σ) : σ → List α → List β
  | _, [] => []
  | s, a :: calls => (op s a).1 :: answers op (op s a).2 calls

/-- The state that the calls leave. -/
def after (op : σ → α → β × σ) (s : σ) (calls : List α) : σ :=
  calls.foldl (fun s a => (op s a).2) s

/-- Every call meets the condition, in the state that it finds. -/
def Meets (op : σ → α → β × σ) (ok : σ → α → Prop) : σ → List α → Prop
  | _, [] => True
  | s, a :: calls => ok s a ∧ Meets op ok (op s a).2 calls

/-- No calls leave the state as it was. -/
@[simp] theorem after_nil (op : σ → α → β × σ) (s : σ) : after op s [] = s := rfl

/-- A first call leaves the state that the others find. -/
@[simp] theorem after_cons (op : σ → α → β × σ) (s : σ) (a : α) (calls : List α) :
    after op s (a :: calls) = after op (op s a).2 calls := rfl

/-- Calls behind others find the state that those have left. -/
theorem after_append (op : σ → α → β × σ) (s : σ) (before rest : List α) :
    after op s (before ++ rest) = after op (after op s before) rest :=
  List.foldl_append

/-- **Every call gets one answer.** -/
@[simp] theorem length_answers (op : σ → α → β × σ) (s : σ) (calls : List α) :
    (answers op s calls).length = calls.length := by
  induction calls generalizing s with
  | nil => rfl
  | cons a calls ih => rw [answers, List.length_cons, List.length_cons, ih]

/-- Calls of one operation that are made as calls of another one. -/
theorem answers_map (op : σ → α → β × σ) {γ : Type} (f : γ → α) (s : σ) (calls : List γ) :
    answers op s (calls.map f) = answers (fun s c => op s (f c)) s calls := by
  induction calls generalizing s with
  | nil => rfl
  | cons c calls ih => rw [List.map_cons, answers, answers, ih]

/-- So it is with the state that they leave. -/
theorem after_map (op : σ → α → β × σ) {γ : Type} (f : γ → α) (s : σ) (calls : List γ) :
    after op s (calls.map f) = after (fun s c => op s (f c)) s calls :=
  List.foldl_map

/-- And with a condition that they meet. -/
theorem meets_map_iff {op : σ → α → β × σ} {ok : σ → α → Prop} {γ : Type} {f : γ → α} {s : σ}
    {calls : List γ} : Meets op ok s (calls.map f) ↔
      Meets (fun s c => op s (f c)) (fun s c => ok s (f c)) s calls := by
  induction calls generalizing s with
  | nil => exact Iff.rfl
  | cons c calls ih => rw [List.map_cons, Meets, Meets, ih]

/-- A condition that every call meets in every state. -/
theorem meets_of_forall {op : σ → α → β × σ} {ok : σ → α → Prop} (h : ∀ s a, ok s a) {s : σ}
    {calls : List α} : Meets op ok s calls := by
  induction calls generalizing s with
  | nil => trivial
  | cons a calls ih => exact ⟨h s a, ih⟩

/-- Calls behind others meet a condition in the state that those have left. -/
theorem meets_append_iff {op : σ → α → β × σ} {ok : σ → α → Prop} {s : σ}
    {before rest : List α} : Meets op ok s (before ++ rest) ↔
      Meets op ok s before ∧ Meets op ok (after op s before) rest := by
  induction before generalizing s with
  | nil => simp [Meets]
  | cons a before ih => rw [List.cons_append, Meets, Meets, ih, and_assoc, after_cons]

/-- Two conditions that every call meets. -/
theorem Meets.imp_of_and {op : σ → α → β × σ} {P Q R : σ → α → Prop}
    (h : ∀ s a, P s a → Q s a → R s a) {s : σ} {calls : List α} (hP : Meets op P s calls)
    (hQ : Meets op Q s calls) : Meets op R s calls := by
  induction calls generalizing s with
  | nil => trivial
  | cons a calls ih => exact ⟨h s a hP.1 hQ.1, ih hP.2 hQ.2⟩

/-! ### Time order -/

section Time

variable [Preorder T]

/-- The calls come in the order of their times. -/
def InOrder (time : α → T) (calls : List α) : Prop :=
  calls.Pairwise fun a b => time a ≤ time b

/-- **An invariant** of the calls that meet a condition holds at every call of a sequence
that meets it. It may speak of the time, as long as it survives a wait. -/
theorem invariant {time : α → T} {op : σ → α → β × σ} {ok : σ → α → Prop} {I : T → σ → Prop}
    (hlater : ∀ {now later s}, now ≤ later → I now s → I later s)
    (hcall : ∀ {s a}, ok s a → I (time a) s → I (time a) (op s a).2) {s : σ} {calls : List α}
    (hsorted : InOrder time calls) (hmeets : Meets op ok s calls)
    (hs : ∀ a ∈ calls, I (time a) s) : Meets op (fun s a => I (time a) s) s calls := by
  induction calls generalizing s with
  | nil => trivial
  | cons a calls ih =>
      rw [InOrder, List.pairwise_cons] at hsorted
      have ha := hs a List.mem_cons_self
      exact ⟨ha, ih hsorted.2 hmeets.2 fun b hb => hlater (hsorted.1 b hb) (hcall hmeets.1 ha)⟩

section Simulation

variable {time : α → T} {op : σ → α → β × σ} {op' : τ → α → β × τ} {ok : σ → α → Prop}
  {R : T → σ → τ → Prop}

/-- Components that are related at the time of every call and stay related are related at
any call of a sequence. -/
theorem related_at (hlater : ∀ {now later s t}, now ≤ later → R now s t → R later s t)
    (hcall : ∀ {s t a}, ok s a → R (time a) s t → R (time a) (op s a).2 (op' t a).2)
    {s : σ} {t : τ} {before rest : List α} {a : α}
    (hsorted : InOrder time (before ++ a :: rest)) (hmeets : Meets op ok s (before ++ a :: rest))
    (hR : ∀ b ∈ before ++ a :: rest, R (time b) s t) :
    R (time a) (after op s before) (after op' t before) := by
  induction before generalizing s t with
  | nil => exact hR a List.mem_cons_self
  | cons b before ih =>
      rw [InOrder, List.cons_append, List.pairwise_cons] at hsorted
      have hb := hcall hmeets.1 (hR b List.mem_cons_self)
      exact ih hsorted.2 hmeets.2 fun c hc => hlater (hsorted.1 c hc) hb

/-- **Simulation.** Components that are related at the time of every call, answer it alike
and stay related, give the same answers. -/
theorem simulation (hlater : ∀ {now later s t}, now ≤ later → R now s t → R later s t)
    (hcall : ∀ {s t a}, ok s a → R (time a) s t →
      (op s a).1 = (op' t a).1 ∧ R (time a) (op s a).2 (op' t a).2)
    {s : σ} {t : τ} {calls : List α} (hsorted : InOrder time calls)
    (hmeets : Meets op ok s calls) (hR : ∀ a ∈ calls, R (time a) s t) :
    answers op s calls = answers op' t calls := by
  induction calls generalizing s t with
  | nil => rfl
  | cons a calls ih =>
      rw [InOrder, List.pairwise_cons] at hsorted
      obtain ⟨hanswer, hrest⟩ := hcall hmeets.1 (hR a List.mem_cons_self)
      rw [answers, answers, hanswer,
        ih hsorted.2 hmeets.2 fun b hb => hlater (hsorted.1 b hb) hrest]

end Simulation

end Time

end Answering
