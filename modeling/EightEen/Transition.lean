import Mathlib.Data.List.Basic

/-!
# Runs of a Transition System

A program that waits is modelled as a partial step function on states and events, where
`none` says that the event cannot happen. A run is a list of events taken one after the
other (`exec`). The rules here are the ones that every development of this shape needs: a
run is cut in two, an invariant is carried along a run, and events that do not matter are
deleted from it.

## Main results

* `exec_invariant`: what every step preserves, every run preserves.
* `exec_invariant_of_meets`: the same for the runs whose steps all meet a condition.
* `always_iff_meets`: when a property holds throughout a run.
* `exec_history`: what relates the state to the events so far.
* `exec_simulation`: related states stay related along a run.
* `exec_filter`: a run with its invisible events deleted is a run to a related state.
* `exec_filterMap`: a run of the whole is a run of each of its parts.
-/

namespace Transition

variable {σ τ ε : Type}

/-- The state after the events, or `none` if one of them could not happen. -/
def exec (step : σ → ε → Option σ) : σ → List ε → Option σ
  | s, [] => some s
  | s, e :: events => (step s e).bind fun s' => exec step s' events

@[simp] theorem exec_nil (step : σ → ε → Option σ) (s : σ) : exec step s [] = some s := rfl

/-- A run starts with a step. -/
theorem exec_cons_eq_some_iff {step : σ → ε → Option σ} {s t : σ} {e : ε} {events : List ε} :
    exec step s (e :: events) = some t ↔
      ∃ s', step s e = some s' ∧ exec step s' events = some t := by
  rw [exec, Option.bind_eq_some_iff]

/-- A run is cut in two at any event. -/
theorem exec_append_eq_some_iff {step : σ → ε → Option σ} {s t : σ} {before after : List ε} :
    exec step s (before ++ after) = some t ↔
      ∃ s', exec step s before = some s' ∧ exec step s' after = some t := by
  induction before generalizing s with
  | nil => simp
  | cons e before ih =>
      rw [List.cons_append, exec_cons_eq_some_iff]
      constructor
      · rintro ⟨s', hstep, hrun⟩
        obtain ⟨u, hbefore, hafter⟩ := ih.mp hrun
        exact ⟨u, exec_cons_eq_some_iff.mpr ⟨s', hstep, hbefore⟩, hafter⟩
      · rintro ⟨u, hbefore, hafter⟩
        obtain ⟨s', hstep, hrun⟩ := exec_cons_eq_some_iff.mp hbefore
        exact ⟨s', hstep, ih.mpr ⟨u, hrun, hafter⟩⟩

/-! ### Invariants -/

/-- Every step of the run meets the condition, in the state it is taken in. -/
def Meets (step : σ → ε → Option σ) (ok : σ → ε → Prop) : σ → List ε → Prop
  | _, [] => True
  | s, e :: events => ok s e ∧ ∀ s', step s e = some s' → Meets step ok s' events

/-- Whether a given run meets a condition is found out by running it. -/
instance decidableMeets {step : σ → ε → Option σ} {ok : σ → ε → Prop}
    [∀ s e, Decidable (ok s e)] : ∀ s events, Decidable (Meets step ok s events)
  | _, [] => isTrue trivial
  | s, e :: events =>
      match h : step s e with
      | none => decidable_of_iff (ok s e)
          ⟨fun hok => ⟨hok, fun _ hs' => nomatch h.symm.trans hs'⟩, And.left⟩
      | some s' =>
          have : Decidable (Meets step ok s' events) := decidableMeets s' events
          decidable_of_iff (ok s e ∧ Meets step ok s' events)
            ⟨fun hok => ⟨hok.1, fun _ hs' => Option.some.inj (h.symm.trans hs') ▸ hok.2⟩,
              fun hmeets => ⟨hmeets.1, hmeets.2 s' h⟩⟩

/-- A condition that every event of the run meets in every state. -/
theorem meets_of_forall {step : σ → ε → Option σ} {ok : σ → ε → Prop} {s : σ} {events : List ε}
    (h : ∀ e ∈ events, ∀ s, ok s e) : Meets step ok s events := by
  induction events generalizing s with
  | nil => trivial
  | cons e events ih =>
      refine ⟨h e List.mem_cons_self s, fun s' _ => ih fun e' he' => ?_⟩
      exact h e' (List.mem_cons_of_mem _ he')

/-- A run that meets two conditions meets both at each step. -/
theorem meets_and {step : σ → ε → Option σ} {ok ok' : σ → ε → Prop} {s : σ} {events : List ε}
    (h : Meets step ok s events) (h' : Meets step ok' s events) :
    Meets step (fun s e => ok s e ∧ ok' s e) s events := by
  induction events generalizing s with
  | nil => trivial
  | cons e events ih =>
      exact ⟨⟨h.1, h'.1⟩, fun s' hs' => ih (h.2 s' hs') (h'.2 s' hs')⟩

/-- A run meets a condition when its beginning does, and its rest in the state behind that. -/
theorem meets_append_iff {step : σ → ε → Option σ} {ok : σ → ε → Prop} {s : σ}
    {before after : List ε} :
    Meets step ok s (before ++ after) ↔
      Meets step ok s before ∧ ∀ t, exec step s before = some t → Meets step ok t after := by
  induction before generalizing s with
  | nil => simp [Meets]
  | cons e before ih =>
      rw [List.cons_append, Meets, Meets]
      constructor
      · rintro ⟨hok, hrest⟩
        refine ⟨⟨hok, fun s' hs' => (ih.mp (hrest s' hs')).1⟩, fun t ht => ?_⟩
        obtain ⟨s', hs', hrun⟩ := exec_cons_eq_some_iff.mp ht
        exact (ih.mp (hrest s' hs')).2 t hrun
      · rintro ⟨⟨hok, hbefore⟩, hafter⟩
        refine ⟨hok, fun s' hs' => ih.mpr ⟨hbefore s' hs', fun t ht => ?_⟩⟩
        exact hafter t (exec_cons_eq_some_iff.mpr ⟨s', hs', ht⟩)

/-- **An invariant of the steps that meet a condition** is an invariant of the runs whose
steps all meet it. -/
theorem exec_invariant_of_meets {step : σ → ε → Option σ} {ok : σ → ε → Prop} {I : σ → Prop}
    (hstep : ∀ s e s', I s → ok s e → step s e = some s' → I s') {s t : σ} {events : List ε}
    (hrun : exec step s events = some t) (hmeets : Meets step ok s events) (hs : I s) : I t := by
  induction events generalizing s with
  | nil =>
      obtain rfl := Option.some.inj hrun
      exact hs
  | cons e events ih =>
      obtain ⟨s', hs', hrest⟩ := exec_cons_eq_some_iff.mp hrun
      exact ih hrest (hmeets.2 s' hs') (hstep s e s' hs hmeets.1 hs')

/-- **An invariant of the steps is an invariant of the runs.** -/
theorem exec_invariant {step : σ → ε → Option σ} {I : σ → Prop}
    (hstep : ∀ s e s', I s → step s e = some s' → I s') {s t : σ} {events : List ε}
    (hrun : exec step s events = some t) (hs : I s) : I t := by
  induction events generalizing s with
  | nil =>
      obtain rfl := Option.some.inj hrun
      exact hs
  | cons e events ih =>
      obtain ⟨s', hs', hrest⟩ := exec_cons_eq_some_iff.mp hrun
      exact ih hrest (hstep s e s' hs hs')

/-- `P` holds in every state that the run passes through, its first and its last
included. -/
def Always (step : σ → ε → Option σ) (P : σ → Prop) (s : σ) (events : List ε) : Prop :=
  ∀ before after s', events = before ++ after → exec step s before = some s' → P s'

theorem always_cons_iff {step : σ → ε → Option σ} {P : σ → Prop} {s s' : σ} {e : ε}
    {events : List ε} (hstep : step s e = some s') :
    Always step P s (e :: events) ↔ P s ∧ Always step P s' events := by
  constructor
  · intro h
    refine ⟨h [] _ s rfl rfl, fun before after t heq hrun => ?_⟩
    exact h (e :: before) after t (by rw [heq, List.cons_append])
      (exec_cons_eq_some_iff.mpr ⟨s', hstep, hrun⟩)
  · rintro ⟨hs, hrest⟩ before after t heq hrun
    cases before with
    | nil =>
        obtain rfl := Option.some.inj hrun
        exact hs
    | cons e' before =>
        obtain ⟨rfl, htail⟩ := List.cons.inj heq
        obtain ⟨u, hu, hrun⟩ := exec_cons_eq_some_iff.mp hrun
        obtain rfl : s' = u := Option.some.inj (hstep.symm.trans hu)
        exact hrest before after t htail hrun

/-- **The exact condition for a property of all states**: if a step out of a state with the
property leads to one with it exactly when the step meets `ok`, then a run has the property
throughout exactly when its steps all meet `ok`. -/
theorem always_iff_meets {step : σ → ε → Option σ} {I P : σ → Prop} {ok : σ → ε → Prop}
    (hI : ∀ s e s', I s → step s e = some s' → I s')
    (hok : ∀ s e s', I s → P s → step s e = some s' → (P s' ↔ ok s e)) {s t : σ}
    {events : List ε} (hrun : exec step s events = some t) (hs : I s) (hP : P s) :
    Always step P s events ↔ Meets step ok s events := by
  induction events generalizing s with
  | nil =>
      refine iff_of_true (fun before after s' heq hrun' => ?_) trivial
      obtain ⟨rfl, -⟩ := List.append_eq_nil_iff.mp heq.symm
      obtain rfl := Option.some.inj hrun'
      exact hP
  | cons e events ih =>
      obtain ⟨s', hstep, hrest⟩ := exec_cons_eq_some_iff.mp hrun
      have hs' := hI s e s' hs hstep
      rw [always_cons_iff hstep, Meets]
      constructor
      · rintro ⟨-, hrest'⟩
        have hP' : P s' := hrest' [] _ s' rfl rfl
        refine ⟨(hok s e s' hs hP hstep).mp hP', fun u hu => ?_⟩
        obtain rfl : s' = u := Option.some.inj (hstep.symm.trans hu)
        exact (ih hrest hs' hP').mp hrest'
      · rintro ⟨hmeets, hrest'⟩
        have hP' : P s' := (hok s e s' hs hP hstep).mpr hmeets
        exact ⟨hP, (ih hrest hs' hP').mpr (hrest' s' hstep)⟩

/-! ### Histories -/

/-- Every event meets the condition, given the events before it. -/
def Along (ok : List ε → ε → Prop) : List ε → List ε → Prop
  | _, [] => True
  | done, e :: events => ok done e ∧ Along ok (done ++ [e]) events

/-- Events behind others meet a condition that may look back at all before them. -/
theorem along_append_iff {ok : List ε → ε → Prop} {done before after : List ε} :
    Along ok done (before ++ after) ↔
      Along ok done before ∧ Along ok (done ++ before) after := by
  induction before generalizing done with
  | nil => simp [Along]
  | cons e before ih => rw [List.cons_append, Along, Along, ih, and_assoc, List.append_assoc,
      List.singleton_append]

/-- **A property of histories** that every event keeps which meets the condition. -/
theorem along_induction {ok : List ε → ε → Prop} {J : List ε → Prop}
    (hstep : ∀ done e, J done → ok done e → J (done ++ [e])) {events : List ε}
    (h : Along ok [] events) (hJ : J []) : J events := by
  have hgen : ∀ done, Along ok done events → J done → J (done ++ events) := by
    clear h
    induction events with
    | nil =>
        intro done _ hdone
        rwa [List.append_nil]
    | cons e events ih =>
        intro done h hdone
        have hrest := ih _ h.2 (hstep done e hdone h.1)
        rwa [List.append_assoc] at hrest
  exact hgen [] h hJ

/-- **A relation between the history and the state** that every step keeps. -/
theorem exec_history {step : σ → ε → Option σ} {J : List ε → σ → Prop}
    (hstep : ∀ done s e s', J done s → step s e = some s' → J (done ++ [e]) s') {s t : σ}
    {events : List ε} (hrun : exec step s events = some t) (hJ : J [] s) : J events t := by
  have hgen : ∀ done, J done s → J (done ++ events) t := by
    clear hJ
    induction events generalizing s with
    | nil =>
        intro done hdone
        obtain rfl := Option.some.inj hrun
        rwa [List.append_nil]
    | cons e events ih =>
        intro done hdone
        obtain ⟨s', hs', hrest⟩ := exec_cons_eq_some_iff.mp hrun
        have h := ih hrest _ (hstep done s e s' hdone hs')
        rwa [List.append_assoc] at h
  exact hgen [] hJ

/-- The run takes this step, from one state to the other. -/
def Takes (step : σ → ε → Option σ) (s : σ) (events : List ε) (e : ε) (u v : σ) : Prop :=
  ∃ before after, events = before ++ e :: after ∧ exec step s before = some u ∧
    step u e = some v

/-- The run up to a step that it takes, and the rest of it. -/
theorem Takes.split {step : σ → ε → Option σ} {s t u v : σ} {e : ε} {events : List ε}
    (h : Takes step s events e u v) (hrun : exec step s events = some t) :
    ∃ before after, events = before ++ e :: after ∧ exec step s before = some u ∧
      step u e = some v ∧ exec step v after = some t := by
  obtain ⟨before, after, rfl, hbefore, hstep⟩ := h
  obtain ⟨u', hu', hrest⟩ := exec_append_eq_some_iff.mp hrun
  obtain rfl : u = u' := Option.some.inj (hbefore.symm.trans hu')
  obtain ⟨v', hv', hafter⟩ := exec_cons_eq_some_iff.mp hrest
  obtain rfl : v = v' := Option.some.inj (hstep.symm.trans hv')
  exact ⟨before, after, rfl, hbefore, hstep, hafter⟩

/-- A step that a run has taken has been taken by a longer run. -/
theorem Takes.append {step : σ → ε → Option σ} {s u v : σ} {e : ε} {events : List ε}
    (h : Takes step s events e u v) (more : List ε) : Takes step s (events ++ more) e u v := by
  obtain ⟨before, after, rfl, hbefore, hstep⟩ := h
  exact ⟨before, after ++ more, by rw [List.append_assoc, List.cons_append], hbefore, hstep⟩

/-! ### Simulations -/

/-- **A simulation of the steps is a simulation of the runs.** -/
theorem exec_simulation {step : σ → ε → Option σ} {step' : τ → ε → Option τ} {R : σ → τ → Prop}
    (hstep : ∀ s e s' t, R s t → step s e = some s' → ∃ t', step' t e = some t' ∧ R s' t')
    {s s' : σ} {t : τ} {events : List ε} (hrun : exec step s events = some s') (hR : R s t) :
    ∃ t', exec step' t events = some t' ∧ R s' t' := by
  induction events generalizing s t with
  | nil =>
      obtain rfl := Option.some.inj hrun
      exact ⟨t, rfl, hR⟩
  | cons e events ih =>
      obtain ⟨u, hu, hrest⟩ := exec_cons_eq_some_iff.mp hrun
      obtain ⟨v, hv, hRv⟩ := hstep s e u t hR hu
      obtain ⟨t', ht', hR'⟩ := ih hrest hRv
      exact ⟨t', exec_cons_eq_some_iff.mpr ⟨v, hv, ht'⟩, hR'⟩

/-! ### Deleting events -/

/-- **Deleting events**: if an event that is kept takes related states to related states,
and one of the others leaves its state related to the same one, then the run with only
the kept events is a run too, and ends in a related state. -/
theorem exec_filter {step : σ → ε → Option σ} {step' : τ → ε → Option τ} {R : σ → τ → Prop}
    {keep : ε → Bool} {events : List ε}
    (hkept : ∀ s e s' t, keep e = true → R s t → step s e = some s' →
      ∃ t', step' t e = some t' ∧ R s' t')
    (hdropped : ∀ s e s' t, e ∈ events → keep e = false → R s t → step s e = some s' → R s' t)
    {s s' : σ} {t : τ} (hrun : exec step s events = some s') (hR : R s t) :
    ∃ t', exec step' t (events.filter keep) = some t' ∧ R s' t' := by
  induction events generalizing s t with
  | nil =>
      obtain rfl := Option.some.inj hrun
      exact ⟨t, rfl, hR⟩
  | cons e events ih =>
      obtain ⟨u, hu, hrest⟩ := exec_cons_eq_some_iff.mp hrun
      have hrec := @ih fun s e' s' t he' => hdropped s e' s' t (List.mem_cons_of_mem _ he')
      cases hk : keep e with
      | true =>
          obtain ⟨t', ht', hR'⟩ := hkept s e u t hk hR hu
          obtain ⟨v, hv, hRv⟩ := hrec hrest hR'
          rw [List.filter_cons_of_pos hk]
          exact ⟨v, exec_cons_eq_some_iff.mpr ⟨t', ht', hv⟩, hRv⟩
      | false =>
          rw [List.filter_cons_of_neg (by simp [hk])]
          exact hrec hrest (hdropped s e u t List.mem_cons_self hk hR hu)

/-- **The run of a part**: if the events that concern a part of the state are steps of that
part, and the others leave it as it is, then a run of the whole is a run of the part. -/
theorem exec_filterMap {δ : Type} {step : σ → ε → Option σ} {step' : τ → δ → Option τ}
    {part : σ → τ} {own : ε → Option δ}
    (howned : ∀ s e d s', own e = some d → step s e = some s' →
      step' (part s) d = some (part s'))
    (hothers : ∀ s e s', own e = none → step s e = some s' → part s' = part s)
    {s s' : σ} {events : List ε} (hrun : exec step s events = some s') :
    exec step' (part s) (events.filterMap own) = some (part s') := by
  induction events generalizing s with
  | nil =>
      obtain rfl := Option.some.inj hrun
      rfl
  | cons e events ih =>
      obtain ⟨u, hu, hrest⟩ := exec_cons_eq_some_iff.mp hrun
      cases hown : own e with
      | some d =>
          rw [List.filterMap_cons_some hown]
          exact exec_cons_eq_some_iff.mpr ⟨part u, howned s e d u hown hu, ih hrest⟩
      | none =>
          rw [List.filterMap_cons_none hown, ← hothers s e u hown hu]
          exact ih hrest

end Transition
