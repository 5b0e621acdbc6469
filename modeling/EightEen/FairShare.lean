import EightEen.Concurrent
import EightEen.Windows
import Mathlib.Data.Finset.Card

/-!
# The Share of a Client

What the limiter of a gate means on the wire. Requests ask it in the order in which they
come in, and wait, are answered and go on in any other order; whether one of them is
answered `429` is decided by the requests of its own client before it.

## Main results

* `served_of_run`: the limiter has seen the requests of its gate in their order, and each
  request has found what those before it left.
* `Stands.limited_iff`: a request is answered `429` exactly when the limiter has refused it.
* `clients_share_a_gate`: a client is refused by its own counter, and gets at most two
  windows' worth in any interval of the length of a window.
-/

open Js Transition Answering

namespace EightEen

variable {ι : Type} {p : Platform} {secret : Value} {S : NonceStore} {doors : ι → Door secret}

/-! ### `429` -/

/-- A response says that the client has asked too often. -/
def Limited (w : Wire) : Prop :=
  ∃ r ∈ w.responses, r.status = 429

/-- A request without a response has not been refused by the limiter. -/
theorem not_limited_of_nil {w : Wire} (h : w.responses = []) : ¬Limited w := by
  rintro ⟨r, hr, -⟩
  rw [h] at hr
  cases hr

/-- An error is the limiter's exactly when its status is `429`. -/
theorem limited_err_iff {status : ℕ} {reason : GateReason} {close : Bool} {w : Wire}
    (h : w.responses = []) : Limited (err p status reason close w).2 ↔ status = 429 := by
  obtain ⟨body, -, heq⟩ := err_eq p status reason close
  rw [heq, Limited]
  simp [h]

/-- What is sent in place of a refusal by the limiter does not look like one. -/
theorem not_limited_caught_send {status : ℕ} {obj : Value} {close : Bool} {w : Wire}
    (h : w.responses = []) (hstatus : status ≠ 429) :
    ¬Limited (caught p (send p status obj close w)).2 := by
  rw [send]
  split
  · rintro ⟨r, hr, h429⟩
    rw [caught, h, List.nil_append] at hr
    obtain rfl := List.mem_singleton.mp hr
    exact hstatus h429
  · rw [caught, limited_err_iff h]
    decide

/-- **The challenge route is behind the limiter**: none of its responses is a `429`. -/
theorem not_limited_challengeRoute {g : Gate} {verifier : VerifierMethods} {req : Request}
    {inFlight : Bool} {w : Wire} (h : w.responses = []) :
    ¬Limited (caught p (challengeRoute p g verifier req inFlight w)).2 := by
  rw [challengeRoute]
  split
  · rw [caught_err, limited_err_iff h]
    decide
  split
  · rw [caught_err, limited_err_iff h]
    decide
  split
  · exact not_limited_caught_send h (by decide)
  · rw [caught, limited_err_iff h]
    decide

/-- **The limiter speaks first**: a request to one of the routes is answered `429` at once
exactly when the limiter refuses it. -/
theorem limited_enter_iff (p : Platform) (g : Gate) (mount : Mount g)
    (issue : Completion Challenge) (now : TimeValue) (req : Request) (hits : Hits) :
    Limited (enter p g mount issue now req ⟨hits, [], []⟩).1 ↔
      (routeOf p mount req).isSome = true ∧ (rl g req now hits).1 = false := by
  rw [enter, routeOf]
  cases p.urlPathname (req.url.getD "/") with
  | none => simp [limited_err_iff]
  | some pathname =>
      dsimp only [Option.bind_some]
      cases matchRoute pathname.toList mount.val.toList with
      | none => simp [limited_err_iff]
      | some which =>
          dsimp only
          by_cases hallowed : (rl g req now hits).1 = true
          swap
          · rw [if_pos hallowed, limited_err_iff rfl]
            simpa using hallowed
          rw [if_neg (not_not.mpr hallowed)]
          refine iff_of_false ?_ (by simp [hallowed])
          cases which with
          | challenge => exact not_limited_challengeRoute rfl
          | verify =>
              dsimp only
              split
              · rw [limited_err_iff rfl]
                decide
              · exact not_limited_of_nil rfl

/-- A body that is refused is not refused by the limiter. -/
theorem not_limited_of_refuses {body : BodyState} {stretch : Stretch}
    (h : afterBody p body = .refuses stretch) {w : Wire} (hw : w.responses = []) :
    ¬Limited (caught p (stretch w)).2 := by
  have herr {status : ℕ} {reason : GateReason} {close : Bool} (hstatus : status ≠ 429)
      (heq : BodyOutcome.refuses (err p status reason close) = .refuses stretch) :
      ¬Limited (caught p (stretch w)).2 := by
    rw [← BodyOutcome.refuses.inj heq, caught_err, limited_err_iff hw]
    exact hstatus
  cases body with
  | reading len chunks => cases h
  | rejected e =>
      rw [afterBody] at h
      split at h
      · exact herr (by decide) h
      split at h
      · exact herr (by decide) h
      · rw [← BodyOutcome.refuses.inj h, caught, limited_err_iff hw]
        decide
  | resolved raw =>
      rw [afterBody] at h
      split at h
      · exact herr (by decide) h
      split at h
      · exact herr (by decide) h
      · cases h

/-- Neither is the answer to a check. -/
theorem not_limited_conclude {result : Completion Value} {w : Wire} (hw : w.responses = []) :
    ¬Limited (caught p (conclude p result w)).2 := by
  cases result with
  | error e =>
      rw [conclude, caught, limited_err_iff hw]
      decide
  | ok verdict =>
      rw [conclude]
      dsimp only
      by_cases hnullish : verdict.nullish = true
      · rw [if_pos hnullish, caught, limited_err_iff hw]
        decide
      · rw [if_neg hnullish]
        refine not_limited_caught_send hw ?_
        split <;> decide

/-- **A request is answered `429`** exactly when the limiter has refused it. -/
theorem Stands.limited_iff {door : Door secret} {call : Option (Call secret)} {x : Handling ι}
    (h : Stands p door call x) : Limited x.wire ↔
      (routeOf p door.mount x.request).isSome = true ∧
        (rl door.gate x.request x.arrivedAt x.found).1 = false := by
  rw [← limited_enter_iff p door.gate door.mount
    (door.replica.val.issueChallenge p x.random x.arrivedAt), ← Handling.entered]
  cases h with
  | atOnce _ _ hentered => rw [hentered]
  | reading _ _ hentered _ => rw [hentered]
  | refused w stretch _ _ hentered hrefuses hwire =>
      have hnil := (Handling.entered_eq hentered).1
      rw [hentered, hwire]
      exact iff_of_false (not_limited_of_refuses hrefuses hnil) (not_limited_of_nil hnil)
  | checking w proof c _ _ _ _ hentered _ hwire =>
      rw [hentered, hwire]
      exact Iff.rfl
  | concluded w proof c raw result _ _ _ _ hentered _ hwire =>
      have hnil := (Handling.entered_eq hentered).1
      rw [hentered, hwire]
      exact iff_of_false (not_limited_conclude hnil) (not_limited_of_nil hnil)

/-! ### The order of the limiter -/

/-- What a request leaves of the limiter's map. -/
theorem hits_enter {g : Gate} {mount : Mount g} {issue : Completion Challenge}
    {now : TimeValue} {req : Request} {hits : Hits} :
    (enter p g mount issue now req ⟨hits, [], []⟩).1.hits =
      (routeOf p mount req).elim hits fun _ => (rl g req now hits).2 := by
  have herr (status : ℕ) (reason : GateReason) (close : Bool) (w : Wire) :
      (err p status reason close w).2.hits = w.hits := by
    obtain ⟨body, -, heq⟩ := err_eq p status reason close
    rw [heq]
  rw [enter, routeOf]
  cases p.urlPathname (req.url.getD "/") with
  | none => exact herr _ _ _ _
  | some pathname =>
      dsimp only [Option.bind_some]
      cases matchRoute pathname.toList mount.val.toList with
      | none => exact herr _ _ _ _
      | some which =>
          dsimp only
          by_cases hallowed : (rl g req now hits).1 = true
          swap
          · rw [if_pos hallowed]
            exact herr _ _ _ _
          rw [if_neg (not_not.mpr hallowed)]
          cases which with
          | challenge =>
              dsimp only
              rw [challengeRoute]
              split
              · rw [caught_err]
                exact herr _ _ _ _
              split
              · rw [caught_err]
                exact herr _ _ _ _
              split
              · next c _ =>
                  obtain ⟨body, -, hsend⟩ := send_challengeBody p c
                  rw [hsend]
                  rfl
              · exact herr _ _ _ _
          | verify =>
              dsimp only
              split
              · exact herr _ _ _ _
              · rfl

/-- The request as it came in. -/
def Handling.visit (x : Handling ι) : Visit :=
  ⟨{ x.request with body := [] }, x.arrivedAt⟩

/-- What does not change of a handling: its gate, its request as it came in, and the map
that it found. -/
def Handling.head (x : Handling ι) : ι × Visit × Hits :=
  (x.door, x.visit, x.found)

/-- The heads of the handlings. -/
def Serving.heads (s : Serving ι secret S) (i : ℕ) : Option (ι × Visit × Hits) :=
  (s.handlings i).map Handling.head

/-- Putting a handling changes its own head alone. -/
theorem Serving.heads_put (s : Serving ι secret S) (time : ℤ) (i : ℕ) (x : Handling ι) :
    (s.put time i x).heads = Function.update s.heads i (some x.head) := by
  funext j
  rw [Serving.heads, Serving.handlings_put, Function.update_apply]
  split <;> rfl

/-- A handling that goes on keeps its head. -/
theorem Serving.heads_put_of_eq {s : Serving ι secret S} {i : ℕ} {x x' : Handling ι}
    (hx : s.handlings i = some x) (hhead : x'.head = x.head) (time : ℤ) :
    (s.put time i x').heads = s.heads := by
  rw [Serving.heads_put, Function.update_eq_self_iff, hhead, Serving.heads, hx]
  rfl

/-- The end of a check changes no head. -/
theorem Serving.heads_settle (s : Serving ι secret S) (i : ℕ) :
    (s.settle p i).heads = s.heads := by
  rw [Serving.settle]
  split
  · next x c hx hc =>
      split
      · exact Serving.heads_put_of_eq hx (by rfl) _
      · rfl
  · rfl

/-- Settling what has come in leaves the limiter as it was. -/
theorem Serving.hits_settle (s : Serving ι secret S) (i : ℕ) : (s.settle p i).hits = s.hits := by
  rw [Serving.settle]
  split
  · split <;> rfl
  · rfl

section Order

variable [DecidableEq ι]

/-- **Only a request that comes in** touches a limiter. -/
theorem heads_attend {s s' : Serving ι secret S} {e : Traffic ι}
    (h : attend p doors s e = some s') :
    (∃ i k req random, e.what = .request i k req random ∧ s.handlings i = none ∧
      s'.heads = Function.update s.heads i (some (k, ⟨{ req with body := [] }, e.time⟩, s.hits k)) ∧
      s'.hits = Function.update s.hits k
        ((routeOf p (doors k).mount req).elim (s.hits k) fun _ =>
          (rl (doors k).gate req e.time (s.hits k)).2)) ∨
    (∀ i k req random, e.what ≠ .request i k req random) ∧ s'.heads = s.heads ∧
      s'.hits = s.hits := by
  cases (attend_cases h).2 with
  | admitted i k req random hwhat hfree =>
      refine Or.inl ⟨i, k, req, random, hwhat, hfree, s.heads_put e.time.val i _, ?_⟩
      exact congrArg (Function.update s.hits k) hits_enter
  | unheard i event x hwhat hx hstage =>
      exact Or.inr ⟨by simp [hwhat], Serving.heads_put_of_eq hx (by rfl) _, rfl⟩
  | gathered i event x body hwhat hx hstage hwaits =>
      exact Or.inr ⟨by simp [hwhat], Serving.heads_put_of_eq hx (by rfl) _, rfl⟩
  | refused i event x body stretch hwhat hx hstage hrefuses =>
      exact Or.inr ⟨by simp [hwhat], Serving.heads_put_of_eq hx (by rfl) _, rfl⟩
  | submitted i event x body proof system hwhat hx hstage hsubmits hstep =>
      exact Or.inr ⟨by simp [hwhat], Serving.heads_put_of_eq hx (by rfl) e.time.val, rfl⟩
  | advanced i occurrence system hwhat hstep =>
      refine Or.inr ⟨?_, Serving.heads_settle _ _, Serving.hits_settle _ _⟩
      rcases hwhat with ⟨outcome, hwhat, -⟩ | ⟨hwhat, -⟩ <;> simp [hwhat]

/-- The requests that have asked the limiter of gate `k`, with their numbers. -/
def askedBy (p : Platform) (doors : ι → Door secret) (k : ι) (events : List (Traffic ι)) :
    List (ℕ × Visit) :=
  events.filterMap fun e =>
    match e.what with
    | .request i k' req _ =>
        if k' = k ∧ (routeOf p (doors k).mount req).isSome then
          some (i, ⟨{ req with body := [] }, e.time⟩)
        else none
    | _ => none

/-- The limiter of a gate, asked by numbered requests. -/
def serveNumbered (g : Gate) (hits : Hits) (e : ℕ × Visit) : Bool × Hits :=
  serve g hits e.2

/-- The limiter of gate `k` has seen the requests of its gate in their order, and each of
them has found what those before it left. -/
structure Queued (p : Platform) (doors : ι → Door secret) (k : ι) (events : List (Traffic ι))
    (s : Serving ι secret S) : Prop where
  hits : s.hits k = after (serveNumbered (doors k).gate) .empty (askedBy p doors k events)
  found : ∀ before e rest, askedBy p doors k events = before ++ e :: rest →
    s.heads e.1 = some (k, e.2, after (serveNumbered (doors k).gate) .empty before)
  listed : ∀ i v found, s.heads i = some (k, v, found) →
    (routeOf p (doors k).mount v.req).isSome = true → (i, v) ∈ askedBy p doors k events
  sorted : InOrder (fun e : ℕ × Visit => e.2.now.val) (askedBy p doors k events)
  past : ∀ e ∈ askedBy p doors k events, e.2.now.val ≤ s.clock

/-- Before the first event nobody has asked, and the limiter is empty. -/
theorem queued_init (k : ι) :
    Queued p doors k [] (Serving.init ι secret S) where
  hits := rfl
  found before e rest h := by simp [askedBy] at h
  listed i v found h := by cases h
  sorted := List.Pairwise.nil
  past e h := by simp [askedBy] at h

/-- An event leaves its time on the clock. -/
theorem clock_of_attend {s s' : Serving ι secret S} {e : Traffic ι}
    (h : attend p doors s e = some s') : s.clock ≤ s'.clock ∧ s'.clock = e.time.val := by
  obtain ⟨htime, hattended⟩ := attend_cases h
  suffices hclock : s'.clock = e.time.val from ⟨hclock ▸ htime, hclock⟩
  cases hattended with
  | advanced i occurrence system hwhat hstep =>
      rw [Serving.settle]
      split
      · split <;> rfl
      · rfl
  | _ => rfl

/-- A request with a number of its own joins those that have asked. -/
theorem askedBy_concat_request {k k' : ι} {done : List (Traffic ι)} {e : Traffic ι} {i : ℕ}
    {req : Request} {random : RandomBytes} (hwhat : e.what = .request i k' req random) :
    askedBy p doors k (done ++ [e]) = askedBy p doors k done ++
      if k' = k ∧ (routeOf p (doors k).mount req).isSome then
        [(i, ⟨{ req with body := [] }, e.time⟩)]
      else [] := by
  rw [askedBy, List.filterMap_append, ← askedBy]
  congr 1
  simp only [List.filterMap_cons, List.filterMap_nil, hwhat]
  split <;> simp_all

/-- An event that is no request to a gate asks its limiter nothing. -/
theorem askedBy_concat_other {k : ι} {done : List (Traffic ι)} {e : Traffic ι}
    (hwhat : ∀ i k req random, e.what ≠ .request i k req random) :
    askedBy p doors k (done ++ [e]) = askedBy p doors k done := by
  rw [askedBy, List.filterMap_append, ← askedBy]
  cases hkind : e.what with
  | request i k' req random => exact absurd hkind (hwhat i k' req random)
  | body i event => simp [hkind]
  | reply i outcome => simp [hkind]
  | spend i => simp [hkind]

namespace Queued

variable {k : ι} {done : List (Traffic ι)} {s s' : Serving ι secret S} {e : Traffic ι}

/-- The number of a request that has asked is taken. -/
theorem handlings_ne_none (h : Queued p doors k done s) {a : ℕ × Visit}
    (ha : a ∈ askedBy p doors k done) : s.handlings a.1 ≠ none := by
  obtain ⟨before, rest, hsplit⟩ := List.append_of_mem ha
  intro hnone
  have hhead := h.found before a rest hsplit
  rw [Serving.heads, hnone] at hhead
  cases hhead

/-- A request that asks the limiter of the gate. -/
theorem request (h : Queued p doors k done s) (hattend : attend p doors s e = some s') {i : ℕ}
    {req : Request} {random : RandomBytes} (hwhat : e.what = .request i k req random)
    (hroute : (routeOf p (doors k).mount req).isSome = true) (hfree : s.handlings i = none)
    (hheads : s'.heads = Function.update s.heads i
      (some (k, ⟨{ req with body := [] }, e.time⟩, s.hits k)))
    (hhits : s'.hits = Function.update s.hits k (rl (doors k).gate req e.time (s.hits k)).2) :
    Queued p doors k (done ++ [e]) s' := by
  obtain ⟨hclock, htime⟩ := clock_of_attend hattend
  have hasked : askedBy p doors k (done ++ [e]) =
      askedBy p doors k done ++ [(i, ⟨{ req with body := [] }, e.time⟩)] := by
    rw [askedBy_concat_request hwhat, if_pos ⟨rfl, hroute⟩]
  refine ⟨?_, ?_, ?_, ?_, ?_⟩
  · rw [hhits, Function.update_self, hasked, after_append, ← h.hits]
    rfl
  · intro before a rest hsplit
    rw [hasked] at hsplit
    rw [hheads]
    rcases List.eq_nil_or_concat rest with rfl | ⟨rest', b, rfl⟩
    · obtain ⟨rfl, hlast⟩ := List.append_inj' hsplit rfl
      obtain rfl := List.singleton_injective hlast
      rw [Function.update_self, ← h.hits]
    · rw [List.concat_eq_append, ← List.cons_append, ← List.append_assoc] at hsplit
      obtain ⟨hold, -⟩ := List.append_inj' hsplit rfl
      have hmem : a ∈ askedBy p doors k done := by
        rw [hold]
        exact List.mem_append_right _ List.mem_cons_self
      rw [Function.update_of_ne, h.found before a rest' hold]
      rintro rfl
      exact h.handlings_ne_none hmem hfree
  · intro j v found hj hrouted
    rw [hasked]
    rw [hheads, Function.update_apply] at hj
    split at hj
    · next hji =>
        cases hj
        rw [hji]
        exact List.mem_append_right _ List.mem_cons_self
    · exact List.mem_append_left _ (h.listed j v found hj hrouted)
  · rw [hasked, InOrder, List.pairwise_append]
    refine ⟨h.sorted, List.pairwise_singleton _ _, fun a ha b hb => ?_⟩
    obtain rfl := List.mem_singleton.mp hb
    exact (h.past a ha).trans (hclock.trans htime.le)
  · intro a ha
    rw [hasked] at ha
    rcases List.mem_append.mp ha with ha | ha
    · exact (h.past a ha).trans hclock
    · obtain rfl := List.mem_singleton.mp ha
      exact htime.ge

/-- Any other event. -/
theorem other (h : Queued p doors k done s) (hclock : s.clock ≤ s'.clock)
    (hasked : askedBy p doors k (done ++ [e]) = askedBy p doors k done)
    (hold : ∀ a ∈ askedBy p doors k done, s'.heads a.1 = s.heads a.1)
    (hnew : ∀ i v found, s'.heads i = some (k, v, found) →
      (routeOf p (doors k).mount v.req).isSome = true → s.heads i = some (k, v, found))
    (hhits : s'.hits k = s.hits k) : Queued p doors k (done ++ [e]) s' where
  hits := by rw [hhits, hasked, h.hits]
  found before a rest hsplit := by
    rw [hasked] at hsplit
    rw [hold a (hsplit ▸ List.mem_append_right _ List.mem_cons_self), h.found before a rest hsplit]
  listed i v found hi hroute := by
    rw [hasked]
    exact h.listed i v found (hnew i v found hi hroute) hroute
  sorted := by rw [hasked]; exact h.sorted
  past a ha := by
    rw [hasked] at ha
    exact (h.past a ha).trans hclock

/-- **One event** keeps the order. -/
theorem attend (h : Queued p doors k done s)
    (hattend : EightEen.attend p doors s e = some s') : Queued p doors k (done ++ [e]) s' := by
  have hclock := (clock_of_attend hattend).1
  rcases heads_attend hattend with
    ⟨i, k', req, random, hwhat, hfree, hheads, hhits⟩ | ⟨hwhat, hheads, hhits⟩
  swap
  · refine h.other hclock (askedBy_concat_other hwhat) (by simp [hheads]) ?_ (by rw [hhits])
    intro i v found hi _
    rwa [hheads] at hi
  by_cases hasks : k' = k ∧ (routeOf p (doors k).mount req).isSome = true
  · obtain ⟨rfl, hroute⟩ := hasks
    obtain ⟨which, hwhich⟩ := Option.isSome_iff_exists.mp hroute
    rw [hwhich] at hhits
    exact h.request hattend hwhat hroute hfree hheads hhits
  refine h.other hclock ?_ (fun a ha => ?_) (fun j v found hj hroute => ?_) ?_
  · rw [askedBy_concat_request hwhat, if_neg hasks, List.append_nil]
  · rw [hheads, Function.update_of_ne]
    rintro rfl
    exact h.handlings_ne_none ha hfree
  · rw [hheads, Function.update_apply] at hj
    split at hj
    · cases hj
      exact absurd ⟨rfl, hroute⟩ hasks
    · exact hj
  · rw [hhits]
    by_cases hk : k = k'
    · subst hk
      have hnone : routeOf p (doors k).mount req = none := by simpa using hasks
      rw [Function.update_self, hnone]
      rfl
    · rw [Function.update_of_ne hk]

end Queued

/-- **The order holds in every run.** -/
theorem queued_of_run {s : Serving ι secret S} {events : List (Traffic ι)}
    (hrun : exec (attend p doors) (Serving.init ι secret S) events = some s) (k : ι) :
    Queued p doors k events s :=
  exec_history (fun _ _ _ _ h hattend => h.attend hattend) hrun (queued_init k)

end Order

/-! ### The share -/

/-- What a counter of the family has counted is its own. -/
theorem after_countOwn (cfg : RateLimit) (owns : String → Option Window) (asks : List Ask)
    (key : String) : after (countOwn cfg) owns asks key =
      after (count cfg) (owns key) ((asksOf key asks).map Ask.now) := by
  induction asks generalizing owns with
  | nil => rfl
  | cons a asks ih =>
      rw [after_cons, ih, asksOf_cons]
      by_cases h : a.key = key
      · subst h
        rw [if_pos rfl, List.map_cons, after_cons]
        simp only [countOwn, Function.update_self]
      · rw [if_neg h]
        congr 1
        exact Function.update_of_ne (Ne.symm h) _ _

/-- The answer to a call, among all calls and answers. -/
theorem mem_zip_answers {σ α β : Type} (op : σ → α → β × σ) (s : σ) (before rest : List α)
    (a : α) : (a, (op (after op s before) a).1) ∈
      (before ++ a :: rest).zip (answers op s (before ++ a :: rest)) := by
  induction before generalizing s with
  | nil => exact List.mem_cons_self
  | cons b before ih => exact List.mem_cons_of_mem _ (ih (op s b).2)

/-- What a key is granted in an interval, counted among all calls. -/
theorem granted_asksOf (lo hi : ℚ) (key : String) (asks : List Ask) {bs : List Bool}
    (hlen : bs.length = asks.length) :
    granted lo hi ((asksOf key asks).map Ask.now) (answersTo key asks bs) =
      (asks.zip bs).countP fun x =>
        decide (x.1.key = key ∧ lo ≤ (x.1.now : ℚ) ∧ (x.1.now : ℚ) < hi) && x.2 := by
  induction asks generalizing bs with
  | nil => rfl
  | cons a asks ih =>
      cases bs with
      | nil => cases hlen
      | cons b bs =>
          have hrest := ih (Nat.succ.inj hlen)
          rw [asksOf_cons, answersTo_cons, List.zip_cons_cons, List.countP_cons]
          by_cases hkey : a.key = key
          · rw [if_pos hkey, if_pos hkey, List.map_cons, granted_cons, hrest]
            congr 1
            simp [hkey, and_assoc]
          · rw [if_neg hkey, if_neg hkey, hrest]
            simp [hkey]

/-- The call that the limiter of a gate is asked with. -/
def askNumbered (g : Gate) (e : ℕ × Visit) : Ask :=
  askOf g e.2

/-- With a limit configured, the numbered limiter is `allow` of the client. -/
theorem serveNumbered_eq {g : Gate} {cfg : RateLimit} (h : g.rateLimit = some cfg) :
    serveNumbered g = fun hits e => allowAsk cfg hits (askNumbered g e) := by
  funext hits e
  rw [serveNumbered, serve_eq h]
  rfl

/-- The requests of a client to a gate that came in during the interval, and that the gate
has not refused for their number. -/
def Passed (p : Platform) (doors : ι → Door secret) (s : Serving ι secret S) (k : ι)
    (key : String) (lo hi : ℚ) (i : ℕ) : Prop :=
  ∃ x, s.handlings i = some x ∧ x.door = k ∧
    (routeOf p (doors k).mount x.request).isSome = true ∧
    clientKey x.request (doors k).gate.trustProxy = key ∧
    (lo ≤ (x.arrivedAt.val : ℚ) ∧ (x.arrivedAt.val : ℚ) < hi) ∧ ¬Limited x.wire

section Share

variable [DecidableEq ι] {k : ι} {cfg : RateLimit} {events : List (Traffic ι)}
  {s : Serving ι secret S}

/-- Where a request stands among those that have asked, and what the limiter answered. -/
theorem exists_asked (hrun : exec (attend p doors) (Serving.init ι secret S) events = some s)
    {i : ℕ} {x : Handling ι} (hx : s.handlings i = some x) (hdoor : x.door = k)
    (hroute : (routeOf p (doors k).mount x.request).isSome = true) :
    ∃ before rest, askedBy p doors k events = before ++ (i, x.visit) :: rest ∧
      (Limited x.wire ↔ (serveNumbered (doors k).gate
        (after (serveNumbered (doors k).gate) .empty before) (i, x.visit)).1 = false) := by
  subst hdoor
  have hqueued := queued_of_run hrun x.door
  have hhead : s.heads i = some (x.door, x.visit, x.found) := by
    rw [Serving.heads, hx]
    rfl
  obtain ⟨before, rest, hsplit⟩ :=
    List.append_of_mem (hqueued.listed i x.visit x.found hhead hroute)
  have hfound := Option.some.inj (hhead.symm.trans (hqueued.found before _ rest hsplit))
  refine ⟨before, rest, hsplit, ?_⟩
  rw [((serving_of_run hrun).stands i x hx).limited_iff, (Prod.mk.inj (Prod.mk.inj hfound).2).2]
  exact and_iff_right hroute

/-- **A client is refused by its own counter.** -/
theorem limited_iff_count (hcfg : (doors k).gate.rateLimit = some cfg)
    (hrun : exec (attend p doors) (Serving.init ι secret S) events = some s)
    {before rest : List (ℕ × Visit)} {e : ℕ × Visit}
    (hsplit : askedBy p doors k events = before ++ e :: rest)
    (hkeeps : Answering.Meets (allowAsk cfg) (fun hits a => ¬Sheds hits a) .empty
      ((askedBy p doors k events).map (askNumbered (doors k).gate))) :
    (serveNumbered (doors k).gate (after (serveNumbered (doors k).gate) .empty before) e).1 =
      (count cfg (after (count cfg) none ((asksOf (askNumbered (doors k).gate e).key
        (before.map (askNumbered (doors k).gate))).map Ask.now)) e.2.now.val).1 := by
  have hsorted : InOrder Ask.now ((askedBy p doors k events).map (askNumbered (doors k).gate)) :=
    List.pairwise_map.mpr (queued_of_run hrun k).sorted
  rw [hsplit, List.map_append, List.map_cons] at hkeeps hsorted
  have hsame : SameWindows e.2.now.val
      (after (allowAsk cfg) .empty (before.map (askNumbered (doors k).gate)))
      (after (countOwn cfg) (fun _ => none) (before.map (askNumbered (doors k).gate))) := by
    refine related_at ?_ ?_ hsorted hkeeps fun b _ => sameWindows_empty b.now
    · exact fun hle h => h.later hle
    · exact fun hok h => (h.allow hok).2
  rw [serveNumbered_eq hcfg, ← after_map]
  refine (hsame.allow (meets_append_iff.mp hkeeps).2.1).1.trans ?_
  rw [countOwn, after_countOwn]
  rfl

/-- The requests that passed are among those that the limiter has granted. -/
theorem card_le_granted (hcfg : (doors k).gate.rateLimit = some cfg)
    (hrun : exec (attend p doors) (Serving.init ι secret S) events = some s) {key : String}
    {lo hi : ℚ} {I : Finset ℕ} (hpassed : ∀ i ∈ I, Passed p doors s k key lo hi i) :
    I.card ≤ granted lo hi
      ((asksOf key ((askedBy p doors k events).map (askNumbered (doors k).gate))).map Ask.now)
      (answersTo key ((askedBy p doors k events).map (askNumbered (doors k).gate))
        (answers (allowAsk cfg) .empty
          ((askedBy p doors k events).map (askNumbered (doors k).gate)))) := by
  rw [granted_asksOf _ _ _ _ (length_answers _ _ _), answers_map, ← serveNumbered_eq hcfg,
    List.zip_map_left, List.countP_map, List.countP_eq_length_filter]
  generalize hpairs : ((askedBy p doors k events).zip
    (answers (serveNumbered (doors k).gate) .empty (askedBy p doors k events))).filter _ = pairs
  -- Each of them has put its number among the granted ones.
  have hsub : I ⊆ (pairs.map fun x => x.1.1).toFinset := by
    intro i hmemI
    obtain ⟨x, hx, hdoor, hroute, hkey, hbetween, hnot⟩ := hpassed i hmemI
    obtain ⟨before, rest, hsplit, hlimited⟩ := exists_asked hrun hx hdoor hroute
    have hanswer : (serveNumbered (doors k).gate
        (after (serveNumbered (doors k).gate) .empty before) (i, x.visit)).1 = true := by
      rw [← Bool.not_eq_false]
      exact mt hlimited.mpr hnot
    have hmem := mem_zip_answers (serveNumbered (doors k).gate) .empty before rest (i, x.visit)
    rw [← hsplit, hanswer] at hmem
    rw [List.mem_toFinset, List.mem_map]
    refine ⟨((i, x.visit), true), ?_, rfl⟩
    rw [← hpairs, List.mem_filter]
    refine ⟨hmem, ?_⟩
    have hask : (askNumbered (doors k).gate (i, x.visit)).key = key := hkey
    have hnow : (askNumbered (doors k).gate (i, x.visit)).now = x.arrivedAt.val := rfl
    simpa [hask, hnow] using hbetween
  calc I.card ≤ (pairs.map fun x => x.1.1).toFinset.card := Finset.card_le_card hsub
    _ ≤ (pairs.map fun x => x.1.1).length := List.toFinset_card_le _
    _ = pairs.length := List.length_map _

/-- What the limiter grants to a key in an interval of the length of a window. -/
theorem granted_le (hrun : exec (attend p doors) (Serving.init ι secret S) events = some s)
    (hkeeps : Answering.Meets (allowAsk cfg) (fun hits a => ¬Sheds hits a) .empty
      ((askedBy p doors k events).map (askNumbered (doors k).gate))) {key : String} {lo : ℚ} :
    granted lo (lo + cfg.windowMs.val)
      ((asksOf key ((askedBy p doors k events).map (askNumbered (doors k).gate))).map Ask.now)
      (answersTo key ((askedBy p doors k events).map (askNumbered (doors k).gate))
        (answers (allowAsk cfg) .empty
          ((askedBy p doors k events).map (askNumbered (doors k).gate)))) ≤
      2 * ⌈cfg.limit.val⌉₊ := by
  have hsorted : InOrder Ask.now ((askedBy p doors k events).map (askNumbered (doors k).gate)) :=
    List.pairwise_map.mpr (queued_of_run hrun k).sorted
  rw [SameWindows.answers_eq hsorted hkeeps fun a _ => sameWindows_empty a.now,
    answersTo_countOwn]
  exact granted_interval_le (List.pairwise_map.mpr (inOrder_asksOf hsorted key))
    (by rintro w ⟨⟩) lo

/-- **Clients share a gate.** In every interleaving in which the limiter of a gate never has
to shed an open window: a request to one of the routes is answered `429` exactly when the
counter of its own client has run out, whatever the other clients do and however long any of
them waits; and in any interval of the length of a window at most twice as many requests of a
client are answered otherwise as a window grants, which is the limit rounded up. -/
theorem clients_share_a_gate (hcfg : (doors k).gate.rateLimit = some cfg)
    (hrun : exec (attend p doors) (Serving.init ι secret S) events = some s)
    (hkeeps : Answering.Meets (allowAsk cfg) (fun hits a => ¬Sheds hits a) .empty
      ((askedBy p doors k events).map (askNumbered (doors k).gate))) :
    (∀ i x, s.handlings i = some x → x.door = k →
      (routeOf p (doors k).mount x.request).isSome = true →
      ∃ before rest, askedBy p doors k events = before ++ (i, x.visit) :: rest ∧
        (Limited x.wire ↔ (count cfg (after (count cfg) none
          ((asksOf (clientKey x.request (doors k).gate.trustProxy)
            (before.map (askNumbered (doors k).gate))).map Ask.now)) x.arrivedAt.val).1 = false)) ∧
    ∀ key lo (I : Finset ℕ),
      (∀ i ∈ I, Passed p doors s k key lo (lo + cfg.windowMs.val) i) →
        I.card ≤ 2 * ⌈cfg.limit.val⌉₊ := by
  refine ⟨fun i x hx hdoor hroute => ?_, fun key lo I hpassed => ?_⟩
  · obtain ⟨before, rest, hsplit, hlimited⟩ := exists_asked hrun hx hdoor hroute
    refine ⟨before, rest, hsplit, hlimited.trans ?_⟩
    rw [limited_iff_count hcfg hrun hsplit hkeeps]
    exact Iff.rfl
  · exact (card_le_granted hcfg hrun hpassed).trans (granted_le hrun hkeeps)

end Share

/-- One request in half a minute. -/
def sampleNarrowLimit : RateLimit :=
  { limit := ⟨1, by norm_num⟩, windowMs := ⟨30000, by norm_num⟩ }

/-- A gate that grants a client that much. -/
def sampleNarrowDoor : Door sampleSecret where
  gate := { sampleGate with rateLimit := some sampleNarrowLimit }
  mount := ⟨"/8een", rfl⟩
  replica := sampleReplica

/-- Two clients ask for a challenge, and the first asks again. -/
def sampleQueue : List (Traffic Unit) :=
  [⟨sampleTime 0, .request 0 () sampleGet sampleRandom⟩,
    ⟨sampleTime 10, .request 1 () { sampleGet with remoteAddress := some "::1" } sampleRandom⟩,
    ⟨sampleTime 20, .request 2 () sampleGet sampleRandom⟩]

/-- The third request is refused, by the counter of its client, of which the limiter has told one
more request before it; and each client has at most two requests in half a minute. -/
theorem clients_share_a_gate_sampleQueue :
    ∃ s x, exec (attend servingPlatform fun _ => sampleNarrowDoor)
        (Serving.init Unit sampleSecret inMemoryNonceStore) sampleQueue = some s ∧
      s.handlings 2 = some x ∧ x.wire.responses.map Response.status = [429] ∧
      (∃ before rest, askedBy servingPlatform (fun _ => sampleNarrowDoor) () sampleQueue =
        before ++ (2, x.visit) :: rest ∧
        (Limited x.wire ↔ (count sampleNarrowLimit (after (count sampleNarrowLimit) none
          ((asksOf (clientKey x.request sampleNarrowDoor.gate.trustProxy)
            (before.map (askNumbered sampleNarrowDoor.gate))).map Ask.now))
              x.arrivedAt.val).1 = false)) ∧
      ∀ key lo (I : Finset ℕ), (∀ i ∈ I, Passed servingPlatform (fun _ => sampleNarrowDoor) s ()
        key lo (lo + 30000) i) → I.card ≤ 2 * ⌈(1 : ℚ)⌉₊ := by
  have hsome : (exec (attend servingPlatform fun _ => sampleNarrowDoor)
      (Serving.init Unit sampleSecret inMemoryNonceStore) sampleQueue).isSome = true := by
    decide +kernel
  obtain ⟨s, hs⟩ := Option.isSome_iff_exists.mp hsome
  have hthird : ((exec (attend servingPlatform fun _ => sampleNarrowDoor)
      (Serving.init Unit sampleSecret inMemoryNonceStore) sampleQueue).bind fun s =>
        (s.handlings 2).map fun x => (x.wire.responses.map Response.status,
          (routeOf servingPlatform sampleNarrowDoor.mount x.request).isSome)) =
      some ([429], true) := by
    decide +kernel
  rw [hs, Option.bind_some] at hthird
  obtain ⟨x, hx, hpair⟩ := Option.map_eq_some_iff.mp hthird
  obtain ⟨hrefused, hroute⟩ := Prod.mk.inj hpair
  have hkeeps : Answering.Meets (allowAsk sampleNarrowLimit) (fun hits a => ¬Sheds hits a) .empty
      ((askedBy servingPlatform (fun _ => sampleNarrowDoor) () sampleQueue).map
        (askNumbered sampleNarrowDoor.gate)) := by
    refine ⟨?_, ?_, ?_, trivial⟩
    · exact fun h => absurd h.2 (by decide +kernel)
    · exact fun h => absurd h.2 (by decide +kernel)
    · exact fun h => absurd h.2 (by decide +kernel)
  obtain ⟨hown, hshare⟩ := clients_share_a_gate rfl hs hkeeps
  exact ⟨s, x, hs, hx, hrefused, hown 2 x hx rfl hroute, hshare⟩

end EightEen
