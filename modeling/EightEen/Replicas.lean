import EightEen.NonceStore
import EightEen.Transition
import EightEen.Verifier

/-!
# Replicas over One Store

Any number of verifiers share a secret and a store, and any number of their checks run at
once. A check begins by reading the clock, goes on when the service replies, and may wait
for its spend to reach the store. These three moments are the events, and a run is any
interleaving of them along one clock that does not go back. Between two moments of a check
any time may pass.

The state keeps a log of the spends that have reached the store. The program does not see
it: it is what the statements about whole runs are about.

## Main results

* `step_cases`: what each event does.
* `Consistent.step`, `consistent_of_run`: in every reachable state the log agrees with
  the store and with the checks.
* `admitted_iff`: a check of a proof was accepted exactly when its spend is in the log as
  a success.
-/

open Js Transition

namespace EightEen

/-! ### The system -/

/-- A verifier that asks for single use under the shared secret. -/
abbrev Replica (secret : Value) :=
  {v : Verifier // v.requireSingleUse.truthy = true ∧ v.challengeSecret = secret}

/-- Where a check stands: it waits for the service, it waits for the store, or it has
ended. -/
inductive CallStage where
  | verifying
  | spending (raw : Value) (verdict : Verdict) (request : SpendRequest)
  | resolved (raw : Value) (result : Completion Verdict)

/-- A call of `check(proof)` on a replica, with the clock reading it took. -/
structure Call (secret : Value) where
  replica : Replica secret
  proof : Value
  readAt : TimeValue
  stage : CallStage

/-- The checks by their numbers, the store, and the log of the spends that have reached
it. -/
structure System (secret : Value) (S : NonceStore) where
  clock : ℤ
  calls : ℕ → Option (Call secret)
  store : S.State
  arrivals : List Arrival

/-- A check is called, the service replies to it, or its spend reaches the store. -/
inductive Occurrence (secret : Value) where
  | begin (call : ℕ) (replica : Replica secret) (proof : Value)
  | reply (call : ℕ) (outcome : Outcome)
  | arrive (call : ℕ)

/-- The number of the check that an event is about. -/
def Occurrence.call {secret : Value} : Occurrence secret → ℕ
  | begin call _ _ => call
  | reply call _ => call
  | arrive call => call

/-- An occurrence at its time. -/
structure Event (secret : Value) where
  time : TimeValue
  what : Occurrence secret

variable {p : Platform} {secret : Value} {S : NonceStore}

namespace Call

/-- What `check` does with a reply. -/
def afterReply (p : Platform) (c : Call secret) (raw : Value) : CheckStage :=
  c.replica.val.afterReply p c.readAt c.proof raw

/-- The verdict of the stateless part of the check. -/
def stateless (p : Platform) (c : Call secret) (raw : Value) : Completion Verdict :=
  classify p raw (c.replica.val.options c.readAt)

/-- The transcript that the proof is bound to. -/
def transcript (c : Call secret) : Value :=
  c.proof.get "transcript"

/-- The call after the reply. -/
def replied (p : Platform) (c : Call secret) (raw : Value) : Call secret :=
  { c with
    stage :=
      match c.afterReply p raw with
      | .settled result => .resolved raw result
      | .spending verdict request => .spending raw verdict request }

end Call

/-- The state before any check. -/
def System.init (secret : Value) (S : NonceStore) : System secret S where
  clock := -maxTime
  calls := fun _ => none
  store := S.empty
  arrivals := []

/-- The state at `time`, with `c` for call `i`. -/
def System.put (s : System secret S) (time : ℤ) (i : ℕ) (c : Call secret) : System secret S :=
  { s with
    clock := time
    calls := Function.update s.calls i (some c) }

theorem System.calls_put (s : System secret S) (time : ℤ) (i : ℕ) (c : Call secret) (j : ℕ) :
    (s.put time i c).calls j = if j = i then some c else s.calls j :=
  Function.update_apply _ _ _ _

/-- The call at its end, with what the store has answered to its spend. -/
def Call.answered (c : Call secret) (raw : Value) (verdict : Verdict) (fresh : Bool) :
    Call secret :=
  { c with stage := .resolved raw (endSingleUse verdict (.ok (.boolean fresh))) }

/-- The spend of the waiting call `i` reaches the store. -/
def System.arrive (s : System secret S) (time : ℤ) (i : ℕ) (c : Call secret) (raw : Value)
    (verdict : Verdict) (request : SpendRequest) : System secret S :=
  let answer := S.spend s.store ⟨request, time⟩
  { s.put time i (c.answered raw verdict answer.1) with
    store := answer.2
    arrivals := s.arrivals ++ [⟨⟨request, time⟩, i, answer.1⟩] }

theorem System.calls_arrive (s : System secret S) (time : ℤ) (i : ℕ) (c : Call secret)
    (raw : Value) (verdict : Verdict) (request : SpendRequest) (j : ℕ) :
    (s.arrive time i c raw verdict request).calls j =
      if j = i then some (c.answered raw verdict (S.spend s.store ⟨request, time⟩).1)
      else s.calls j :=
  s.calls_put time i _ j

/-- One event. The clock does not go back, a number is used for one check, and a check
takes its three moments in order. -/
def step (p : Platform) (s : System secret S) (e : Event secret) :
    Option (System secret S) :=
  if e.time.val < s.clock then none
  else
    match e.what with
    | .begin i replica proof =>
        match s.calls i with
        | some _ => none
        | none => some (s.put e.time i ⟨replica, proof, e.time, .verifying⟩)
    | .reply i outcome =>
        match s.calls i with
        | some c =>
            match c.stage with
            | .verifying => some (s.put e.time i (c.replied p outcome.toValue))
            | _ => none
        | none => none
    | .arrive i =>
        match s.calls i with
        | some c =>
            match c.stage with
            | .spending raw verdict request => some (s.arrive e.time i c raw verdict request)
            | _ => none
        | none => none

/-- **What each event does.** -/
theorem step_cases {s s' : System secret S} {e : Event secret} (h : step p s e = some s') :
    s.clock ≤ e.time.val ∧
      ((∃ i replica proof, e.what = .begin i replica proof ∧ s.calls i = none ∧
        s' = s.put e.time i ⟨replica, proof, e.time, .verifying⟩) ∨
      (∃ i outcome c, e.what = .reply i outcome ∧ s.calls i = some c ∧ c.stage = .verifying ∧
        s' = s.put e.time i (c.replied p outcome.toValue)) ∨
      (∃ i c raw verdict request, e.what = .arrive i ∧ s.calls i = some c ∧
        c.stage = .spending raw verdict request ∧
        s' = s.arrive e.time i c raw verdict request)) := by
  rw [step] at h
  split at h
  · cases h
  next hclock =>
  refine ⟨not_lt.mp hclock, ?_⟩
  split at h
  · next i replica proof hwhat =>
      split at h
      · cases h
      · next hnone => exact Or.inl ⟨i, replica, proof, hwhat, hnone, (Option.some.inj h).symm⟩
  · next i outcome hwhat =>
      split at h
      swap
      · cases h
      next c hc =>
      split at h
      · next hstage =>
          exact Or.inr (Or.inl ⟨i, outcome, c, hwhat, hc, hstage, (Option.some.inj h).symm⟩)
      · cases h
  · next i hwhat =>
      split at h
      swap
      · cases h
      next c hc =>
      split at h
      · next raw verdict request hstage =>
          exact Or.inr (Or.inr ⟨i, c, raw, verdict, request, hwhat, hc, hstage,
            (Option.some.inj h).symm⟩)
      · cases h

/-! ### The invariant -/

/-- What a call has asked the store for: an accept, for a challenge that its clock reading
has not passed. -/
theorem Call.spending_spec {c : Call secret} {raw : Value} {verdict : Verdict}
    {request : SpendRequest} (h : c.afterReply p raw = .spending verdict request) :
    c.stateless p raw = .ok verdict ∧ verdict.IsAccept ∧
      ∃ r, LiveChallenge p c.transcript secret c.readAt r ∧
        request = { nonceKey := r.nonceKey, ttlMs := (r.expiresAt : ℤ) - c.readAt.val } := by
  obtain ⟨⟨v, hsingle, rfl⟩, proof, readAt, stage⟩ := c
  rcases v.afterReply_cases p readAt proof raw hsingle with
    ⟨e, -, hs⟩ | ⟨w, -, -, hs⟩ | ⟨w, d, -, -, -, hs⟩ | ⟨w, r, hc, haccept, hlive, hs⟩
  · cases hs.symm.trans h
  · cases hs.symm.trans h
  · cases hs.symm.trans h
  · cases hs.symm.trans h
    exact ⟨hc, haccept, r, hlive, rfl⟩

/-- A call that ended without the store threw or was not accepted, had no live challenge if
it was accepted by the service, and was not called a replay. -/
theorem Call.settled_spec {c : Call secret} {raw : Value} {result : Completion Verdict}
    (h : c.afterReply p raw = .settled result) : ¬Gives true result ∧
      (∀ verdict, c.stateless p raw = .ok verdict → verdict.IsAccept →
        ∀ r, ¬LiveChallenge p c.transcript secret c.readAt r) ∧
      ∀ verdict, result = .ok verdict → verdict.reason ≠ .replayDetected := by
  obtain ⟨⟨v, hsingle, rfl⟩, proof, readAt, stage⟩ := c
  rcases v.afterReply_cases p readAt proof raw hsingle with
    ⟨e, hc, hs⟩ | ⟨w, hc, hno, hs⟩ | ⟨w, d, hc, -, hdead, hs⟩ | ⟨w, r, -, -, -, hs⟩
  · obtain rfl := CheckStage.settled.inj (hs.symm.trans h)
    refine ⟨not_gives_error _ _, ?_, ?_⟩
    · intro verdict hv
      cases hc.symm.trans hv
    · intro verdict hv
      cases hv
  · obtain rfl := CheckStage.settled.inj (hs.symm.trans h)
    refine ⟨?_, ?_, ?_⟩
    · rw [gives_ok, ← (classify_stateless hc).wellFormed.isAccept_iff]
      exact hno
    · intro verdict hv haccept
      obtain rfl := Except.ok.inj (hc.symm.trans hv)
      exact absurd haccept hno
    · intro verdict hv hreason
      obtain rfl := Except.ok.inj hv
      have hmem := (classify_stateless hc).reason
      rw [hreason] at hmem
      exact absurd hmem (by decide)
  · obtain rfl := CheckStage.settled.inj (hs.symm.trans h)
    refine ⟨by simp, fun _ _ _ => hdead, ?_⟩
    intro verdict hv
    obtain rfl := Except.ok.inj hv
    exact (by decide : Reason.sessionUnknown ≠ Reason.replayDetected)
  · cases hs.symm.trans h

/-- The store, the log and the checks of a state agree. -/
structure Consistent (p : Platform) (s : System secret S) : Prop where
  orderly : Orderly (spendsOf s.arrivals)
  past : ∀ a ∈ s.arrivals, a.time ≤ s.clock
  store : s.store = S.after (spendsOf s.arrivals)
  nodup : (s.arrivals.map Arrival.call).Nodup
  arrived : ∀ a ∈ s.arrivals, ∃ c raw verdict, s.calls a.call = some c ∧
    c.afterReply p raw = .spending verdict a.request ∧
    c.stage = .resolved raw (endSingleUse verdict (.ok (.boolean a.fresh)))
  spending : ∀ i c raw verdict request, s.calls i = some c →
    c.stage = .spending raw verdict request → c.afterReply p raw = .spending verdict request
  resolved : ∀ i c raw result, s.calls i = some c → c.stage = .resolved raw result →
    c.afterReply p raw = .settled result ∨ ∃ a ∈ s.arrivals, a.call = i

theorem consistent_init : Consistent p (System.init secret S) where
  orderly := ⟨List.Pairwise.nil, fun _ h => absurd h (by simp [spendsOf, System.init])⟩
  past _ h := absurd h (by simp [System.init])
  store := rfl
  nodup := List.nodup_nil
  arrived _ h := absurd h (by simp [System.init])
  spending _ _ _ _ _ h := by cases h
  resolved _ _ _ _ h := by cases h

/-- A spend at the present time keeps the log orderly. -/
theorem Consistent.orderly_concat {s : System secret S} (h : Consistent p s) {time : ℤ}
    (htime : s.clock ≤ time) {request : SpendRequest} (hlife : 0 ≤ request.ttlMs) :
    Orderly (spendsOf s.arrivals ++ [⟨request, time⟩]) := by
  refine ⟨List.pairwise_append.mpr ⟨h.orderly.1, List.pairwise_singleton _ _, ?_⟩, ?_⟩
  · intro a ha b hb
    obtain rfl := List.mem_singleton.mp hb
    obtain ⟨a', ha', rfl⟩ := List.mem_map.mp ha
    exact (h.past a' ha').trans htime
  · intro a ha
    rcases List.mem_append.mp ha with ha | ha
    · exact h.orderly.2 a ha
    · obtain rfl := List.mem_singleton.mp ha
      exact hlife

/-- What a waiting call spends has a lifetime that is not negative. -/
theorem Call.lifetime_nonneg {c : Call secret} {raw : Value} {verdict : Verdict}
    {request : SpendRequest} (h : c.afterReply p raw = .spending verdict request) :
    0 ≤ request.ttlMs := by
  obtain ⟨-, -, r, ⟨-, hlive⟩, rfl⟩ := c.spending_spec h
  exact sub_nonneg.mpr hlive

/-- No spend of a call is in the log before the call has ended. -/
theorem Consistent.not_arrived {s : System secret S} (h : Consistent p s) {i : ℕ}
    (hno : ∀ c raw result, s.calls i = some c → c.stage ≠ .resolved raw result) :
    ∀ a ∈ s.arrivals, a.call ≠ i := by
  rintro a ha rfl
  obtain ⟨c, raw, verdict, hc, -, hstage⟩ := h.arrived a ha
  exact hno c raw _ hc hstage

/-- An event that touches neither the store nor the log keeps the invariant, if call `i`
has not ended before it and its new stage is what the reply makes of it. -/
theorem Consistent.put {s : System secret S} (h : Consistent p s) {time : ℤ}
    (htime : s.clock ≤ time) {i : ℕ} {c : Call secret}
    (hno : ∀ a ∈ s.arrivals, a.call ≠ i)
    (hspending : ∀ raw verdict request, c.stage = .spending raw verdict request →
      c.afterReply p raw = .spending verdict request)
    (hresolved : ∀ raw result, c.stage = .resolved raw result →
      c.afterReply p raw = .settled result) : Consistent p (s.put time i c) := by
  refine ⟨h.orderly, fun a ha => (h.past a ha).trans htime, h.store, h.nodup, ?_, ?_, ?_⟩
  · intro a ha
    obtain ⟨c', raw, verdict, hc', hafter, hres⟩ := h.arrived a ha
    exact ⟨c', raw, verdict, by rw [System.calls_put, if_neg (hno a ha), hc'], hafter, hres⟩
  · intro j c' raw verdict request hj hsp
    rw [System.calls_put] at hj
    split at hj
    · obtain rfl := Option.some.inj hj
      exact hspending raw verdict request hsp
    · exact h.spending j c' raw verdict request hj hsp
  · intro j c' raw result hj hres
    rw [System.calls_put] at hj
    split at hj
    · obtain rfl := Option.some.inj hj
      exact Or.inl (hresolved raw result hres)
    · exact h.resolved j c' raw result hj hres

/-- A spend that reaches the store keeps the invariant. -/
theorem Consistent.arrive {s : System secret S} (h : Consistent p s) {time : ℤ}
    (htime : s.clock ≤ time) {i : ℕ} {c : Call secret} {raw : Value} {verdict : Verdict}
    {request : SpendRequest} (hno : ∀ a ∈ s.arrivals, a.call ≠ i)
    (hafter : c.afterReply p raw = .spending verdict request) :
    Consistent p (s.arrive time i c raw verdict request) where
  orderly := by
    rw [System.arrive, spendsOf_concat]
    exact h.orderly_concat htime (c.lifetime_nonneg hafter)
  past := by
    intro a ha
    rcases List.mem_append.mp ha with ha | ha
    · exact (h.past a ha).trans htime
    · obtain rfl := List.mem_singleton.mp ha
      exact le_rfl
  store := by
    rw [System.arrive, spendsOf_concat, NonceStore.after_concat, ← h.store]
  nodup := by
    rw [System.arrive, List.map_append]
    refine List.nodup_append.mpr ⟨h.nodup, List.nodup_singleton _, ?_⟩
    intro a ha b hb
    obtain ⟨a', ha', rfl⟩ := List.mem_map.mp ha
    obtain rfl := List.mem_singleton.mp hb
    exact hno a' ha'
  arrived := by
    intro a ha
    rcases List.mem_append.mp ha with ha | ha
    · obtain ⟨c', raw', verdict', hc', hafter', hres⟩ := h.arrived a ha
      refine ⟨c', raw', verdict', ?_, hafter', hres⟩
      rw [System.calls_arrive, if_neg (hno a ha), hc']
    · obtain rfl := List.mem_singleton.mp ha
      refine ⟨c.answered raw verdict _, raw, verdict, ?_, hafter, rfl⟩
      rw [System.calls_arrive, if_pos rfl]
  spending := by
    intro j c' raw' verdict' request' hj hsp
    rw [System.calls_arrive] at hj
    split at hj
    · obtain rfl := Option.some.inj hj
      cases hsp
    · exact h.spending j c' raw' verdict' request' hj hsp
  resolved := by
    intro j c' raw' result hj hres
    rw [System.calls_arrive] at hj
    split at hj
    · next hji =>
        exact Or.inr ⟨_, List.mem_append_right _ (List.mem_singleton_self _), hji.symm⟩
    · rcases h.resolved j c' raw' result hj hres with hset | ⟨a, ha, hcall⟩
      · exact Or.inl hset
      · exact Or.inr ⟨a, List.mem_append_left _ ha, hcall⟩

/-- **The invariant is kept by every event.** -/
theorem Consistent.step {s s' : System secret S} {e : Event secret} (h : Consistent p s)
    (hstep : EightEen.step p s e = some s') : Consistent p s' := by
  obtain ⟨htime, ⟨i, replica, proof, -, hnone, rfl⟩ | ⟨i, outcome, c, -, hc, hstage, rfl⟩ |
    ⟨i, c, raw, verdict, request, -, hc, hstage, rfl⟩⟩ := step_cases hstep
  · refine h.put htime (h.not_arrived fun c raw result hc => ?_) ?_ ?_
    · cases hnone.symm.trans hc
    · intro raw verdict request hsp
      cases hsp
    · intro raw result hres
      cases hres
  · refine h.put htime (h.not_arrived fun c' raw result hc' => ?_) ?_ ?_
    · rw [← Option.some.inj (hc.symm.trans hc'), hstage]
      simp
    all_goals rw [Call.replied]; dsimp only
    · intro raw verdict request hsp
      split at hsp
      · cases hsp
      · next hafter =>
          cases hsp
          exact hafter
    · intro raw result hres
      split at hres
      · next hafter =>
          cases hres
          exact hafter
      · cases hres
  · refine h.arrive htime (h.not_arrived fun c' raw' result hc' => ?_)
      (h.spending i c raw verdict request hc hstage)
    rw [← Option.some.inj (hc.symm.trans hc'), hstage]
    simp

/-- **The invariant holds in every reachable state.** -/
theorem consistent_of_run {s : System secret S} {events : List (Event secret)}
    (hrun : exec (step p) (System.init secret S) events = some s) : Consistent p s :=
  exec_invariant (fun _ _ _ h hstep => h.step hstep) hrun consistent_init

/-- Over a store that keeps its contract, the log of every reachable state records the
answers of the memory. -/
theorem recorded_of_run (hS : S.KeepsContract) {s : System secret S}
    {events : List (Event secret)}
    (hrun : exec (step p) (System.init secret S) events = some s) : Recorded s.arrivals := by
  refine (exec_invariant (I := fun s => Consistent p s ∧ Recorded s.arrivals) ?_ hrun
    ⟨consistent_init, Recorded.nil⟩).2
  rintro s e s' ⟨h, hrec⟩ hstep
  refine ⟨h.step hstep, ?_⟩
  obtain ⟨htime, ⟨i, replica, proof, -, -, rfl⟩ | ⟨i, outcome, c, -, -, -, rfl⟩ |
    ⟨i, c, raw, verdict, request, -, hc, hstage, rfl⟩⟩ := step_cases hstep
  · exact hrec
  · exact hrec
  · refine hrec.concat ?_
    rw [h.store]
    exact hS _ _ (h.orderly_concat htime
      (c.lifetime_nonneg (h.spending i c raw verdict request hc hstage)))

/-! ### Admission -/

/-- The proof of the call is bound to the transcript that carries `nonce`. -/
def Call.BoundTo (c : Call secret) (nonce : List UInt8) : Prop :=
  toBuffer c.transcript = some (frame nonce)

/-- Check `i` was made of a proof bound to `nonce`, and has ended with
`over_threshold: true`. -/
def Admitted (s : System secret S) (i : ℕ) (nonce : List UInt8) : Prop :=
  ∃ c raw result, s.calls i = some c ∧ c.BoundTo nonce ∧ c.stage = .resolved raw result ∧
    Gives true result

/-- The key under which `nonce` is spent. -/
def keyOf (nonce : List UInt8) : String :=
  String.ofList (base64Url nonce)

theorem keyOf_injective {m n : List UInt8} (h : keyOf m = keyOf n) : m = n :=
  base64Url_injective (String.ofList_injective h)

/-- A call that spends is bound to the nonce whose key it spends, and to no other. -/
theorem Call.boundTo_iff {c : Call secret} {raw : Value} {verdict : Verdict}
    {request : SpendRequest} (h : c.afterReply p raw = .spending verdict request)
    (nonce : List UInt8) : c.BoundTo nonce ↔ request.nonceKey = keyOf nonce := by
  obtain ⟨-, -, r, ⟨hr, -⟩, rfl⟩ := c.spending_spec h
  obtain ⟨-, payload, -, hbuf, rfl⟩ := (inspectChallenge_eq_some_iff _ _ _ _ _).mp hr
  rw [BoundTo, hbuf, Option.some.injEq]
  constructor
  · intro hframe
    rw [← frame_injective hframe]
    rfl
  · intro hkey
    rw [keyOf_injective hkey]

/-- Such a nonce exists. -/
theorem Call.exists_boundTo {c : Call secret} {raw : Value} {verdict : Verdict}
    {request : SpendRequest} (h : c.afterReply p raw = .spending verdict request) :
    ∃ nonce, c.BoundTo nonce ∧ request.nonceKey = keyOf nonce := by
  obtain ⟨-, -, r, ⟨hr, -⟩, rfl⟩ := c.spending_spec h
  obtain ⟨-, payload, -, hbuf, rfl⟩ := (inspectChallenge_eq_some_iff _ _ _ _ _).mp hr
  exact ⟨nonceOf p secret payload, hbuf, rfl⟩

/-- An answer of the store that is a boolean decides between the accept and the replay. -/
theorem gives_endSingleUse_iff {verdict : Verdict} (haccept : verdict.IsAccept)
    (fresh : Bool) :
    Gives true (endSingleUse verdict (.ok (.boolean fresh))) ↔ fresh = true := by
  cases fresh with
  | true => exact iff_of_true ⟨verdict, rfl, haccept.2⟩ rfl
  | false =>
      refine iff_of_false ?_ (by simp)
      rintro ⟨v, hv, hover⟩
      cases hv
      cases hover

/-- **A check is accepted exactly when its spend is in the log as a success.** -/
theorem Consistent.admitted_iff {s : System secret S} (h : Consistent p s) (i : ℕ)
    (nonce : List UInt8) :
    Admitted s i nonce ↔
      ∃ a ∈ s.arrivals, a.call = i ∧ a.fresh = true ∧ a.key = keyOf nonce := by
  constructor
  · rintro ⟨c, raw, result, hc, hbound, hstage, hgives⟩
    rcases h.resolved i c raw result hc hstage with hset | ⟨a, ha, rfl⟩
    · exact absurd hgives (c.settled_spec hset).1
    obtain ⟨c', raw', verdict, hc', hafter, hres⟩ := h.arrived a ha
    obtain rfl := Option.some.inj (hc.symm.trans hc')
    cases hstage.symm.trans hres
    obtain ⟨-, haccept, -⟩ := c.spending_spec hafter
    exact ⟨a, ha, rfl, (gives_endSingleUse_iff haccept a.fresh).mp hgives,
      (c.boundTo_iff hafter nonce).mp hbound⟩
  · rintro ⟨a, ha, rfl, hfresh, hkey⟩
    obtain ⟨c, raw, verdict, hc, hafter, hres⟩ := h.arrived a ha
    obtain ⟨-, haccept, -⟩ := c.spending_spec hafter
    exact ⟨c, raw, _, hc, (c.boundTo_iff hafter nonce).mpr hkey, hres,
      (gives_endSingleUse_iff haccept a.fresh).mpr hfresh⟩

end EightEen
