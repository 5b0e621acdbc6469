import EightEen.Replay

/-!
# Visitors Do Not Disturb Each Other

Over the in-memory store, nobody can burn or block a challenge that was handed to somebody
else. The three parts of the statement are about whole runs: a check is called a replay
only after an accepted check of the same nonce (`replayed_after_admission`), a visitor who
answers their own challenge in time is let in (`honest_visitor_admitted`), and the checks
that end without the store can be deleted from the run without a trace
(`run_without_idle`).
-/

open Js Transition

namespace EightEen

variable {p : Platform} {secret : Value} {S : NonceStore}

/-! ### Replays follow admissions -/

/-- The spend of check `j` reached the store before the spend of check `i`. -/
def SpentBefore (s : System secret S) (j i : ℕ) : Prop :=
  ∃ before after, s.arrivals = before ++ after ∧ (∃ a ∈ before, a.call = j) ∧
    ∃ a ∈ after, a.call = i

/-- A check that is called a replay comes after an accepted check of the same nonce. -/
theorem replayed_after_admission (hS : S.KeepsContract) {s : System secret S}
    {events : List (Event secret)}
    (hrun : exec (step p) (System.init secret S) events = some s) {i : ℕ} {c : Call secret}
    {raw : Value} {v : Verdict} (hc : s.calls i = some c)
    (hstage : c.stage = .resolved raw (.ok v)) (hreason : v.reason = .replayDetected) :
    ∃ nonce j, c.BoundTo nonce ∧ SpentBefore s j i ∧ Admitted s j nonce := by
  have h := consistent_of_run hrun
  rcases h.resolved i c raw (.ok v) hc hstage with hset | ⟨a, ha, rfl⟩
  · exact absurd hreason ((c.settled_spec hset).2.2 v rfl)
  obtain ⟨c', raw', verdict, hc', hafter, hres⟩ := h.arrived a ha
  obtain rfl := Option.some.inj (hc.symm.trans hc')
  obtain ⟨hstateless, haccept, -⟩ := c.spending_spec hafter
  obtain ⟨nonce, hbound, hkey⟩ := c.exists_boundTo hafter
  have hresult := (CallStage.resolved.inj (hstage.symm.trans hres)).2
  -- A fresh spend would have left the verdict of the service in place.
  have hstale : a.fresh = false := by
    by_contra hfresh
    rw [Bool.not_eq_false] at hfresh
    rw [hfresh] at hresult
    obtain rfl := Except.ok.inj hresult
    have hmem := (classify_stateless hstateless).reason
    rw [hreason] at hmem
    exact absurd hmem (by decide)
  obtain ⟨before, after, hsplit⟩ := List.append_of_mem ha
  have hrec := recorded_of_run hS hrun
  rw [hsplit] at hrec
  obtain ⟨hbefore, hanswer⟩ := hrec.split
  have hremembered : (Memory.after (spendsOf before)).remembers a.key a.time = true := by
    by_contra hno
    rw [Memory.spend_of_forgotten (s := a.toSpend) (Bool.eq_false_iff.mpr hno),
      hstale] at hanswer
    exact absurd hanswer (by simp)
  rw [Memory.remembers] at hremembered
  split at hremembered
  swap
  · exact absurd hremembered (by simp)
  next through hthrough =>
  obtain ⟨b, hb, hbkey, hbfresh⟩ := exists_fresh_of_remembered hbefore hthrough
  have hbmem : b ∈ s.arrivals := hsplit ▸ List.mem_append_left _ hb
  have hnonce : b.key = keyOf nonce := hbkey.trans hkey
  exact ⟨nonce, b.call, hbound,
    ⟨before, a :: after, hsplit, ⟨b, hb, rfl⟩, a, List.mem_cons_self, rfl⟩,
    (h.admitted_iff _ _).mpr ⟨b, hbmem, rfl, hbfresh, hnonce⟩⟩

/-! ### The honest visitor -/

/-- The check has the verdict `verdict` from the service, which is an accept, for a proof
bound to a challenge that was issued under the secret and that its clock reading has not
passed. -/
structure Honest (p : Platform) (c : Call secret) (raw : Value) (verdict : Verdict)
    (challenge : Challenge) : Prop where
  accepted : c.stateless p raw = .ok verdict ∧ verdict.IsAccept
  issued : ∃ random clock ttlMs now,
    issueChallenge p random clock secret ttlMs now = .ok challenge
  bound : toBuffer c.transcript = some challenge.transcript
  inTime : c.readAt.val ≤ challenge.expiresAt

/-- The reply of the service to the call. -/
def Call.reply? (c : Call secret) : Option Value :=
  match c.stage with
  | .verifying => none
  | .spending raw _ _ => some raw
  | .resolved raw _ => some raw

/-- A spend of the nonce has reached the store, and no spend of check `i` before it. -/
def SpentByOther (s : System secret S) (i : ℕ) (nonce : List UInt8) : Prop :=
  ∃ before after, s.arrivals = before ++ after ∧ (∃ a ∈ before, a.key = keyOf nonce) ∧
    ∀ a ∈ before, a.call ≠ i

/-- The challenge of an honest visitor is live. -/
theorem Honest.live {c : Call secret} {raw : Value} {verdict : Verdict} {challenge : Challenge}
    (h : Honest p c raw verdict challenge) :
    ∃ r, LiveChallenge p c.transcript secret c.readAt r ∧
      r.nonceKey = keyOf challenge.nonce := by
  obtain ⟨random, clock, ttlMs, now, hissue⟩ := h.issued
  refine ⟨_, ⟨inspectChallenge_issueChallenge hissue h.bound _, ?_⟩, rfl⟩
  exact h.inTime

/-- A check that spends for an honest visitor spends the visitor's nonce, for the verdict
of the service. -/
theorem Honest.spending {c : Call secret} {raw : Value} {verdict v : Verdict}
    {challenge : Challenge} (h : Honest p c raw verdict challenge) {request : SpendRequest}
    (hafter : c.afterReply p raw = .spending v request) :
    v = verdict ∧ request.nonceKey = keyOf challenge.nonce := by
  obtain ⟨hstateless, -, r', hlive', rfl⟩ := c.spending_spec hafter
  obtain ⟨r, hlive, hkey⟩ := h.live
  obtain rfl := Option.some.inj (hlive.1.symm.trans hlive'.1)
  exact ⟨Except.ok.inj (hstateless.symm.trans h.accepted.1), hkey⟩

/-- **The honest visitor is let in**: unless somebody has spent the nonce before, the check
has ended in the verdict of the service, or the arrival of its spend ends it so. -/
theorem honest_visitor_admitted (hS : S.KeepsContract) {s : System secret S}
    {events : List (Event secret)}
    (hrun : exec (step p) (System.init secret S) events = some s) {i : ℕ} {c : Call secret}
    {raw : Value} {verdict : Verdict} {challenge : Challenge} (hc : s.calls i = some c)
    (hreply : c.reply? = some raw) (hhonest : Honest p c raw verdict challenge)
    (hfirst : ¬SpentByOther s i challenge.nonce) :
    c.stage = .resolved raw (.ok verdict) ∨
      ∃ request, c.stage = .spending raw verdict request ∧
        ∀ time : TimeValue, s.clock ≤ time.val →
          ∃ s' c', step p s ⟨time, .arrive i⟩ = some s' ∧ s'.calls i = some c' ∧
            c'.stage = .resolved raw (.ok verdict) := by
  have h := consistent_of_run hrun
  have hend : endSingleUse verdict (.ok (.boolean true)) = .ok verdict := rfl
  obtain ⟨r, hlive, -⟩ := hhonest.live
  rw [Call.reply?] at hreply
  split at hreply
  · cases hreply
  · next raw' v request hstage =>
      obtain rfl := Option.some.inj hreply
      have hafter := h.spending i c raw' v request hc hstage
      obtain ⟨rfl, hkey⟩ := hhonest.spending hafter
      refine Or.inr ⟨request, hstage, ?_⟩
      intro time htime
      have hnot : ∀ a ∈ s.arrivals, a.call ≠ i := by
        refine h.not_arrived fun c' raw result hc' => ?_
        rw [← Option.some.inj (hc.symm.trans hc'), hstage]
        simp
      have hunspent : ∀ a ∈ s.arrivals, a.key ≠ keyOf challenge.nonce :=
        fun a ha hak => hfirst ⟨s.arrivals, [], (List.append_nil _).symm, ⟨a, ha, hak⟩, hnot⟩
      have hfresh : (S.spend s.store ⟨request, time⟩).1 = true := by
        rw [h.store, hS _ _ (h.orderly_concat htime (c.lifetime_nonneg hafter)),
          Memory.spend_of_forgotten]
        rw [hkey, Memory.remembers, after_eq_none hunspent]
      refine ⟨s.arrive time i c raw' v request, c.answered raw' v true, ?_, ?_, ?_⟩
      · rw [step, if_neg (not_lt.mpr htime)]
        simp only [hc, hstage]
      · rw [System.calls_arrive, if_pos rfl, hfresh]
      · rw [Call.answered, hend]
  · next raw' result hstage =>
      obtain rfl := Option.some.inj hreply
      refine Or.inl ?_
      rcases h.resolved i c raw' result hc hstage with hset | ⟨a, ha, rfl⟩
      · exact absurd hlive ((c.settled_spec hset).2.1 verdict hhonest.accepted.1
          hhonest.accepted.2 r)
      obtain ⟨c', raw, v, hc', hafter, hres⟩ := h.arrived a ha
      obtain rfl := Option.some.inj (hc.symm.trans hc')
      obtain ⟨rfl, hresult⟩ := CallStage.resolved.inj (hstage.symm.trans hres)
      obtain ⟨rfl, hkey⟩ := hhonest.spending hafter
      obtain ⟨before, after, hsplit⟩ := List.append_of_mem ha
      have hrec := recorded_of_run hS hrun
      rw [hsplit] at hrec
      have hnodup := h.nodup
      rw [hsplit, List.map_append, List.map_cons, List.nodup_append] at hnodup
      have hothers : ∀ b ∈ before, b.call ≠ a.call := fun b hb =>
        hnodup.2.2 _ (List.mem_map_of_mem hb) _ List.mem_cons_self
      have hunspent : ∀ b ∈ before, b.key ≠ keyOf challenge.nonce :=
        fun b hb hbk => hfirst ⟨before, a :: after, hsplit, ⟨b, hb, hbk⟩, hothers⟩
      have hfresh : a.fresh = true := by
        rw [hrec.split.2, Memory.spend_of_forgotten]
        rw [hkey, Memory.remembers, after_eq_none hunspent]
      rw [hstage, hresult, hfresh, hend]

/-! ### Deleting the others -/

/-- Check `i` has ended, and either the service did not accept its proof or the proof was
not bound to a live challenge. -/
def Idle (p : Platform) (s : System secret S) (i : ℕ) : Prop :=
  ∃ c raw result, s.calls i = some c ∧ c.stage = .resolved raw result ∧
    ∀ verdict, c.stateless p raw = .ok verdict → verdict.IsAccept →
      ∀ r, ¬LiveChallenge p c.transcript secret c.readAt r

/-- No spend of such a check is in the log. -/
theorem Consistent.not_arrived_of_idle {s : System secret S} (h : Consistent p s) {i : ℕ}
    (hidle : Idle p s i) : ∀ a ∈ s.arrivals, a.call ≠ i := by
  rintro a ha rfl
  obtain ⟨c, raw, result, hc, hstage, hno⟩ := hidle
  obtain ⟨c', raw', verdict, hc', hafter, hres⟩ := h.arrived a ha
  obtain rfl := Option.some.inj (hc.symm.trans hc')
  obtain ⟨rfl, -⟩ := CallStage.resolved.inj (hstage.symm.trans hres)
  obtain ⟨hstateless, haccept, r, hlive, -⟩ := c.spending_spec hafter
  exact hno verdict hstateless haccept r hlive

/-- The log only grows. -/
theorem arrivals_subset {s s' : System secret S} {events : List (Event secret)}
    (hrun : exec (step p) s events = some s') : s.arrivals ⊆ s'.arrivals := by
  refine exec_invariant (I := fun t => s.arrivals ⊆ t.arrivals) ?_ hrun (List.Subset.refl _)
  intro t e t' hsub hstep
  obtain ⟨-, ⟨i, replica, proof, -, -, rfl⟩ | ⟨i, outcome, c, -, -, -, rfl⟩ |
    ⟨i, c, raw, verdict, request, -, -, -, rfl⟩⟩ := step_cases hstep
  · exact hsub
  · exact hsub
  · exact fun a ha => List.mem_append_left _ (hsub ha)

/-- A spend that reaches the store in the run is in the log at its end. -/
theorem exists_arrival {s s' : System secret S} {events : List (Event secret)}
    (hrun : exec (step p) s events = some s') {e : Event secret} (he : e ∈ events) {i : ℕ}
    (hwhat : e.what = .arrive i) : ∃ a ∈ s'.arrivals, a.call = i := by
  obtain ⟨before, after, rfl⟩ := List.append_of_mem he
  obtain ⟨t, -, hafter⟩ := exec_append_eq_some_iff.mp hrun
  obtain ⟨t', hstep, hrest⟩ := exec_cons_eq_some_iff.mp hafter
  obtain ⟨-, ⟨j, replica, proof, hw, -⟩ | ⟨j, outcome, c, hw, -⟩ |
    ⟨j, c, raw, verdict, request, hw, -, -, rfl⟩⟩ := step_cases hstep
  · cases hwhat.symm.trans hw
  · cases hwhat.symm.trans hw
  · cases hwhat.symm.trans hw
    exact ⟨_, arrivals_subset hrest (List.mem_append_right _ (List.mem_singleton_self _)), rfl⟩

/-- The same store and log, the same kept checks, and a clock that is not ahead. -/
structure SameBut (keep : ℕ → Bool) (s t : System secret S) : Prop where
  clock : t.clock ≤ s.clock
  calls : ∀ i, keep i = true → t.calls i = s.calls i
  store : t.store = s.store
  arrivals : t.arrivals = s.arrivals

/-- An event about a kept check does the same in both states. -/
theorem SameBut.step {keep : ℕ → Bool} {s t s' : System secret S} {e : Event secret}
    (h : SameBut keep s t) (hkeep : keep e.what.call = true)
    (hstep : EightEen.step p s e = some s') :
    ∃ t', EightEen.step p t e = some t' ∧ SameBut keep s' t' := by
  have hput : ∀ {time : ℤ} {i : ℕ} {c : Call secret},
      SameBut keep (s.put time i c) (t.put time i c) := by
    intro time i c
    refine ⟨le_rfl, ?_, h.store, h.arrivals⟩
    intro j hj
    rw [System.calls_put, System.calls_put, h.calls j hj]
  obtain ⟨htime, ⟨i, replica, proof, hw, hnone, rfl⟩ | ⟨i, outcome, c, hw, hc, hstage, rfl⟩ |
    ⟨i, c, raw, verdict, request, hw, hc, hstage, rfl⟩⟩ := step_cases hstep
  all_goals
    rw [hw] at hkeep
    have hclock : ¬e.time.val < t.clock := not_lt.mpr (h.clock.trans htime)
  · refine ⟨t.put e.time i ⟨replica, proof, e.time, .verifying⟩, ?_, hput⟩
    rw [EightEen.step, if_neg hclock]
    simp only [hw, h.calls i hkeep, hnone]
  · refine ⟨t.put e.time i (c.replied p outcome.toValue), ?_, hput⟩
    rw [EightEen.step, if_neg hclock]
    simp only [hw, h.calls i hkeep, hc, hstage]
  · refine ⟨t.arrive e.time i c raw verdict request, ?_, le_rfl, ?_, ?_, ?_⟩
    · rw [EightEen.step, if_neg hclock]
      simp only [hw, h.calls i hkeep, hc, hstage]
    · intro j hj
      rw [System.calls_arrive, System.calls_arrive, h.calls j hj, h.store]
    · rw [System.arrive, System.arrive, h.store]
    · rw [System.arrive, System.arrive, h.store, h.arrivals]

/-- **Deleting idle checks** from a run changes no other check. -/
theorem run_without_idle {s : System secret S} {events : List (Event secret)}
    (hrun : exec (step p) (System.init secret S) events = some s) (keep : ℕ → Bool)
    (hidle : ∀ i, keep i = false → Idle p s i) :
    ∃ s', exec (step p) (System.init secret S)
        (events.filter fun e => keep e.what.call) = some s' ∧
      ∀ i, keep i = true → s'.calls i = s.calls i := by
  have hkept : ∀ (t : System secret S) e t' u, keep (Event.what e).call = true →
      SameBut keep t u → step p t e = some t' → ∃ u', step p u e = some u' ∧ SameBut keep t' u' :=
    fun t e t' u hkeep hsame hstep => hsame.step hkeep hstep
  have hdropped : ∀ (t : System secret S) e t' u, e ∈ events → keep (Event.what e).call = false →
      SameBut keep t u → step p t e = some t' → SameBut keep t' u := by
    intro t e t' u he hkeep hsame hstep
    have hput : ∀ {time : ℤ} {i : ℕ} {c : Call secret}, t.clock ≤ time → keep i = false →
        SameBut keep (t.put time i c) u := by
      intro time i c htime hi
      refine ⟨hsame.clock.trans htime, ?_, hsame.store, hsame.arrivals⟩
      intro j hj
      rw [System.calls_put, if_neg, hsame.calls j hj]
      rintro rfl
      rw [hi] at hj
      cases hj
    obtain ⟨htime, ⟨i, replica, proof, hw, -, rfl⟩ | ⟨i, outcome, c, hw, -, -, rfl⟩ |
      ⟨i, c, raw, verdict, request, hw, -, -, rfl⟩⟩ := step_cases hstep
    all_goals rw [hw] at hkeep
    · exact hput htime hkeep
    · exact hput htime hkeep
    · -- An idle check never reaches the store.
      obtain ⟨a, ha, hcall⟩ := exists_arrival hrun he hw
      exact absurd hcall ((consistent_of_run hrun).not_arrived_of_idle (hidle i hkeep) a ha)
  obtain ⟨s', hs', hsame⟩ := exec_filter hkept hdropped hrun ⟨le_rfl, fun _ _ => rfl, rfl, rfl⟩
  exact ⟨s', hs', hsame.calls⟩

/-- **Nobody can burn or block another visitor's challenge.** -/
theorem nobody_disturbs_another {s : System secret inMemoryNonceStore}
    {events : List (Event secret)}
    (hrun : exec (step p) (System.init secret inMemoryNonceStore) events = some s) :
    (∀ i c raw v, s.calls i = some c → c.stage = .resolved raw (.ok v) →
      v.reason = .replayDetected →
      ∃ nonce j, c.BoundTo nonce ∧ SpentBefore s j i ∧ Admitted s j nonce) ∧
    (∀ i c raw verdict challenge, s.calls i = some c → c.reply? = some raw →
      Honest p c raw verdict challenge → ¬SpentByOther s i challenge.nonce →
      c.stage = .resolved raw (.ok verdict) ∨
        ∃ request, c.stage = .spending raw verdict request ∧
          ∀ time : TimeValue, s.clock ≤ time.val →
            ∃ s' c', step p s ⟨time, .arrive i⟩ = some s' ∧ s'.calls i = some c' ∧
              c'.stage = .resolved raw (.ok verdict)) ∧
    (∀ keep : ℕ → Bool, (∀ i, keep i = false → Idle p s i) →
      ∃ s', exec (step p) (System.init secret inMemoryNonceStore)
          (events.filter fun e => keep e.what.call) = some s' ∧
        ∀ i, keep i = true → s'.calls i = s.calls i) := by
  refine ⟨?_, ?_, ?_⟩
  · intro i c raw v hc hstage hreason
    exact replayed_after_admission inMemoryNonceStore_keepsContract hrun hc hstage hreason
  · intro i c raw verdict challenge hc hreply hhonest hfirst
    exact honest_visitor_admitted inMemoryNonceStore_keepsContract hrun hc hreply hhonest hfirst
  · exact run_without_idle hrun

/-- The reply to a proof that does not verify. -/
def rejectingReply : Outcome :=
  .response 200 (.object [("Status", .boolean false), ("Message", .string "invalid proof")])

/-- A proof that is bound to a nonce nobody has issued. -/
def forgedProof : Value :=
  .object [("transcript", .binary .uint8Array (frame (List.replicate 56 1))),
    ("deviceResponse", .binary .uint8Array [0])]

/-- An honest visitor (check 0), between a proof that the service rejects (check 2) and a forged
challenge (check 3); a replay of the visitor's proof follows (check 1). -/
def visitorsRun : List (Event sampleSecret) :=
  [⟨sampleTime 0, .begin 2 sampleReplica sampleProof⟩,
    ⟨sampleTime 0, .begin 0 sampleReplica sampleProof⟩,
    ⟨sampleTime 1, .begin 3 sampleReplica forgedProof⟩,
    ⟨sampleTime 2, .reply 2 rejectingReply⟩,
    ⟨sampleTime 3, .reply 0 sampleReply⟩,
    ⟨sampleTime 4, .reply 3 sampleReply⟩,
    ⟨sampleTime 5, .arrive 0⟩,
    ⟨sampleTime 6, .begin 1 sampleReplica sampleProof⟩,
    ⟨sampleTime 7, .reply 1 sampleReply⟩,
    ⟨sampleTime 8, .arrive 1⟩]

/-- What is left of the run without the checks 2 and 3. -/
def undisturbedRun : List (Event sampleSecret) :=
  [⟨sampleTime 0, .begin 0 sampleReplica sampleProof⟩,
    ⟨sampleTime 3, .reply 0 sampleReply⟩,
    ⟨sampleTime 5, .arrive 0⟩,
    ⟨sampleTime 6, .begin 1 sampleReplica sampleProof⟩,
    ⟨sampleTime 7, .reply 1 sampleReply⟩,
    ⟨sampleTime 8, .arrive 1⟩]

/-- The challenge of the honest visitor. -/
def visitorsChallenge : Challenge :=
  ⟨sampleNonce, sampleTranscript, 1700000300000⟩

/-- The verdict on the visitor's proof. -/
def visitorsVerdict : Verdict :=
  answered true .verified (.string "age_over_18")

/-- Where the four checks stand at the end of the run, and whose spends have arrived. -/
theorem visitorsRun_ends :
    ∃ s, exec (step .sample) (System.init sampleSecret inMemoryNonceStore) visitorsRun = some s ∧
      s.arrivals.map Arrival.call = [0, 1] ∧
      s.calls 0 = some ⟨sampleReplica, sampleProof, sampleTime 0,
        .resolved sampleReply.toValue (.ok visitorsVerdict)⟩ ∧
      s.calls 1 = some ⟨sampleReplica, sampleProof, sampleTime 6, .resolved sampleReply.toValue
        (endSingleUse visitorsVerdict (.ok (.boolean false)))⟩ ∧
      (∃ result, s.calls 2 = some ⟨sampleReplica, sampleProof, sampleTime 0,
        .resolved rejectingReply.toValue result⟩) ∧
      ∃ result, s.calls 3 = some ⟨sampleReplica, forgedProof, sampleTime 1,
        .resolved sampleReply.toValue result⟩ :=
  ⟨_, rfl, rfl, rfl, rfl, ⟨_, rfl⟩, _, rfl⟩

/-- The visitor's challenge was issued. -/
theorem issueChallenge_visitorsChallenge :
    issueChallenge .sample ⟨List.replicate 16 42, rfl⟩ (sampleTime 0) sampleSecret
      (.ofNat 300000) .undefined = .ok visitorsChallenge := by
  with_unfolding_all rfl

/-- Each of the three parts in this run: the replay comes after an admission, the visitor is let
in, and without the two other checks both end as they do. -/
theorem nobody_disturbs_another_visitorsRun :
    ∃ s s', exec (step .sample) (System.init sampleSecret inMemoryNonceStore) visitorsRun = some s ∧
      exec (step .sample) (System.init sampleSecret inMemoryNonceStore) undisturbedRun = some s' ∧
      (∃ nonce j, SpentBefore s j 1 ∧ Admitted s j nonce) ∧
      (∃ c, s.calls 0 = some c ∧
        c.stage = .resolved sampleReply.toValue (.ok visitorsVerdict)) ∧
      s'.calls 0 = s.calls 0 ∧ s'.calls 1 = s.calls 1 := by
  obtain ⟨s, hrun, harrivals, hvisit, hagain, ⟨result, hrejected⟩, result', hforged⟩ :=
    visitorsRun_ends
  obtain ⟨hreplay, hvisitor, hothers⟩ := nobody_disturbs_another hrun
  obtain ⟨nonce, j, -, hspent, hadmitted⟩ := hreplay 1 _ _ _ hagain rfl rfl
  have hfirst : ¬SpentByOther s 0 visitorsChallenge.nonce := by
    rintro ⟨before, after, hsplit, ⟨a, ha, -⟩, hnot⟩
    rw [hsplit, List.map_append] at harrivals
    cases before with
    | nil => cases ha
    | cons b before =>
        have hcall := (List.cons.inj harrivals).1
        exact hnot b List.mem_cons_self hcall
  have hlet := hvisitor 0 _ sampleReply.toValue visitorsVerdict visitorsChallenge hvisit rfl
    ⟨⟨rfl, by decide⟩, ⟨_, _, _, _, issueChallenge_visitorsChallenge⟩, rfl, by decide⟩ hfirst
  have hidle : ∀ i, decide (i ≠ 2 ∧ i ≠ 3) = false → Idle .sample s i := by
    intro i hi
    rw [decide_eq_false_iff_not, not_and_or, not_not, not_not] at hi
    rcases hi with rfl | rfl
    · refine ⟨_, _, _, hrejected, rfl, fun verdict hverdict haccept => ?_⟩
      obtain rfl := Except.ok.inj hverdict
      exact absurd haccept (by decide)
    · refine ⟨_, _, _, hforged, rfl, fun verdict _ _ r hlive => ?_⟩
      have hnone : inspectChallenge .sample (forgedProof.get "transcript") sampleSecret
          (.number (.finite (sampleTime 1).val)) = none := by decide +kernel
      exact absurd (hnone.symm.trans hlive.1) (by simp)
  obtain ⟨s', hkept, hsame⟩ := hothers _ hidle
  refine ⟨s, s', hrun, hkept, ⟨nonce, j, hspent, hadmitted⟩, ⟨_, hvisit, ?_⟩, hsame 0 rfl,
    hsame 1 rfl⟩
  rcases hlet with hstage | ⟨request, hstage, -⟩
  · exact hstage
  · cases hstage

end EightEen
