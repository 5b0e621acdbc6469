import EightEen.Verifier

/-!
# One Check

What `Verifier.check` promises about a single call: when it ends in a verdict and what it
hands to the store, and how its answer changes when the policy is made stricter.

## Main results

* `check_failsClosed_iff`: a check with single use keeps its promise exactly when
  `classify` can read the exchange, the store answers, and the clock has not reached the
  expiry of the challenge.
* `check_stricter`: a stricter policy only ever withdraws an accept.
-/

open Js

namespace EightEen

/-! ### Failing closed -/

/-- The promise of `check`: it ends in a verdict whose two halves agree, an accept has been
spent with a truthy answer, and every lifetime handed to the store is positive. -/
structure FailsClosed (spend : SpendRequest → Completion Value)
    (run : Completion Verdict × List SpendRequest) : Prop where
  resolves : ∃ verdict, run.1 = .ok verdict ∧ verdict.Sound
  spent : ∀ verdict, run.1 = .ok verdict → verdict.IsAccept →
    ∃ request fresh, run.2 = [request] ∧ spend request = .ok fresh ∧ fresh.truthy = true
  lifetimes : ∀ request ∈ run.2, 0 < request.ttlMs

/-- A verdict that needs no store keeps the promise unless it is an accept. -/
theorem failsClosed_settled (spend : SpendRequest → Completion Value) {verdict : Verdict}
    (hsound : verdict.Sound) (hno : ¬verdict.IsAccept) :
    FailsClosed spend ((CheckStage.settled (.ok verdict)).finish spend) where
  resolves := ⟨verdict, rfl, hsound⟩
  spent := by
    intro verdict' h haccept
    obtain rfl := Except.ok.inj h
    exact absurd haccept hno
  lifetimes := by
    intro request h
    exact absurd h (by simp [CheckStage.finish])

/-- An accept that waits for the store keeps the promise exactly when the store answers
and the lifetime is positive. -/
theorem failsClosed_spending_iff (spend : SpendRequest → Completion Value)
    {verdict : Verdict} (hsound : verdict.Sound) (request : SpendRequest) :
    FailsClosed spend ((CheckStage.spending verdict request).finish spend) ↔
      0 < request.ttlMs ∧ ∃ fresh, spend request = .ok fresh := by
  constructor
  · intro h
    refine ⟨h.lifetimes request (List.mem_singleton_self _), ?_⟩
    obtain ⟨v, hv, -⟩ := h.resolves
    obtain ⟨fresh, hfresh, -⟩ := bind_eq_ok.mp hv
    exact ⟨fresh, hfresh⟩
  · rintro ⟨hpos, fresh, hfresh⟩
    have hend : endSingleUse verdict (spend request) =
        if ¬fresh.truthy then .ok (unanswerable .replayDetected
          (.string "this presentation was already spent in its session (replay)"))
        else .ok verdict := by
      rw [hfresh]
      rfl
    have hlifetimes : ∀ r ∈ [request], 0 < r.ttlMs := by
      intro r hr
      rwa [List.mem_singleton.mp hr]
    by_cases htruthy : fresh.truthy = true
    · rw [if_neg (not_not.mpr htruthy)] at hend
      exact ⟨⟨verdict, hend, hsound⟩, fun _ _ _ => ⟨request, fresh, rfl, hfresh, htruthy⟩,
        hlifetimes⟩
    · rw [if_pos htruthy] at hend
      refine ⟨⟨_, hend, sound_unanswerable _ _⟩, ?_, hlifetimes⟩
      intro v hv hacc
      obtain rfl := Except.ok.inj (hend.symm.trans hv)
      exact absurd hacc (not_isAccept_unanswerable _ _)

/-- **When `check` keeps its promise**: exactly when `classify` can read the exchange and,
if the proof is accepted for a live challenge, the clock has not reached the expiry and the
store answers. -/
theorem check_failsClosed_iff (p : Platform) (v : Verifier) (now : TimeValue)
    (proof : Value) (outcome : Outcome) (spend : SpendRequest → Completion Value)
    (hsingle : v.requireSingleUse.truthy = true) :
    FailsClosed spend (v.check p now proof outcome.toValue spend) ↔
      (∀ e, ¬Unreadable p outcome.toValue (v.options now) e) ∧
      (Accepts p outcome.toValue (v.options now) →
        ∀ c, LiveChallenge p (proof.get "transcript") v.challengeSecret now c →
          now.val < c.expiresAt ∧
          ∃ fresh, spend { nonceKey := c.nonceKey, ttlMs := (c.expiresAt : ℤ) - now.val } =
            .ok fresh) := by
  rw [Verifier.check]
  rcases v.afterReply_cases p now proof outcome.toValue hsingle with
    ⟨e, hc, h⟩ | ⟨verdict, hc, hno, h⟩ | ⟨verdict, d, hc, haccept, hdead, h⟩ |
      ⟨verdict, c, hc, haccept, hlive, h⟩
  · -- `classify` throws, and so does the check.
    rw [h]
    refine iff_of_false ?_ ?_
    · rintro ⟨⟨verdict, hv, -⟩, -, -⟩
      cases hv
    · rintro ⟨hreadable, -⟩
      exact hreadable e ((classify_throws_iff _ _ _ _).mp hc)
  · rw [h]
    have hsound := (classify_stateless hc).wellFormed.sound
    refine iff_of_true (failsClosed_settled spend hsound hno) ⟨?_, ?_⟩
    · intro e he
      rw [(classify_throws_iff _ _ _ _).mpr he] at hc
      cases hc
    · intro hacc
      exact absurd ((isAccept_iff_accepts hc).mpr hacc) hno
  · rw [h]
    refine iff_of_true (failsClosed_settled spend (sound_unanswerable _ _)
      (not_isAccept_unanswerable _ _)) ⟨?_, ?_⟩
    · intro e he
      rw [(classify_throws_iff _ _ _ _).mpr he] at hc
      cases hc
    · intro _ c hlive
      exact absurd hlive (hdead c)
  · rw [h, failsClosed_spending_iff spend (classify_stateless hc).wellFormed.sound, sub_pos]
    constructor
    · intro hpromise
      refine ⟨?_, ?_⟩
      · intro e he
        rw [(classify_throws_iff _ _ _ _).mpr he] at hc
        cases hc
      · rintro - c' ⟨hc', -⟩
        obtain rfl := Option.some.inj (hlive.1.symm.trans hc')
        exact hpromise
    · rintro ⟨-, hcond⟩
      exact hcond ((isAccept_iff_accepts hc).mp haccept) c hlive

/-- A live challenge and a store that answers are met by a check of the sample proof. -/
theorem check_failsClosed_sample :
    FailsClosed (fun _ => .ok (.boolean true))
      (sampleVerifier.check .sample (sampleTime 0) sampleProof sampleReply.toValue
        fun _ => .ok (.boolean true)) := by
  have hclassify : classify .sample sampleReply.toValue (sampleVerifier.options (sampleTime 0)) =
      .ok (answered true .verified (.string "age_over_18")) := rfl
  have hinspect : inspectChallenge .sample (sampleProof.get "transcript") sampleSecret
      (.number (.finite (sampleTime 0).val)) = some (recognizedOf .sample sampleSecret
        (.number (.finite (sampleTime 0).val)) samplePayload) := by
    decide +kernel
  refine (check_failsClosed_iff .sample sampleVerifier (sampleTime 0) sampleProof sampleReply
    (fun _ => .ok (.boolean true)) rfl).mpr ⟨?_, ?_⟩
  · intro e he
    rw [(classify_throws_iff _ _ _ _).mpr he] at hclassify
    cases hclassify
  · rintro - c ⟨hc, -⟩
    obtain rfl := Option.some.inj (hinspect.symm.trans hc)
    exact ⟨by decide +kernel, _, rfl⟩

/-- The reply of a service whose failure message is an object without a text. -/
def hostileReply : Outcome :=
  .response 200 (.object [("Status", .boolean false), ("Message", hostileObject)])

/-- **Three ways to break the promise**, each over a verifier that its constructor admits:
a store that throws makes `check` throw, a clock that stands at the expiry makes it hand
out a lifetime of zero, and a message without a text makes it throw before any store is
asked. -/
theorem check_breaks_its_promise :
    Verifier.construct .sample ⟨List.replicate 16 42, rfl⟩ (sampleTime 0)
        (.string "age_over_18") samplePolicy = .ok sampleVerifier ∧
      ¬FailsClosed (fun _ => .error (.error "store unreachable"))
        (sampleVerifier.check .sample (sampleTime 0) sampleProof sampleReply.toValue
          fun _ => .error (.error "store unreachable")) ∧
      ¬FailsClosed (fun _ => .ok (.boolean true))
        (sampleVerifier.check .sample (sampleTime 300000) sampleProof sampleReply.toValue
          fun _ => .ok (.boolean true)) ∧
      ¬FailsClosed (fun _ => .ok (.boolean true))
        (sampleVerifier.check .sample (sampleTime 0) sampleProof hostileReply.toValue
          fun _ => .ok (.boolean true)) := by
  refine ⟨by with_unfolding_all rfl, ?_, ?_, ?_⟩
  · intro h
    obtain ⟨verdict, hv, -⟩ := h.resolves
    cases hv
  · intro h
    exact absurd (h.lifetimes _ (List.mem_singleton_self _)) (by decide +kernel)
  · intro h
    obtain ⟨verdict, hv, -⟩ := h.resolves
    cases hv

/-! ### Stricter policies -/

/-- `strict` asks for at least what `lax` asks for, about the same claim, and `lax` does
not ask for single use. -/
structure Stricter (lax strict : Verifier) : Prop where
  claim : strict.requiredClaim = lax.requiredClaim
  replayOpen : lax.requireSingleUse.truthy = false
  currency : lax.requireCurrentValidity.truthy = true →
    strict.requireCurrentValidity.truthy = true
  tolerance : ∀ a b, Tolerance lax.toleranceMs a → Tolerance strict.toleranceMs b → b ≤ a

/-- The part of a verdict that a program branches on. -/
def Verdict.answer (v : Verdict) : Bool × Option Bool × Reason :=
  (v.ok, v.overThreshold, v.reason)

/-- The answers that a stricter policy may give in place of an accept. -/
def withdrawals : List (Bool × Option Bool × Reason) :=
  [(true, some false, .credentialExpired), (false, none, .freshnessUnknown),
    (false, none, .sessionUnknown), (false, none, .replayDetected)]

/-- `after` repeats the answer `before`, or withdraws an accept. -/
def Withdraws (before after : Verdict) : Prop :=
  after.answer = before.answer ∨
    before.IsAccept ∧ (after.IsAccept ∨ after.answer ∈ withdrawals)

/-- The same for two evaluations, which throw together or not at all. -/
def WithdrawsOnly (before after : Completion Verdict) : Prop :=
  (∃ e, before = .error e ∧ after = .error e) ∨
    ∃ a b, before = .ok a ∧ after = .ok b ∧ Withdraws a b

/-- What `check` asks of the currency of a credential is what the policy requires. -/
theorem currency_options (v : Verifier) (now : TimeValue) :
    (v.options now).currency = v.requireCurrentValidity.truthy := by
  rw [ClassifyOptions.currency, Verifier.options]
  cases hv : v.requireCurrentValidity <;> rfl

/-- And the tolerance that it allows is that of the verifier. -/
theorem tolerance_options (v : Verifier) (now : TimeValue) :
    (v.options now).tolerance = v.toleranceMs := by
  obtain ⟨tolerance, h⟩ := v.tolerance_usable
  have htol := (usableTolerance_eq_some_iff _ _).mp h
  rw [ClassifyOptions.tolerance, Verifier.options, htol.1, Value.orElse_of_not_nullish rfl]

/-- Outside a proven reply whose claim reads true, the verdict depends on the identifier
of the claim alone. -/
theorem classify_congr (p : Platform) (raw : Value) {o₁ o₂ : ClassifyOptions}
    (hclaim : o₁.claim = o₂.claim)
    (hno : ¬(Proven raw ∧ ReadsAs p (claimValue (raw.get "body") o₁) true)) :
    classify p raw o₁ = classify p raw o₂ := by
  by_cases hobj : raw.isObject = true
  swap
  · rw [classify_of_not_isObject p o₁ hobj, classify_of_not_isObject p o₂ hobj]
  by_cases hkind : raw.get "kind" = .string "response"
  swap
  · rw [classify, classify, if_neg (not_not.mpr hobj), if_neg (not_not.mpr hobj)]
    split
    · rfl
    · rfl
    · rfl
    · rfl
    · next hresponse => exact absurd hresponse hkind
    · rfl
  rw [classify_of_response p o₁ hobj hkind, classify_of_response p o₂ hobj hkind]
  by_cases hproven : Proven raw
  swap
  · rw [classifyResponse, classifyResponse]
    split
    · rfl
    next hbody =>
    split
    · rfl
    split
    · rfl
    next hstatus =>
    split
    · rfl
    next hp =>
    rw [not_not] at hbody hstatus hp
    exact absurd ⟨⟨hobj, hkind, hbody, (Value.strictEq_ofNat _ _).mp hstatus⟩,
      (Value.strictEq_boolean _ _).mp hp⟩ hproven
  have hvalue : claimValue (raw.get "body") o₂ = claimValue (raw.get "body") o₁ := by
    rw [claimValue, claimValue, hclaim]
  have hfalse : ¬ReadsAs p (claimValue (raw.get "body") o₁) true := fun h => hno ⟨hproven, h⟩
  rw [classifyResponse_claim p o₁ hproven.body hproven.status hproven.proven,
    classifyResponse_claim p o₂ hproven.body hproven.status hproven.proven]
  by_cases habsent : Absent (claimValue (raw.get "body") o₁)
  · rw [classifyClaim_absent p o₁ habsent, classifyClaim_absent p o₂ (hvalue ▸ habsent), hclaim]
  by_cases hread : ReadsAs p (claimValue (raw.get "body") o₁) false
  · rw [classifyClaim_false p o₁ hread, classifyClaim_false p o₂ (hvalue ▸ hread), hclaim]
  · have hneither : ∀ b, ¬ReadsAs p (claimValue (raw.get "body") o₁) b :=
      Bool.forall_bool.mpr ⟨hread, hfalse⟩
    rw [classifyClaim_unreadable p o₁ habsent hneither,
      classifyClaim_unreadable p o₂ (hvalue ▸ habsent) (hvalue ▸ hneither), hclaim]

/-- A narrower tolerance finds no presentation current, and none stale, that a wider one
does not find at least as bad. -/
theorem freshness_antitone (p : Platform) (body now : Value) {a b : Value} {wide narrow : ℚ}
    (ha : Tolerance a wide) (hb : Tolerance b narrow) (hle : narrow ≤ wide) :
    (Current p body now b → Current p body now a) ∧
      (Stale p body now a → Stale p body now b) ∧
      (Stale p body now b → Stale p body now a ∨ Current p body now a) := by
  refine ⟨?_, ?_, ?_⟩
  · rintro ⟨skew, tol, hskew, htol, hge, hle'⟩
    obtain rfl := hb.unique htol
    exact ⟨skew, wide, hskew, ha, by linarith, by linarith⟩
  · rintro ⟨skew, tol, hskew, htol, hlt⟩
    obtain rfl := ha.unique htol
    exact ⟨skew, narrow, hskew, hb, by linarith⟩
  · rintro ⟨skew, tol, hskew, htol, hlt⟩
    obtain rfl := hb.unique htol
    have hnonneg := hb.2
    rcases lt_or_ge wide skew with hold | hold
    · exact Or.inl ⟨skew, wide, hskew, ha, hold⟩
    · exact Or.inr ⟨skew, wide, hskew, ha, by linarith, hold⟩

/-- What `classify` makes of a proven reply whose claim reads true, for a verifier. -/
theorem classify_true_cases (p : Platform) (v : Verifier) (now : TimeValue) {raw : Value}
    (hproven : Proven raw)
    (htrue : ReadsAs p (claimValue (raw.get "body") (v.options now)) true) :
    (∃ d, classify p raw (v.options now) = .ok (answered true .verified d) ∧
      (v.requireCurrentValidity.truthy = true →
        Current p (raw.get "body") (.number (.finite now.val)) v.toleranceMs)) ∨
    (∃ d, classify p raw (v.options now) = .ok (answered false .credentialExpired d) ∧
      v.requireCurrentValidity.truthy = true ∧
      Stale p (raw.get "body") (.number (.finite now.val)) v.toleranceMs) ∨
    (∃ d, classify p raw (v.options now) = .ok (unanswerable .freshnessUnknown d) ∧
      v.requireCurrentValidity.truthy = true ∧
      ¬Current p (raw.get "body") (.number (.finite now.val)) v.toleranceMs ∧
      ¬Stale p (raw.get "body") (.number (.finite now.val)) v.toleranceMs) := by
  rw [classify_of_response p _ hproven.isObject hproven.kind,
    classifyResponse_claim p _ hproven.body hproven.status hproven.proven,
    classifyClaim_true p _ htrue, currency_options, tolerance_options]
  by_cases hcurrency : v.requireCurrentValidity.truthy = true
  swap
  · rw [if_neg hcurrency]
    exact Or.inl ⟨_, rfl, fun h => absurd h hcurrency⟩
  rw [if_pos hcurrency]
  rcases freshnessGate_cases p (raw.get "body") (v.options now).now v.toleranceMs with
    ⟨hg, hcurrent⟩ | ⟨d, hg, hstale⟩ | ⟨d, hg, hncur, hnst⟩ | ⟨e, hg, -, -, hno⟩
  · rw [hg]
    exact Or.inl ⟨_, rfl, fun _ => hcurrent⟩
  · rw [hg]
    exact Or.inr (Or.inl ⟨d, rfl, hcurrency, hstale⟩)
  · rw [hg]
    exact Or.inr (Or.inr ⟨d, rfl, hcurrency, hncur, hnst⟩)
  · obtain ⟨tolerance, h⟩ := v.tolerance_usable
    exact absurd ((usableTolerance_eq_some_iff _ _).mp h) (hno tolerance)

/-- The freshness gate of a stricter policy only withdraws an accept. -/
theorem classify_stricter (p : Platform) {lax strict : Verifier} (h : Stricter lax strict)
    (now : TimeValue) (raw : Value) :
    WithdrawsOnly (classify p raw (lax.options now)) (classify p raw (strict.options now)) := by
  have hclaim : (lax.options now).claim = (strict.options now).claim := by
    rw [ClassifyOptions.claim, ClassifyOptions.claim, Verifier.options, Verifier.options, h.claim]
  by_cases hclean : Proven raw ∧
      ReadsAs p (claimValue (raw.get "body") (lax.options now)) true
  swap
  · rw [← classify_congr p raw hclaim hclean]
    cases hc : classify p raw (lax.options now) with
    | error e => exact Or.inl ⟨e, rfl, rfl⟩
    | ok v => exact Or.inr ⟨v, v, rfl, rfl, Or.inl rfl⟩
  obtain ⟨hproven, htrue⟩ := hclean
  have htrue' : ReadsAs p (claimValue (raw.get "body") (strict.options now)) true := by
    rwa [claimValue, ← hclaim, ← claimValue]
  obtain ⟨a, ha⟩ := lax.tolerance_usable
  obtain ⟨b, hb⟩ := strict.tolerance_usable
  rw [usableTolerance_eq_some_iff] at ha hb
  obtain ⟨hcurrent, hstale, hback⟩ := freshness_antitone p (raw.get "body")
    (.number (.finite now.val)) ha hb (h.tolerance a b ha hb)
  have hin : ∀ {r d}, (false, none, r) ∈ withdrawals →
      (unanswerable r d).answer ∈ withdrawals := fun h => h
  rcases classify_true_cases p lax now hproven htrue with
    ⟨d₁, h₁, hcur₁⟩ | ⟨d₁, h₁, hon₁, hst₁⟩ | ⟨d₁, h₁, hon₁, hncur₁, hnst₁⟩ <;>
  rcases classify_true_cases p strict now hproven htrue' with
    ⟨d₂, h₂, hcur₂⟩ | ⟨d₂, h₂, hon₂, hst₂⟩ | ⟨d₂, h₂, hon₂, hncur₂, hnst₂⟩
  · exact Or.inr ⟨_, _, h₁, h₂, Or.inl rfl⟩
  · refine Or.inr ⟨_, _, h₁, h₂, Or.inr ⟨⟨rfl, rfl⟩, Or.inr ?_⟩⟩
    exact List.mem_cons_self
  · refine Or.inr ⟨_, _, h₁, h₂, Or.inr ⟨⟨rfl, rfl⟩, Or.inr ?_⟩⟩
    exact hin (by decide)
  · exact absurd (hcurrent (hcur₂ (h.currency hon₁))) hst₁.not_current
  · exact Or.inr ⟨_, _, h₁, h₂, Or.inl rfl⟩
  · exact absurd (hstale hst₁) hnst₂
  · exact absurd (hcurrent (hcur₂ (h.currency hon₁))) hncur₁
  · rcases hback hst₂ with hst | hcur
    · exact absurd hst hnst₁
    · exact absurd hcur hncur₁
  · exact Or.inr ⟨_, _, h₁, h₂, Or.inl rfl⟩

/-- A store that answers keeps an accept or withdraws it. -/
theorem endSingleUse_withdraws {verdict : Verdict} (haccept : verdict.IsAccept)
    (fresh : Value) :
    ∃ after, endSingleUse verdict (.ok fresh) = .ok after ∧
      (after.IsAccept ∨ after.answer ∈ withdrawals) := by
  by_cases htruthy : fresh.truthy = true
  · refine ⟨verdict, ?_, Or.inl haccept⟩
    exact if_neg (not_not.mpr htruthy)
  · refine ⟨_, if_pos htruthy, Or.inr ?_⟩
    show (false, none, Reason.replayDetected) ∈ withdrawals
    decide

/-- Single use passes on a verdict that is no accept, and asks the store for nothing. -/
theorem applySingleUse_of_not_isAccept {p : Platform} {verdict : Verdict}
    {transcript secret : Value} {now : TimeValue} {spend : SpendRequest → Completion Value}
    (hno : ¬verdict.IsAccept) :
    applySingleUse p verdict transcript secret now spend = (.ok verdict, []) := by
  rw [applySingleUse, beginSingleUse, if_pos hno]
  rfl

/-- Over a store that answers, single use keeps an accept or withdraws it. -/
theorem applySingleUse_withdraws {p : Platform} {verdict : Verdict} {transcript secret : Value}
    {now : TimeValue} {spend : SpendRequest → Completion Value} (haccept : verdict.IsAccept)
    (hanswers : ∀ request, ∃ fresh, spend request = .ok fresh) :
    ∃ after, (applySingleUse p verdict transcript secret now spend).1 = .ok after ∧
      (after.IsAccept ∨ after.answer ∈ withdrawals) := by
  rw [applySingleUse]
  rcases beginSingleUse_cases p verdict transcript secret now with
    ⟨hno, -⟩ | ⟨-, -, d, h⟩ | ⟨-, c, -, h⟩
  · exact absurd haccept hno
  · rw [h]
    refine ⟨_, rfl, Or.inr ?_⟩
    show (false, none, Reason.sessionUnknown) ∈ withdrawals
    decide
  · obtain ⟨fresh, hfresh⟩ := hanswers
      { nonceKey := c.nonceKey, ttlMs := (c.expiresAt : ℤ) - now.val }
    rw [h, CheckStage.finish, hfresh]
    exact endSingleUse_withdraws haccept fresh

/-- **A stricter policy only ever withdraws an accept.** -/
theorem check_stricter (p : Platform) (lax strict : Verifier) (now : TimeValue)
    (proof : Value) (outcome : Outcome) (spend spend' : SpendRequest → Completion Value)
    (hstrict : Stricter lax strict)
    (hanswers : ∀ request, ∃ fresh, spend' request = .ok fresh) :
    WithdrawsOnly (lax.check p now proof outcome.toValue spend).1
      (strict.check p now proof outcome.toValue spend').1 := by
  have hlax : (lax.check p now proof outcome.toValue spend).1 =
      classify p outcome.toValue (lax.options now) := by
    rw [Verifier.check, Verifier.afterReply]
    cases classify p outcome.toValue (lax.options now) with
    | error e => rfl
    | ok v =>
        dsimp only
        rw [if_neg (by simp [hstrict.replayOpen])]
        rfl
  rw [hlax]
  have hgate := classify_stricter p hstrict now outcome.toValue
  by_cases hsingle : strict.requireSingleUse.truthy = true
  swap
  · have hopen : (strict.check p now proof outcome.toValue spend').1 =
        classify p outcome.toValue (strict.options now) := by
      rw [Verifier.check, Verifier.afterReply]
      cases classify p outcome.toValue (strict.options now) with
      | error e => rfl
      | ok v =>
          dsimp only
          rw [if_neg hsingle]
          rfl
    rwa [hopen]
  cases hc : classify p outcome.toValue (strict.options now) with
  | error e =>
      have hthrows : (strict.check p now proof outcome.toValue spend').1 = .error e := by
        rw [Verifier.check, Verifier.afterReply, hc]
        rfl
      rw [hthrows]
      rwa [hc] at hgate
  | ok verdict =>
      rw [Verifier.check_eq_applySingleUse p strict now proof _ spend' hsingle hc]
      rw [hc] at hgate
      by_cases haccept : verdict.IsAccept
      swap
      · rwa [applySingleUse_of_not_isAccept haccept]
      obtain ⟨e, -, he⟩ | ⟨before, after, hbefore, hafter, hw⟩ := hgate
      · cases he
      obtain rfl := Except.ok.inj hafter
      -- Only an accept can have become this accept.
      have hwas : before.IsAccept := by
        rcases hw with hsame | ⟨hwas, -⟩
        · have hok := congrArg Prod.fst hsame
          have hover := congrArg (fun a => a.2.1) hsame
          exact ⟨hok.symm.trans haccept.1, hover.symm.trans haccept.2⟩
        · exact hwas
      obtain ⟨final, hfinal, hkept⟩ := applySingleUse_withdraws haccept hanswers
      exact Or.inr ⟨before, final, hbefore, hfinal, Or.inr ⟨hwas, hkept⟩⟩

/-- The sample policy without single use. -/
def openVerifier : Verifier :=
  { sampleVerifier with
    requireSingleUse := .boolean false
    equipped := fun h => by cases h }

/-- The sample policy is stricter than the one without single use. -/
theorem check_stricter_sample :
    WithdrawsOnly
      (openVerifier.check .sample (sampleTime 0) sampleProof sampleReply.toValue
        fun _ => .ok .undefined).1
      (sampleVerifier.check .sample (sampleTime 0) sampleProof sampleReply.toValue
        fun _ => .ok (.boolean false)).1 := by
  refine check_stricter .sample openVerifier sampleVerifier (sampleTime 0) sampleProof
    sampleReply _ _ ⟨rfl, rfl, fun h => h, ?_⟩ (fun _ => ⟨_, rfl⟩)
  intro a b ha hb
  exact (hb.unique ha).le

end EightEen
