import EightEen.Challenge
import EightEen.Evidence

/-!
# The Verifier

This module models the `Verifier` of `src/index.js`: its constructor, which refuses a
policy it could not keep, and `check`, which layers the single-use gate over the stateless
verdict. A `Verifier` carries what its constructor has established, so that no later proof
has to look at the constructor again.

`check` reads the clock, waits for `service.verify`, and may wait once more for the store.
`Verifier.afterReply` is the part between the two waits, and `Verifier.check` is the whole
over a service that replies with `raw` and a store that answers with `spend`.

## Main results

* `afterReply_cases`: everything that can happen between the two waits.
* `Verifier.construct_cases`: a policy that asks for single use is admitted only with a
  secret and a store.
-/

open Js

namespace EightEen

/-! ### The exchange -/

/-- What `service.verify` returns. The detail of an unreachable service is whatever the
error carried for a code. -/
inductive Outcome where
  | response (status : ℕ) (body : Value)
  | timeout (detail : String)
  | unreachable (detail : Value)
  | notReady (detail : String)
  | invalidRequest (detail : String)

/-- The record that an `Outcome` is. -/
def Outcome.toValue : Outcome → Value
  | response status body =>
      .object [("kind", .string "response"), ("status", .ofNat status), ("body", body)]
  | timeout detail => .object [("kind", .string "timeout"), ("detail", .string detail)]
  | unreachable detail => .object [("kind", .string "unreachable"), ("detail", detail)]
  | notReady detail => .object [("kind", .string "not_ready"), ("detail", .string detail)]
  | invalidRequest detail =>
      .object [("kind", .string "invalid_request"), ("detail", .string detail)]

/-! ### The constructor -/

/-- The `policy` argument of the constructor; an absent field is `undefined`. -/
structure Policy where
  requireCurrentValidity : Value
  toleranceMs : Value
  requireSingleUse : Value
  challengeSecret : Value
  nonceStore : Value
  challengeTtlMs : Value

/-- A number that `typeof`, `Number.isFinite` and a comparison with zero let through. -/
def positiveFinite (v : Value) : Option ℚ :=
  match v.finite? with
  | some q => if q ≤ 0 then none else some q
  | none => none

/-- What the constructor asks of a policy with `requireSingleUse`: a secret, a store with
a `spend` to call, and a throwaway challenge that can be minted. -/
def requireEquipment (p : Platform) (random : RandomBytes) (clock : TimeValue)
    (policy : Policy) (challengeTtlMs : Value) : Completion Unit :=
  if policy.challengeSecret.nullish then
    .error (.typeError
      "requireSingleUse needs a challengeSecret (>= 16 bytes) to authenticate nonces")
  else if policy.nonceStore.nullish ∨ ¬(policy.nonceStore.get "spend").isFunction then
    .error (.typeError ("requireSingleUse needs a nonceStore with an atomic " ++
      "spend(key, ttlMs); pass a shared store (e.g. Redis SET NX PX), or " ++
      "InMemoryNonceStore for single-process dev only"))
  else do
    let _ ← issueChallenge p random clock policy.challengeSecret challengeTtlMs .undefined
    .ok ()

/-- The equipment of single use is there. -/
structure Equipped (challengeSecret nonceStore : Value) : Prop where
  secret : assertSecret challengeSecret = .ok ()
  store : (nonceStore.get "spend").isFunction = true

theorem requireEquipment_ok {p : Platform} {random : RandomBytes} {clock : TimeValue}
    {policy : Policy} {challengeTtlMs : Value}
    (h : requireEquipment p random clock policy challengeTtlMs = .ok ()) :
    Equipped policy.challengeSecret policy.nonceStore := by
  rw [requireEquipment] at h
  split at h
  · cases h
  split at h
  · cases h
  next hstore =>
  rw [not_or, not_not] at hstore
  obtain ⟨c, hissue, -⟩ := bind_eq_ok.mp h
  rw [issueChallenge, bind_eq_ok] at hissue
  obtain ⟨⟨⟩, hsecret, -⟩ := hissue
  exact ⟨hsecret, hstore.2⟩

/-- A constructed verifier: its private fields, and what the constructor has established
about them. -/
structure Verifier where
  requiredClaim : Value
  requireCurrentValidity : Value
  toleranceMs : Value
  requireSingleUse : Value
  challengeSecret : Value
  nonceStore : Value
  challengeTtlMs : Value
  tolerance_usable : ∃ tolerance, usableTolerance toleranceMs = some tolerance
  ttl_positive : ∃ ttl, positiveFinite challengeTtlMs = some ttl
  equipped : requireSingleUse.truthy = true → Equipped challengeSecret nonceStore

namespace Verifier

/-- `new Verifier(service, requiredClaim, policy)`, with the random bytes and the clock of
its throwaway challenge. -/
def construct (p : Platform) (random : RandomBytes) (clock : TimeValue)
    (requiredClaim : Value) (policy : Policy) : Completion Verifier :=
  let toleranceMs := policy.toleranceMs.orElse (.ofNat 300000)
  match htolerance : usableTolerance toleranceMs with
  | none => policy.toleranceMs.throwShowing p.toRuntime
      "toleranceMs must be a non-negative finite number, got "
  | some tolerance =>
      let requireSingleUse := policy.requireSingleUse.orElse (.boolean false)
      let challengeTtlMs := policy.challengeTtlMs.orElse (.ofNat 300000)
      match httl : positiveFinite challengeTtlMs with
      | none => policy.challengeTtlMs.throwShowing p.toRuntime
          "challengeTtlMs must be a positive finite number, got "
      | some ttl =>
          match hequip : (if requireSingleUse.truthy then
              requireEquipment p random clock policy challengeTtlMs else .ok ()) with
          | .error e => .error e
          | .ok () => .ok {
              requiredClaim
              requireCurrentValidity := policy.requireCurrentValidity.orElse (.boolean true)
              toleranceMs
              requireSingleUse
              challengeSecret := policy.challengeSecret
              nonceStore := policy.nonceStore
              challengeTtlMs
              tolerance_usable := ⟨tolerance, htolerance⟩
              ttl_positive := ⟨ttl, httl⟩
              equipped := fun h => by
                rw [if_pos h] at hequip
                exact requireEquipment_ok hequip }

/-- **What the constructor decides**: it throws, or it builds a verifier that holds the
policy with its defaults filled in. -/
theorem construct_cases (p : Platform) (random : RandomBytes) (clock : TimeValue)
    (requiredClaim : Value) (policy : Policy) :
    (∃ e, construct p random clock requiredClaim policy = .error e) ∨
      ∃ v, construct p random clock requiredClaim policy = .ok v ∧
        v.requiredClaim = requiredClaim ∧
        v.requireSingleUse = policy.requireSingleUse.orElse (.boolean false) ∧
        v.challengeSecret = policy.challengeSecret ∧ v.nonceStore = policy.nonceStore := by
  cases h : construct p random clock requiredClaim policy with
  | error e => exact Or.inl ⟨e, rfl⟩
  | ok v =>
      refine Or.inr ⟨v, rfl, ?_⟩
      rw [construct] at h
      dsimp only at h
      split at h
      · exact absurd h (Value.throwShowing_ne_ok _ _ _ _)
      split at h
      · exact absurd h (Value.throwShowing_ne_ok _ _ _ _)
      split at h
      · cases h
      obtain rfl := Except.ok.inj h
      exact ⟨rfl, rfl, rfl, rfl⟩

/-- `get requiresSingleUse`. -/
def requiresSingleUse (v : Verifier) : Value :=
  v.requireSingleUse

/-- `issueChallenge()`. -/
def issueChallenge (p : Platform) (random : RandomBytes) (clock : TimeValue) (v : Verifier) :
    Completion Challenge :=
  if ¬v.requireSingleUse.truthy then
    .error (.error
      "issueChallenge requires the verifier to be started with requireSingleUse")
  else EightEen.issueChallenge p random clock v.challengeSecret v.challengeTtlMs .undefined

/-! ### Checking -/

/-- What `check` passes to `classify` with the clock reading it took. -/
def options (v : Verifier) (now : TimeValue) : ClassifyOptions where
  requiredClaim := v.requiredClaim
  requireCurrentValidity := v.requireCurrentValidity
  toleranceMs := v.toleranceMs
  now := .number (.finite now.val)

/-- `check` from the reply of the service to the call of the store. -/
def afterReply (p : Platform) (v : Verifier) (now : TimeValue) (proof raw : Value) :
    CheckStage :=
  match classify p raw (v.options now) with
  | .error e => .settled (.error e)
  | .ok verdict =>
      if v.requireSingleUse.truthy then
        beginSingleUse p verdict (proof.get "transcript") v.challengeSecret now
      else .settled (.ok verdict)

/-- `check(proof)`, at a clock reading, over a service that replies with `raw` and a store
that answers with `spend`: its end, and the calls it makes of the store. -/
def check (p : Platform) (v : Verifier) (now : TimeValue) (proof raw : Value)
    (spend : SpendRequest → Completion Value) : Completion Verdict × List SpendRequest :=
  (v.afterReply p now proof raw).finish spend

/-- With single use a check is `classify`, and then `applySingleUse`. -/
theorem check_eq_applySingleUse (p : Platform) (v : Verifier) (now : TimeValue)
    (proof raw : Value) (spend : SpendRequest → Completion Value) {verdict : Verdict}
    (hsingle : v.requireSingleUse.truthy = true)
    (h : classify p raw (v.options now) = .ok verdict) :
    v.check p now proof raw spend =
      applySingleUse p verdict (proof.get "transcript") v.challengeSecret now spend := by
  rw [check, afterReply, h]
  dsimp only
  rw [if_pos hsingle, applySingleUse]

/-- The tolerance of a verifier is one the freshness gate can use. -/
theorem tolerance (v : Verifier) (now : TimeValue) :
    ∃ tolerance, Tolerance (v.options now).tolerance tolerance := by
  obtain ⟨tolerance, h⟩ := v.tolerance_usable
  have htol := (usableTolerance_eq_some_iff _ _).mp h
  refine ⟨tolerance, ?_⟩
  rw [ClassifyOptions.tolerance, options, htol.1, Value.orElse_of_not_nullish rfl]
  exact ⟨rfl, htol.2⟩

/-- **Everything that can happen between the two waits** of a check with single use:
`classify` throws, a verdict that is not an accept stands, an accept without a live
challenge is withdrawn, or an accept asks for its nonce to be spent for the rest of its
life. -/
theorem afterReply_cases (p : Platform) (v : Verifier) (now : TimeValue) (proof raw : Value)
    (hsingle : v.requireSingleUse.truthy = true) :
    (∃ e, classify p raw (v.options now) = .error e ∧
      v.afterReply p now proof raw = .settled (.error e)) ∨
    (∃ verdict, classify p raw (v.options now) = .ok verdict ∧ ¬verdict.IsAccept ∧
      v.afterReply p now proof raw = .settled (.ok verdict)) ∨
    (∃ verdict d, classify p raw (v.options now) = .ok verdict ∧ verdict.IsAccept ∧
      (∀ c, ¬LiveChallenge p (proof.get "transcript") v.challengeSecret now c) ∧
      v.afterReply p now proof raw = .settled (.ok (unanswerable .sessionUnknown d))) ∨
    (∃ verdict c, classify p raw (v.options now) = .ok verdict ∧ verdict.IsAccept ∧
      LiveChallenge p (proof.get "transcript") v.challengeSecret now c ∧
      v.afterReply p now proof raw = .spending verdict
        { nonceKey := c.nonceKey, ttlMs := (c.expiresAt : ℤ) - now.val }) := by
  rw [afterReply]
  cases hc : classify p raw (v.options now) with
  | error e => exact Or.inl ⟨e, rfl, rfl⟩
  | ok verdict =>
      refine Or.inr ?_
      dsimp only
      rw [if_pos hsingle]
      rcases beginSingleUse_cases p verdict (proof.get "transcript") v.challengeSecret now with
        ⟨hno, h⟩ | ⟨haccept, hdead, d, h⟩ | ⟨haccept, c, hlive, h⟩
      · exact Or.inl ⟨verdict, rfl, hno, h⟩
      · exact Or.inr (Or.inl ⟨verdict, d, rfl, haccept, hdead, h⟩)
      · exact Or.inr (Or.inr ⟨verdict, c, rfl, haccept, hlive, h⟩)

end Verifier

/-! ### A verifier to evaluate with -/

/-- The secret of the worked examples. -/
def sampleSecret : Value :=
  .binary .buffer sampleKey

/-- A policy with single use and without currency. -/
def samplePolicy : Policy where
  requireCurrentValidity := .boolean false
  toleranceMs := .undefined
  requireSingleUse := .boolean true
  challengeSecret := sampleSecret
  nonceStore := .object [("spend", .function "spend")]
  challengeTtlMs := .undefined

/-- The verifier that the constructor builds from `samplePolicy`. -/
def sampleVerifier : Verifier where
  requiredClaim := .string "age_over_18"
  requireCurrentValidity := .boolean false
  toleranceMs := .ofNat 300000
  requireSingleUse := .boolean true
  challengeSecret := sampleSecret
  nonceStore := .object [("spend", .function "spend")]
  challengeTtlMs := .ofNat 300000
  tolerance_usable := ⟨300000, by decide⟩
  ttl_positive := ⟨300000, by decide⟩
  equipped _ := ⟨rfl, rfl⟩

/-- The transcript of a challenge that expires at 1 700 000 300 000. -/
def sampleTranscript : List UInt8 :=
  frame (samplePayload ++ sampleTag)

/-- A proof that is bound to that challenge. -/
def sampleProof : Value :=
  .object [("transcript", .binary .uint8Array sampleTranscript),
    ("deviceResponse", .binary .uint8Array [0])]

/-- The reply to a proof whose claim is true. -/
def sampleReply : Outcome :=
  .response 200 (.object [("Status", .boolean true),
    ("Claims", .object [("org.iso.18013.5.1", .array [.object
      [("ElementIdentifier", .string "age_over_18"), ("ElementValue", .string "9Q==")]])])])

end EightEen
