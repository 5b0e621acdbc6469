import EightEen.Js.Platform
import EightEen.Js.Text

/-!
# One Exchange, One Bit

This module models `src/verdict.js`: `classify` turns one raw exchange with the verifier
service into a verdict. `ok` says whether there is an answer at all and `over_threshold`
says what the answer was, so a verdict comes from one of two constructors, `answered` and
`unanswerable`.

The raw exchange is any value, since this is where whatever the wire produced is met for
the first time. Text conversions are partial (`Js.Value.template`, `Js.Value.stringOf`),
so `classify` is a `Completion`: it can throw, and `classify_throws_iff` of
`EightEen.Evidence` says when.

`classify` is one function in the source. Here its stages have names of their own, in the
order of the source: `classifyRejection` (status 400), `classifyFailure` (`Status` is not
`true`) and `classifyClaim` (`Status` is `true`).
-/

open Js

namespace EightEen

/-! ### Verdicts -/

/-- The reasons of `REASONS`: seven come with an answer and nine without. -/
inductive Reason where
  | verified
  | zkProofInvalid
  | issuerUntrusted
  | proofMalformed
  | claimAbsent
  | claimFalse
  | credentialExpired
  | serviceUnreachable
  | serviceTimeout
  | serviceNotReady
  | circuitUnavailable
  | responseUnintelligible
  | invalidRequest
  | freshnessUnknown
  | replayDetected
  | sessionUnknown
  deriving DecidableEq

/-- The values of `REASONS`. -/
def Reason.text : Reason → String
  | verified => "verified"
  | zkProofInvalid => "zk_proof_invalid"
  | issuerUntrusted => "issuer_untrusted"
  | proofMalformed => "proof_malformed"
  | claimAbsent => "claim_absent"
  | claimFalse => "claim_false"
  | credentialExpired => "credential_expired"
  | serviceUnreachable => "service_unreachable"
  | serviceTimeout => "service_timeout"
  | serviceNotReady => "service_not_ready"
  | circuitUnavailable => "circuit_unavailable"
  | responseUnintelligible => "response_unintelligible"
  | invalidRequest => "invalid_request"
  | freshnessUnknown => "freshness_unknown"
  | replayDetected => "replay_detected"
  | sessionUnknown => "session_unknown"

/-- The pair that `REASONS` documents for a reason: `ok`, and `over_threshold`. -/
def Reason.answer : Reason → Bool × Option Bool
  | verified => (true, some true)
  | zkProofInvalid | issuerUntrusted | proofMalformed | claimAbsent | claimFalse
  | credentialExpired => (true, some false)
  | _ => (false, none)

/-- The answer. `overThreshold` is `none` for `null`, and `detail` is for people only. -/
structure Verdict where
  ok : Bool
  overThreshold : Option Bool
  reason : Reason
  detail : Value

/-- There is an answer, and it is `overThreshold`. -/
def answered (overThreshold : Bool) (reason : Reason) (detail : Value) : Verdict :=
  { ok := true, overThreshold := some overThreshold, reason, detail }

/-- There is no answer. -/
def unanswerable (reason : Reason) (detail : Value) : Verdict :=
  { ok := false, overThreshold := none, reason, detail }

/-- The verdict lets the visitor in. -/
def Verdict.IsAccept (v : Verdict) : Prop :=
  v.ok = true ∧ v.overThreshold = some true

instance (v : Verdict) : Decidable v.IsAccept :=
  inferInstanceAs (Decidable (_ ∧ _))

/-- `ok` and `over_threshold` agree: no answer means `null`, and an answer is a bit. -/
def Verdict.Sound (v : Verdict) : Prop :=
  v.ok = false ↔ v.overThreshold = none

/-- The verdict says what its reason is documented to say. -/
def Verdict.WellFormed (v : Verdict) : Prop :=
  (v.ok, v.overThreshold) = v.reason.answer

/-- A verdict in good form is sound: its two fields agree. -/
theorem Verdict.WellFormed.sound {v : Verdict} (h : v.WellFormed) : v.Sound := by
  have hall : ∀ r : Reason, r.answer.1 = false ↔ r.answer.2 = none := by
    intro r
    cases r <;> decide
  rw [Verdict.WellFormed] at h
  rw [Verdict.Sound]
  simpa only [← h] using hall v.reason

/-- A verdict with the "yes" bit is an accept. -/
theorem Verdict.WellFormed.isAccept_iff {v : Verdict} (h : v.WellFormed) :
    v.IsAccept ↔ v.overThreshold = some true := by
  refine ⟨And.right, fun hover => ⟨?_, hover⟩⟩
  by_contra hok
  have hnone := h.sound.mp (by simpa using hok)
  rw [hover] at hnone
  exact absurd hnone (by simp)

/-- A verdict without an answer is sound whatever its reason. -/
theorem sound_unanswerable (r : Reason) (d : Value) : (unanswerable r d).Sound :=
  iff_of_true rfl rfl

/-- The verdict is well formed, and its reason is not one of the single-use gate. -/
structure Verdict.Stateless (v : Verdict) : Prop where
  wellFormed : v.WellFormed
  reason : v.reason ∉ [Reason.replayDetected, Reason.sessionUnknown]

/-- An answer has its bit in `over_threshold`. -/
@[simp] theorem overThreshold_answered (b : Bool) (r : Reason) (d : Value) :
    (answered b r d).overThreshold = some b := rfl

/-- A verdict without an answer has none there. -/
@[simp] theorem overThreshold_unanswerable (r : Reason) (d : Value) :
    (unanswerable r d).overThreshold = none := rfl

/-- An answer has the reason that it was given. -/
@[simp] theorem reason_answered (b : Bool) (r : Reason) (d : Value) :
    (answered b r d).reason = r := rfl

/-- So has a verdict without an answer. -/
@[simp] theorem reason_unanswerable (r : Reason) (d : Value) :
    (unanswerable r d).reason = r := rfl

/-- **An answer is an accept** exactly when its bit is `true`. -/
@[simp] theorem isAccept_answered (b : Bool) (r : Reason) (d : Value) :
    (answered b r d).IsAccept ↔ b = true := by
  simp [Verdict.IsAccept, answered]

/-- A verdict without an answer is never an accept. -/
@[simp] theorem not_isAccept_unanswerable (r : Reason) (d : Value) :
    ¬(unanswerable r d).IsAccept := by
  simp [Verdict.IsAccept, unanswerable]

/-! ### Options -/

/-- The options of `classify`; one that is absent is `undefined`. -/
structure ClassifyOptions where
  requiredClaim : Value
  requireCurrentValidity : Value
  toleranceMs : Value
  now : Value

namespace ClassifyOptions

/-- `opts.requiredClaim ?? 'age_over_18'`. -/
def claim (opts : ClassifyOptions) : Value :=
  opts.requiredClaim.orElse (.string "age_over_18")

/-- `opts.requireCurrentValidity ?? false`, as the `if` reads it. -/
def currency (opts : ClassifyOptions) : Bool :=
  (opts.requireCurrentValidity.orElse (.boolean false)).truthy

/-- `opts.toleranceMs ?? 300_000`. -/
def tolerance (opts : ClassifyOptions) : Value :=
  opts.toleranceMs.orElse (.ofNat 300000)

end ClassifyOptions

/-! ### The claim -/

/-- The inner loop of `findClaim`, over the items of one namespace. -/
def findItem (id : Value) : List Value → Option Value
  | [] => none
  | item :: items =>
      if (item.get "ElementIdentifier").strictEq id then some (item.get "ElementValue")
      else findItem id items

/-- The outer loop of `findClaim`, over the namespaces. -/
def findInNamespaces (id : Value) : List Value → Option Value
  | [] => none
  | .array items :: rest =>
      match findItem id items with
      | some value => some value
      | none => findInNamespaces id rest
  | _ :: rest => findInNamespaces id rest

/-- `findClaim`: the `ElementValue` of the first item that carries the identifier, or
`undefined`. -/
def findClaim (claims id : Value) : Value :=
  if claims.isObject then (findInNamespaces id claims.values).getD .undefined
  else .undefined

/-- `readCborBool`: a JSON boolean, or base64 of the single byte that CBOR gives one. -/
def readCborBool (p : Platform) (value : Value) : Option Bool :=
  match value with
  | .boolean b => some b
  | .string s =>
      match p.base64Decode s with
      | [byte] => if byte = 0xF5 then some true else if byte = 0xF4 then some false else none
      | _ => none
  | _ => none

/-! ### Freshness -/

/-- `parseTimestamp`: milliseconds since the epoch, or `none` if absent or unreadable. -/
def parseTimestamp (p : Platform) (v : Value) : Option (String × ℤ) :=
  match v with
  | .string s => (p.dateParse s).map fun ms => (s, ms)
  | _ => none

/-- A tolerance the gate can use: a finite number that is not negative. -/
def usableTolerance (toleranceMs : Value) : Option ℚ :=
  match toleranceMs.finite? with
  | some tolerance => if tolerance < 0 then none else some tolerance
  | none => none

/-- `freshnessGate`: the verdict that withholds the accept, or `none` if the presentation
is current. The two directions of the skew are different answers: too old is a "no" about
currency, too new cannot be judged. -/
def freshnessGate (p : Platform) (body now toleranceMs : Value) : Completion (Option Verdict) :=
  match parseTimestamp p (body.get "Now") with
  | none =>
      .ok (some (unanswerable .freshnessUnknown
        (.string "currency required, but the verifier reported no presentation timestamp")))
  | some (dated, stamp) =>
      match now.finite? with
      | none =>
          .ok (some (unanswerable .freshnessUnknown (.string
            "currency required, but no real-clock reference was supplied to check against")))
      | some now =>
          match usableTolerance toleranceMs with
          | none => do
              let shown ← toleranceMs.stringOf p.toRuntime
              .ok (some (unanswerable .freshnessUnknown (.string
                ("currency required, but the freshness tolerance is not a usable number (" ++
                  shown ++ ")"))))
          | some tolerance =>
              let seconds (q : ℚ) : String := p.numberText (.finite (mathRound (q / 1000)))
              let skewMs : ℚ := now - stamp
              if skewMs > tolerance then
                .ok (some (answered false .credentialExpired (.string
                  ("presentation dated " ++ dated ++ " is " ++ seconds skewMs ++
                    "s stale (tolerance " ++ seconds tolerance ++ "s)"))))
              else if skewMs < -tolerance then
                .ok (some (unanswerable .freshnessUnknown (.string
                  ("presentation dated " ++ dated ++ " is " ++ seconds (-skewMs) ++
                    "s in the future (tolerance " ++ seconds tolerance ++
                    "s); cannot confirm currency"))))
              else .ok none

/-! ### Classification -/

/-- `PROOF_IS_BAD`: the return codes that speak about the proof in hand. -/
def proofIsBad : ℕ → Option String
  | 2 => some "proof too small"
  | 3 => some "hash parsing failure"
  | 4 => some "signature parsing failure"
  | 5 => some "zk verification failure"
  | 11 => some "invalid cbor"
  | _ => none

/-- What `VERIFY_FAILURE` puts before the return code. -/
def verifyFailure : List Char :=
  "verification failure: return code ".toList

/-- `/malformed|failed to parse|invalid cbor/i`. -/
def isUnparseable (err : List Char) : Bool :=
  ["malformed", "failed to parse", "invalid cbor"].any
    fun word => containsTextCaseless word.toList err

/-- `/certificate|chain|x509|unknown authority|expired|not yet valid/i`. -/
def isUntrusted (err : List Char) : Bool :=
  ["certificate", "chain", "x509", "unknown authority", "expired", "not yet valid"].any
    fun word => containsTextCaseless word.toList err

/-- A status 400: a rejection if the body is the verifier's own error envelope, and
nothing we understood otherwise. Both branches of the envelope reject. -/
def classifyRejection (error : Value) : Verdict :=
  let err : List Char :=
    match error with
    | .string s => trim s.toList
    | _ => []
  if err = [] then
    unanswerable .responseUnintelligible (.string "http 400 without the verifier error envelope")
  else
    answered false
      (if isUntrusted err && !isUnparseable err then .issuerUntrusted else .proofMalformed)
      (.string (String.ofList err))

/-- A status 200 whose `Status` is not `true`: a rejection if the message is a
verification failure whose code speaks about the proof, and our own fault otherwise. -/
def classifyFailure (p : Platform) (message : Value) : Completion Verdict := do
  let text ← (message.orElse (.string "")).stringOf p.toRuntime
  match wholeNumeral verifyFailure text.toList with
  | none =>
      .ok (unanswerable
        (if containsTextCaseless "circuit".toList text.toList then .circuitUnavailable
          else .responseUnintelligible)
        (.string text))
  | some digits =>
      match proofIsBad (numeralValue digits) with
      | none => .ok (unanswerable .circuitUnavailable
          (.string (text ++ " (our fault, not a verdict)")))
      | some meaning =>
          .ok (answered false .zkProofInvalid (.string
            (meaning ++ " (code " ++ p.numberText (.finite (numeralValue digits)) ++ ")")))

/-- A status 200 whose `Status` is `true`: the claim decides, and the freshness gate may
withhold the accept. -/
def classifyClaim (p : Platform) (body : Value) (opts : ClassifyOptions) :
    Completion Verdict :=
  let value := findClaim (body.get "Claims") opts.claim
  if value.nullish || value.strictEq (.string "") then do
    let shown ← opts.claim.template p.toRuntime
    .ok (answered false .claimAbsent (.string ("proof carries no " ++ shown)))
  else
    match readCborBool p value with
    | none => do
        let shown ← opts.claim.template p.toRuntime
        .ok (unanswerable .responseUnintelligible (.string ("cannot read " ++ shown)))
    | some false => do
        let shown ← opts.claim.template p.toRuntime
        .ok (answered false .claimFalse (.string (shown ++ " is false")))
    | some true =>
        if opts.currency then do
          match ← freshnessGate p body opts.now opts.tolerance with
          | some stale => .ok stale
          | none => .ok (answered true .verified opts.claim)
        else .ok (answered true .verified opts.claim)

/-- The exchange reached the service and came back. -/
def classifyResponse (p : Platform) (status body : Value) (opts : ClassifyOptions) :
    Completion Verdict :=
  if ¬body.isObject then do
    let shown ← status.template p.toRuntime
    .ok (unanswerable .responseUnintelligible
      (.string ("http " ++ shown ++ ": unreadable body")))
  else if status.strictEq (.ofNat 400) then .ok (classifyRejection (body.get "error"))
  else if ¬status.strictEq (.ofNat 200) then do
    let shown ← status.template p.toRuntime
    .ok (unanswerable .responseUnintelligible (.string ("http " ++ shown)))
  else if ¬(body.get "Status").strictEq (.boolean true) then
    classifyFailure p (body.get "Message")
  else classifyClaim p body opts

/-- `classify`: one exchange with the verifier, one bit. -/
def classify (p : Platform) (raw : Value) (opts : ClassifyOptions) : Completion Verdict :=
  if ¬raw.isObject then
    .ok (unanswerable .responseUnintelligible (.string ("not an outcome: " ++ raw.typeOf)))
  else
    match raw.get "kind" with
    | .string "timeout" => .ok (unanswerable .serviceTimeout (raw.get "detail"))
    | .string "unreachable" => .ok (unanswerable .serviceUnreachable (raw.get "detail"))
    | .string "not_ready" => .ok (unanswerable .serviceNotReady (raw.get "detail"))
    | .string "invalid_request" => .ok (unanswerable .invalidRequest (raw.get "detail"))
    | .string "response" => classifyResponse p (raw.get "status") (raw.get "body") opts
    | kind => do
        let shown ← kind.template p.toRuntime
        .ok (unanswerable .responseUnintelligible (.string ("unknown outcome kind: " ++ shown)))

/-! ### The paths through `classify` -/

section Paths

variable (p : Platform) {raw status body : Value} (opts : ClassifyOptions)

/-- What is no object is no outcome, and the verdict says of which type it is. -/
theorem classify_of_not_isObject (h : ¬raw.isObject) :
    classify p raw opts =
      .ok (unanswerable .responseUnintelligible (.string ("not an outcome: " ++ raw.typeOf))) := by
  rw [classify, if_pos h]

/-- An outcome of kind `response` is classified by its status and its body. -/
theorem classify_of_response (hobj : raw.isObject)
    (hkind : raw.get "kind" = .string "response") :
    classify p raw opts = classifyResponse p (raw.get "status") (raw.get "body") opts := by
  rw [classify, if_neg (not_not.mpr hobj), hkind]
  rfl

/-- A transport failure, and a kind that is not one of the five. -/
theorem classify_of_other_kind (hobj : raw.isObject)
    (hkind : raw.get "kind" ≠ .string "response") :
    (∃ s r, raw.get "kind" = .string s ∧
      classify p raw opts = .ok (unanswerable r (raw.get "detail"))) ∨
      classify p raw opts = (do
        let shown ← (raw.get "kind").template p.toRuntime
        .ok (unanswerable .responseUnintelligible
          (.string ("unknown outcome kind: " ++ shown)))) := by
  rw [classify, if_neg (not_not.mpr hobj)]
  split
  · next h => exact Or.inl ⟨_, _, h, rfl⟩
  · next h => exact Or.inl ⟨_, _, h, rfl⟩
  · next h => exact Or.inl ⟨_, _, h, rfl⟩
  · next h => exact Or.inl ⟨_, _, h, rfl⟩
  · next h => exact absurd h hkind
  · exact Or.inr rfl

/-- A reply with a body that is no object is unintelligible, and the verdict quotes its status. -/
theorem classifyResponse_of_not_isObject (h : ¬body.isObject) :
    classifyResponse p status body opts = (do
      let shown ← status.template p.toRuntime
      .ok (unanswerable .responseUnintelligible
        (.string ("http " ++ shown ++ ": unreadable body")))) := by
  rw [classifyResponse, if_pos h]

/-- A reply with status 400 is the service's refusal, classified by its `error`. -/
theorem classifyResponse_refusal (h : body.isObject) (hstatus : status = .ofNat 400) :
    classifyResponse p status body opts = .ok (classifyRejection (body.get "error")) := by
  rw [classifyResponse, if_neg (not_not.mpr h), if_pos ((Value.strictEq_ofNat _ _).mpr hstatus)]

/-- A reply with a status other than 200 and 400 is unintelligible, and the verdict quotes the
status. -/
theorem classifyResponse_of_other_status (h : body.isObject) (h400 : status ≠ .ofNat 400)
    (h200 : status ≠ .ofNat 200) :
    classifyResponse p status body opts = (do
      let shown ← status.template p.toRuntime
      .ok (unanswerable .responseUnintelligible (.string ("http " ++ shown)))) := by
  rw [classifyResponse, if_neg (not_not.mpr h), if_neg (mt (Value.strictEq_ofNat _ _).mp h400),
    if_pos (mt (Value.strictEq_ofNat _ _).mp h200)]

/-- At status 200 the `Status` of the body decides between the last two stages. -/
theorem classifyResponse_of_ok (h : body.isObject) (hstatus : status = .ofNat 200) :
    classifyResponse p status body opts =
      if (body.get "Status").strictEq (.boolean true) then classifyClaim p body opts
      else classifyFailure p (body.get "Message") := by
  have h400 : ¬status.strictEq (.ofNat 400) = true := by
    rw [Value.strictEq_ofNat, hstatus]
    exact fun hc => absurd (Value.ofNat_injective hc) (by decide)
  rw [classifyResponse, if_neg (not_not.mpr h), if_neg h400,
    if_neg (not_not.mpr ((Value.strictEq_ofNat _ _).mpr hstatus)), ite_not]

/-- A reply with status 200 and a `Status` other than `true` is a proof that failed, classified by
its `Message`. -/
theorem classifyResponse_failure (h : body.isObject) (hstatus : status = .ofNat 200)
    (hproven : body.get "Status" ≠ .boolean true) :
    classifyResponse p status body opts = classifyFailure p (body.get "Message") := by
  rw [classifyResponse_of_ok p opts h hstatus, if_neg (mt (Value.strictEq_boolean _ _).mp hproven)]

/-- A reply with status 200 and `Status: true` is classified by the claim that it carries. -/
theorem classifyResponse_claim (h : body.isObject) (hstatus : status = .ofNat 200)
    (hproven : body.get "Status" = .boolean true) :
    classifyResponse p status body opts = classifyClaim p body opts := by
  rw [classifyResponse_of_ok p opts h hstatus, if_pos ((Value.strictEq_boolean _ _).mpr hproven)]

end Paths

end EightEen
