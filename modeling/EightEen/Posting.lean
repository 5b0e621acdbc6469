import EightEen.Js.View
import EightEen.Service
import EightEen.Verifier

/-!
# Posting a Proof

This module models `VerifierService.verify` of `src/service.js` with its `malformedProof`, and
follows one proof through the three conversions it meets: the test whether it is usable, the
bytes that are posted to the child, and the bytes in which `check` looks for a nonce. The
first looks at the kind of object and at its `byteLength`, the second copies **elements**, the
third takes the bytes of a `Buffer` or a `Uint8Array` where they lie.

`VerifyStage` is what `verify` has settled on when it calls `fetch`, and `Exchange` is how that
call ends.

## Main results

* `malformedProof_eq_none_iff`: which proofs are let through.
* `check_spends_posted`: an accept has spent the nonce of the posted transcript.
* `bytes_verified_are_spent_iff`: the posted bytes are those of the proof exactly when both
  fields show their bytes one by one.
-/

open Js

namespace EightEen

/-! ### The argument -/

/-- What `malformedProof` finds wrong with the field that holds `v`. -/
def malformedField (field : String) (v : Value) : Option String :=
  if v.nullish then some ("proof." ++ field ++ " is missing")
  else
    match v with
    | .binary _ data => if data.length = 0 then some ("proof." ++ field ++ " is empty") else none
    | v => some ("proof." ++ field ++ " must be a Buffer/TypedArray, got " ++ v.typeOf)

/-- `malformedProof`: why the proof is unusable, or `none` if it is fine. -/
def malformedProof (proof : Value) : Option String :=
  if ¬proof.isObject then some ("proof must be an object, got " ++ proof.typeOf)
  else ["transcript", "deviceResponse"].findSome? fun field =>
    malformedField field (proof.get field)

/-- A field is usable when it holds a binary object that is not empty. -/
theorem malformedField_eq_none_iff (field : String) (v : Value) :
    malformedField field v = none ↔ ∃ cls data, v = .binary cls data ∧ data ≠ [] := by
  cases v with
  | binary cls data => simp [malformedField, Value.nullish]
  | _ => simp [malformedField, Value.nullish]

/-- **Which proofs are let through**: records whose two fields hold binary objects that are not
empty, of any class. -/
theorem malformedProof_eq_none_iff (proof : Value) :
    malformedProof proof = none ↔ proof.isObject = true ∧
      ∀ field ∈ ["transcript", "deviceResponse"],
        ∃ cls data, proof.get field = .binary cls data ∧ data ≠ [] := by
  rw [malformedProof]
  split
  · next h => simp [h]
  · next h =>
      rw [not_not] at h
      simp only [List.findSome?_eq_none_iff, malformedField_eq_none_iff, h, true_and]

/-- A view that is let through covers something. -/
theorem bytes_ne_nil_of_admitted {proof : Value} {field : String} {v : View}
    (hadmitted : malformedProof proof = none) (hfield : field ∈ ["transcript", "deviceResponse"])
    (hv : proof.get field = v.toValue) : v.bytes ≠ [] := by
  obtain ⟨-, hfields⟩ := (malformedProof_eq_none_iff proof).mp hadmitted
  obtain ⟨cls, data, hget, hne⟩ := hfields field hfield
  obtain ⟨-, rfl⟩ := Value.binary.inj (hv.symm.trans hget)
  exact hne

/-! ### The request -/

/-- The JSON body of `POST /zkverify`. -/
structure ZkVerifyRequest where
  transcript : String
  zkDeviceResponseCBOR : String
  deriving DecidableEq

/-- `Buffer.from(v)`, for a value that `malformedProof` lets through; it is asked of no
other. -/
def bufferOf : Value → Completion (List UInt8)
  | .binary cls data => bufferFrom cls data
  | _ => .ok []

/-- The body that `verify` builds inside its `try`. -/
def requestBody (proof : Value) : Completion ZkVerifyRequest := do
  let transcript ← bufferOf (proof.get "transcript")
  let deviceResponse ← bufferOf (proof.get "deviceResponse")
  .ok {
    transcript := String.ofList (base64 transcript)
    zkDeviceResponseCBOR := String.ofList (base64 deviceResponse) }

/-- How `fetch` and `res.json()` end. A body that is not JSON is `none`. -/
inductive Exchange where
  | answered (status : ℕ) (body : Option Value)
  | timedOut
  | failed (detail : Value)

/-- What `verify` has settled on by the time it would call `fetch`. -/
inductive VerifyStage where
  | returned (outcome : Outcome)
  | posting (request : ZkVerifyRequest)

/-- `err.cause?.code ?? err.code ?? err.message` of an error that the language throws, which
has no code. -/
def thrownDetail : Thrown → Value
  | .typeError message | .rangeError message | .error message => .string message
  | .other _ => .undefined

/-- The code of what `AbortSignal.timeout(v)` throws. -/
def delayCode (v : Value) : String :=
  if v.typeOf = "number" then "ERR_OUT_OF_RANGE" else "ERR_INVALID_ARG_TYPE"

/-- `${v}` of a delay that `AbortSignal.timeout` has taken. -/
def delayText (p : Platform) : Value → String
  | .number x => p.numberText x
  | _ => ""

namespace VerifierService

/-- `verify(proof)` up to the call of `fetch`. -/
def beginVerify (s : VerifierService) (requestTimeoutMs proof : Value) : VerifyStage :=
  if ¬s.ready then
    .returned (.notReady (if s.exit.isSome then "verifier is not running"
      else "verifier is still loading circuits"))
  else
    match malformedProof proof with
    | some bad => .returned (.invalidRequest bad)
    | none =>
        match requestBody proof with
        | .error e => .returned (.unreachable (thrownDetail e))
        | .ok request =>
            if isDelay requestTimeoutMs then .posting request
            else .returned (.unreachable (.string (delayCode requestTimeoutMs)))

/-- `verify` from the end of its `fetch` on. -/
def endVerify (p : Platform) (requestTimeoutMs : Value) : Exchange → Outcome
  | .answered status body => .response status (body.getD .null)
  | .timedOut => .timeout ("no answer in " ++ delayText p requestTimeoutMs ++ "ms")
  | .failed detail => .unreachable detail

/-- `verify(proof)`, over a child that `fetch` reaches. It never throws. -/
def verify (p : Platform) (s : VerifierService) (requestTimeoutMs proof : Value)
    (fetch : ZkVerifyRequest → Exchange) : Outcome :=
  match s.beginVerify requestTimeoutMs proof with
  | .returned outcome => outcome
  | .posting request => endVerify p requestTimeoutMs (fetch request)

/-- **When `verify` posts**: a ready service, a proof that is let through, a body that can be
built and a delay that can be used. -/
theorem beginVerify_eq_posting_iff (s : VerifierService) (requestTimeoutMs proof : Value)
    (request : ZkVerifyRequest) :
    s.beginVerify requestTimeoutMs proof = .posting request ↔
      s.ready = true ∧ malformedProof proof = none ∧ requestBody proof = .ok request ∧
        isDelay requestTimeoutMs = true := by
  rw [beginVerify]
  split
  · next hready => simp [hready]
  next hready =>
  rw [not_not] at hready
  cases hbad : malformedProof proof with
  | some bad => simp
  | none =>
      cases hbody : requestBody proof with
      | error e => simp
      | ok body =>
          by_cases hdelay : isDelay requestTimeoutMs = true
          · simp [hready, hdelay]
          · simp [hdelay]

/-- Only what was posted is answered. -/
theorem exists_posting_of_response {p : Platform} {s : VerifierService}
    {requestTimeoutMs proof : Value} {fetch : ZkVerifyRequest → Exchange}
    (h : (s.verify p requestTimeoutMs proof fetch).toValue.get "kind" = .string "response") :
    ∃ request, s.beginVerify requestTimeoutMs proof = .posting request := by
  cases hstage : s.beginVerify requestTimeoutMs proof with
  | posting request => exact ⟨request, rfl⟩
  | returned outcome =>
      exfalso
      rw [verify, hstage] at h
      rw [beginVerify] at hstage
      split at hstage
      · obtain rfl := VerifyStage.returned.inj hstage
        exact absurd (Value.string.inj h) (by decide)
      split at hstage
      · obtain rfl := VerifyStage.returned.inj hstage
        exact absurd (Value.string.inj h) (by decide)
      split at hstage
      · obtain rfl := VerifyStage.returned.inj hstage
        exact absurd (Value.string.inj h) (by decide)
      split at hstage
      · cases hstage
      · obtain rfl := VerifyStage.returned.inj hstage
        exact absurd (Value.string.inj h) (by decide)

end VerifierService

/-! ### The bytes -/

/-- The body holds copies of the two views, read through their underlying buffers. -/
theorem requestBody_views {proof : Value} {t d : View} (ht : proof.get "transcript" = t.toValue)
    (hd : proof.get "deviceResponse" = d.toValue) :
    requestBody proof = (do
      let transcript ← t.copied
      let deviceResponse ← d.copied
      .ok {
        transcript := String.ofList (base64 transcript)
        zkDeviceResponseCBOR := String.ofList (base64 deviceResponse) }) := by
  rw [requestBody, ht, hd, View.copied_eq, View.copied_eq]
  rfl

/-- The bytes that a text of the body stands for. -/
def decoded (text : String) : Option (List UInt8) :=
  unbase64 text.toList

theorem decoded_base64 (bytes : List UInt8) :
    decoded (String.ofList (base64 bytes)) = some bytes := by
  rw [decoded, String.toList_ofList, unbase64_base64]

/-- The body holds the bytes of both views exactly when both show their bytes one by one. -/
theorem exists_requestBody_iff {proof : Value} {t d : View}
    (hadmitted : malformedProof proof = none) (ht : proof.get "transcript" = t.toValue)
    (hd : proof.get "deviceResponse" = d.toValue) :
    (∃ request, requestBody proof = .ok request ∧ decoded request.transcript = some t.bytes ∧
        decoded request.zkDeviceResponseCBOR = some d.bytes) ↔
      t.cls.bytewise = true ∧ d.cls.bytewise = true := by
  have htne := bytes_ne_nil_of_admitted hadmitted (by simp) ht
  have hdne := bytes_ne_nil_of_admitted hadmitted (by simp) hd
  rw [← bufferFrom_eq_ok_iff t.exists_cls htne, ← bufferFrom_eq_ok_iff d.exists_cls hdne,
    ← View.copied_eq, ← View.copied_eq, requestBody_views ht hd]
  constructor
  · rintro ⟨request, hbody, htbytes, hdbytes⟩
    obtain ⟨a, ha, hbody⟩ := bind_eq_ok.mp hbody
    obtain ⟨b, hb, hbody⟩ := bind_eq_ok.mp hbody
    obtain rfl := Except.ok.inj hbody
    rw [decoded_base64, Option.some.injEq] at htbytes hdbytes
    exact ⟨htbytes ▸ ha, hdbytes ▸ hb⟩
  · rintro ⟨ha, hb⟩
    refine ⟨⟨String.ofList (base64 t.bytes), String.ofList (base64 d.bytes)⟩, ?_,
      decoded_base64 _, decoded_base64 _⟩
    rw [ha, hb]
    rfl

/-- What `toBuffer` sees of a value, `Buffer.from` copies. -/
theorem bufferOf_of_toBuffer {v : Value} {bytes : List UInt8} (h : toBuffer v = some bytes) :
    bufferOf v = .ok bytes := by
  match v, h with
  | .binary .buffer data, h =>
      rw [bufferOf, bufferFrom, map_elements_one, Option.some.inj h]
  | .binary .uint8Array data, h =>
      rw [bufferOf, bufferFrom, map_elements_one, Option.some.inj h]

/-- `toBuffer` sees a view through its underlying buffer, where it is one it looks at. -/
theorem toBuffer_toValue (v : View) :
    toBuffer v.toValue =
      if v.cls = .buffer ∨ v.cls = .uint8Array then
        some (View.slice v.buffer v.byteOffset v.byteLength)
      else none := by
  rw [View.slice_eq, View.toValue]
  cases v.cls <;> simp [toBuffer]

/-- So what it sees of a view are the bytes that the view covers. -/
theorem slice_of_toBuffer {v : View} {bytes : List UInt8} (h : toBuffer v.toValue = some bytes) :
    bytes = View.slice v.buffer v.byteOffset v.byteLength := by
  rw [toBuffer_toValue] at h
  split at h
  · exact (Option.some.inj h).symm
  · cases h

/-- **An accept has spent the nonce of the posted transcript**, whatever the child answered and
whatever the classes of the fields are. -/
theorem check_spends_posted {p : Platform} {s : VerifierService} {requestTimeoutMs proof : Value}
    {fetch : ZkVerifyRequest → Exchange} {v : Verifier} {now : TimeValue}
    {spend : SpendRequest → Completion Value} {verdict : Verdict} {spends : List SpendRequest}
    (hsingle : v.requireSingleUse.truthy = true)
    (h : v.check p now proof (s.verify p requestTimeoutMs proof fetch).toValue spend =
      (.ok verdict, spends))
    (haccept : verdict.IsAccept) :
    ∃ request nonce ttlMs, s.beginVerify requestTimeoutMs proof = .posting request ∧
      nonce.length = nonceLen ∧ decoded request.transcript = some (frame nonce) ∧
      toBuffer (proof.get "transcript") = some (frame nonce) ∧
      spends = [{ nonceKey := String.ofList (base64Url nonce), ttlMs := ttlMs }] := by
  rw [Verifier.check] at h
  rcases v.afterReply_cases p now proof (s.verify p requestTimeoutMs proof fetch).toValue hsingle
    with ⟨e, -, hafter⟩ | ⟨w, -, hno, hafter⟩ | ⟨w, d, -, -, -, hafter⟩ |
      ⟨w, c, hc, hw, hlive, hafter⟩
  · rw [hafter, CheckStage.finish] at h
    cases h
  · rw [hafter, CheckStage.finish] at h
    cases h
    exact absurd haccept hno
  · rw [hafter, CheckStage.finish] at h
    cases h
    exact absurd haccept (not_isAccept_unanswerable _ _)
  rw [hafter, CheckStage.finish] at h
  obtain ⟨-, hspends⟩ := Prod.mk.inj h
  -- The reply proves that a request was posted, and the nonce sits in its transcript.
  have hkind := ((isAccept_iff_accepts hc).mp hw).kind
  obtain ⟨request, hposted⟩ := VerifierService.exists_posting_of_response hkind
  obtain ⟨-, payload, hlen, hbuf, rfl⟩ := (inspectChallenge_eq_some_iff _ _ _ _ _).mp hlive.1
  obtain ⟨-, -, hbody, -⟩ := (s.beginVerify_eq_posting_iff _ _ _).mp hposted
  refine ⟨request, nonceOf p v.challengeSecret payload, _, hposted, ?_, ?_, hbuf, hspends.symm⟩
  · rw [nonceOf, List.length_append, hlen, length_hmac]
    rfl
  · rw [requestBody, bufferOf_of_toBuffer hbuf] at hbody
    obtain ⟨_, ha, hbody⟩ := bind_eq_ok.mp hbody
    obtain ⟨_, -, hbody⟩ := bind_eq_ok.mp hbody
    obtain rfl := Except.ok.inj ha
    obtain rfl := Except.ok.inj hbody
    exact decoded_base64 _

/-- The promise about a proof whose two fields are the views `t` and `d`: a service that
serves posts their very bytes, and an accept has spent the nonce in the posted transcript, which
is the one that `check` has read through the buffer of `t`. -/
structure BytesVerifiedAreSpent (p : Platform) (s : VerifierService)
    (requestTimeoutMs proof : Value) (t d : View) : Prop where
  posted : s.ready = true → isDelay requestTimeoutMs = true →
    ∃ request, s.beginVerify requestTimeoutMs proof = .posting request ∧
      decoded request.transcript = some t.bytes ∧
      decoded request.zkDeviceResponseCBOR = some d.bytes
  spent : ∀ (v : Verifier) (now : TimeValue) (fetch : ZkVerifyRequest → Exchange)
    (spend : SpendRequest → Completion Value) (verdict : Verdict) (spends : List SpendRequest),
    v.requireSingleUse.truthy = true →
    v.check p now proof (s.verify p requestTimeoutMs proof fetch).toValue spend =
      (.ok verdict, spends) → verdict.IsAccept →
    ∃ request nonce ttlMs, s.beginVerify requestTimeoutMs proof = .posting request ∧
      nonce.length = nonceLen ∧ decoded request.transcript = some (frame nonce) ∧
      frame nonce = View.slice t.buffer t.byteOffset t.byteLength ∧
      spends = [{ nonceKey := String.ofList (base64Url nonce), ttlMs := ttlMs }]

/-- **When the bytes verified are the bytes of the proof**: exactly when both fields are
`ArrayBuffer`s or show their bytes one by one, unless the service does not serve. -/
theorem bytes_verified_are_spent_iff (p : Platform) (s : VerifierService)
    (requestTimeoutMs proof : Value) (t d : View) (hadmitted : malformedProof proof = none)
    (ht : proof.get "transcript" = t.toValue) (hd : proof.get "deviceResponse" = d.toValue) :
    BytesVerifiedAreSpent p s requestTimeoutMs proof t d ↔
      (s.ready = true → isDelay requestTimeoutMs = true →
        t.cls.bytewise = true ∧ d.cls.bytewise = true) := by
  rw [← exists_requestBody_iff hadmitted ht hd]
  constructor
  · intro h hready hdelay
    obtain ⟨request, hposted, hbytes⟩ := h.posted hready hdelay
    obtain ⟨-, -, hbody, -⟩ := (s.beginVerify_eq_posting_iff _ _ _).mp hposted
    exact ⟨request, hbody, hbytes⟩
  · intro h
    refine ⟨?_, ?_⟩
    · intro hready hdelay
      obtain ⟨request, hbody, hbytes⟩ := h hready hdelay
      exact ⟨request, (s.beginVerify_eq_posting_iff _ _ _).mpr ⟨hready, hadmitted, hbody, hdelay⟩,
        hbytes⟩
    · intro v now fetch spend verdict spends hsingle hcheck haccept
      obtain ⟨request, nonce, ttlMs, hposted, hlen, hdecoded, hbuf, hspends⟩ :=
        check_spends_posted hsingle hcheck haccept
      exact ⟨request, nonce, ttlMs, hposted, hlen, hdecoded, slice_of_toBuffer (ht ▸ hbuf), hspends⟩

/-! ### A proof of wide elements -/

/-- A `Uint16Array` of one element, the second of its buffer. -/
def wideView : View where
  cls := .intArray 2
  buffer := [0xFF, 0xFF, 0x34, 0x12]
  byteOffset := 2
  byteLength := 2
  exists_cls := by simp [BinaryClass.Exists]
  fits := by decide
  aligned width h := by
    obtain rfl := Option.some.inj h
    decide
  covers h := by cases h

/-- A `Uint8Array` at an offset. -/
def narrowView : View where
  cls := .uint8Array
  buffer := [0xFF, 0xFF, 0xF5]
  byteOffset := 2
  byteLength := 1
  exists_cls := trivial
  fits := by decide
  aligned width h := by
    obtain rfl := Option.some.inj h
    decide
  covers h := by cases h

/-- The proof with these two fields. -/
def proofOf (t d : View) : Value :=
  .object [("transcript", t.toValue), ("deviceResponse", d.toValue)]

/-- The service of a start that has resolved. -/
def servingService : VerifierService :=
  { VerifierService.init with phase := .resolved, ready := true }

/-- The transcript of a challenge, as a `Uint8Array` that starts inside its buffer. -/
def challengeView : View where
  cls := .uint8Array
  buffer := [0xFF, 0xFF] ++ sampleTranscript
  byteOffset := 2
  byteLength := sampleTranscript.length
  exists_cls := trivial
  fits := by simp; omega
  aligned width h := by
    obtain rfl := Option.some.inj h
    decide
  covers h := by cases h

/-- The child answers every post with the reply to a proof whose claim is true. -/
def sampleExchange (_ : ZkVerifyRequest) : Exchange :=
  .answered 200 (some (.object [("Status", .boolean true),
    ("Claims", .object [("org.iso.18013.5.1", .array [.object
      [("ElementIdentifier", .string "age_over_18"), ("ElementValue", .string "9Q==")]])])]))

/-- A proof of two arrays of bytes is posted as it is, and the accept that it earns spends the
nonce of the challenge in its transcript: the one whose frame was posted. -/
theorem bytes_verified_are_spent_narrow :
    BytesVerifiedAreSpent .sample servingService (.ofNat 5000) (proofOf challengeView narrowView)
        challengeView narrowView ∧
      ∃ verdict request nonce ttlMs,
        sampleVerifier.check .sample (sampleTime 0) (proofOf challengeView narrowView)
          (servingService.verify .sample (.ofNat 5000) (proofOf challengeView narrowView)
            sampleExchange).toValue (fun _ => .ok (.boolean true)) =
          (.ok verdict, [⟨String.ofList (base64Url nonce), ttlMs⟩]) ∧ verdict.IsAccept ∧
        servingService.beginVerify (.ofNat 5000) (proofOf challengeView narrowView) =
          .posting request ∧
        decoded request.transcript = some (frame nonce) ∧
        frame nonce = challengeView.bytes ∧ challengeView.bytes = sampleTranscript := by
  have hspent := (bytes_verified_are_spent_iff .sample servingService (.ofNat 5000)
    (proofOf challengeView narrowView) challengeView narrowView rfl rfl rfl).mpr
    fun _ _ => ⟨rfl, rfl⟩
  obtain ⟨verdict, spends, hcheck, haccept⟩ : ∃ verdict spends,
      sampleVerifier.check .sample (sampleTime 0) (proofOf challengeView narrowView)
        (servingService.verify .sample (.ofNat 5000) (proofOf challengeView narrowView)
          sampleExchange).toValue (fun _ => .ok (.boolean true)) = (.ok verdict, spends) ∧
        verdict.IsAccept := ⟨_, _, rfl, rfl, rfl⟩
  obtain ⟨request, nonce, ttlMs, hrequest, -, hnonce, hslice, rfl⟩ :=
    hspent.spent _ _ _ _ _ _ rfl hcheck haccept
  exact ⟨hspent, verdict, request, nonce, ttlMs, hcheck, haccept, hrequest, hnonce, hslice,
    by decide +kernel⟩

/-- **A transcript of two bytes is posted as one**: the array is let through, and its one
element is copied modulo 256. -/
theorem wide_transcript_is_cut :
    malformedProof (proofOf wideView narrowView) = none ∧
      servingService.beginVerify (.ofNat 5000) (proofOf wideView narrowView) =
        .posting ⟨"NA==", "9Q=="⟩ ∧
      decoded "NA==" = some [0x34] ∧ wideView.bytes = [0x34, 0x12] ∧
      ¬BytesVerifiedAreSpent .sample servingService (.ofNat 5000) (proofOf wideView narrowView)
        wideView narrowView := by
  have hposting : servingService.beginVerify (.ofNat 5000) (proofOf wideView narrowView) =
      .posting ⟨"NA==", "9Q=="⟩ := by
    rw [VerifierService.beginVerify_eq_posting_iff]
    exact ⟨rfl, rfl, by rw [requestBody]; rfl, rfl⟩
  refine ⟨rfl, hposting, by decide, rfl, ?_⟩
  intro h
  obtain ⟨request, hrequest, htranscript, -⟩ := h.posted rfl rfl
  obtain rfl := VerifyStage.posting.inj (hposting.symm.trans hrequest)
  exact absurd htranscript (by decide)

/-- A proof with a BigInt array is let through, and the mistake of the caller is then reported
as a service out of reach. -/
theorem beginVerify_bigInt (s : VerifierService) (requestTimeoutMs : Value) {proof : Value}
    {t d : View} (hready : s.ready = true) (hadmitted : malformedProof proof = none)
    (ht : proof.get "transcript" = t.toValue) (hd : proof.get "deviceResponse" = d.toValue)
    (hcls : t.cls = .intArray 8 ∨ d.cls = .intArray 8) :
    ∃ detail, s.beginVerify requestTimeoutMs proof = .returned (.unreachable detail) := by
  -- A copy of BigInts throws, so the body is not built.
  have hthrows : ∀ v : View, v.bytes ≠ [] → v.cls = .intArray 8 → ∀ bytes,
      bufferOf v.toValue ≠ .ok bytes := by
    intro v hne hv bytes
    rw [View.toValue, bufferOf, hv, bufferFrom, if_pos ⟨rfl, hne⟩]
    intro h
    cases h
  cases hbody : requestBody proof with
  | error e =>
      refine ⟨thrownDetail e, ?_⟩
      rw [VerifierService.beginVerify, if_neg (not_not.mpr hready), hadmitted, hbody]
  | ok request =>
      exfalso
      rw [requestBody, ht, hd] at hbody
      obtain ⟨a, ha, hbody⟩ := bind_eq_ok.mp hbody
      obtain ⟨b, hb, -⟩ := bind_eq_ok.mp hbody
      rcases hcls with htcls | hdcls
      · exact hthrows t (bytes_ne_nil_of_admitted hadmitted (by simp) ht) htcls a ha
      · exact hthrows d (bytes_ne_nil_of_admitted hadmitted (by simp) hd) hdcls b hb

end EightEen
