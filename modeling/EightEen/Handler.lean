import EightEen.BodyReader
import EightEen.Limiter

/-!
# The Request Handler

`handle` of `createGate` in `src/gate.js`, and the standalone `handler` over it. A request
runs through routing, the rate limit, the method check, the body, its decoding and the
verifier, and can leave at any of these; what it leaves behind is the `Wire`, with every
response written and every proof handed to the verifier. A statement that throws keeps what
it has done to the wire, and the one `catch` of the handler answers on top of it.

The verifier is anything with the two methods a gate asks for, and the response object does
not throw.

## Main results

* `handler_exit`: all the ways a request can leave the handler.
* `handler_separates`: exactly one response, 200 and 503 carry the verdict, and everything
  else is a transport failure that says nothing about a person.
-/

open Js

namespace EightEen

/-! ### Requests and responses -/

/-- What the handler reads of a request. -/
structure Request where
  url : Option String
  method : String
  /-- `headers['x-forwarded-for']`. -/
  forwardedFor : Value
  /-- `socket?.remoteAddress`. -/
  remoteAddress : Option String
  body : List BodyEvent

/-- A response that was written. -/
structure Response where
  status : ℕ
  /-- The `connection: close` header. -/
  close : Bool
  body : String

/-- The proof that `check` is called with. -/
structure DecodedProof where
  transcript : List UInt8
  deviceResponse : List UInt8

/-- The methods of a verifier. -/
structure VerifierMethods where
  issueChallenge : Completion Challenge
  check : DecodedProof → Completion Value

/-- `GATE_REASONS`. -/
inductive GateReason where
  | payloadTooLarge
  | requestTimeout
  | badRequest
  | methodNotAllowed
  | notFound
  | challengeDisabled
  | rateLimited
  | internalError

/-- The text of a reason. -/
def GateReason.text : GateReason → String
  | payloadTooLarge => "payload_too_large"
  | requestTimeout => "request_timeout"
  | badRequest => "bad_request"
  | methodNotAllowed => "method_not_allowed"
  | notFound => "not_found"
  | challengeDisabled => "challenge_disabled"
  | rateLimited => "rate_limited"
  | internalError => "internal_error"

/-- What a request has done so far: the limiter's map, the responses, and the calls of
`check`. -/
structure Wire where
  hits : Hits
  responses : List Response
  checks : List DecodedProof

/-- A stretch of the handler: how it ends, and the wire it leaves. -/
abbrev Stretch := Wire → Completion Unit × Wire

/-! ### Sending -/

/-- `send(res, code, obj, extra)`. -/
def send (p : Platform) (status : ℕ) (obj : Value) (close : Bool) : Stretch := fun w =>
  match p.jsonText obj with
  | .ok body => (.ok (), { w with responses := w.responses ++ [{ status, close, body }] })
  | .error e => (.error e, w)

/-- The body of a transport failure. -/
def errorBody (reason : GateReason) : Value :=
  .object [("ok", .boolean false), ("over_threshold", .null), ("reason", .string reason.text)]

/-- `err(res, code, reason, extra)`. -/
def err (p : Platform) (status : ℕ) (reason : GateReason) (close : Bool) : Stretch :=
  send p status (errorBody reason) close

/-! ### Routing -/

/-- The two routes. -/
inductive Route where
  | challenge
  | verify
  deriving DecidableEq

/-- `matchRoute(pathname, basePath)`. -/
def matchRoute (pathname basePath : List Char) : Option Route :=
  match stripLiteral basePath pathname with
  | none => none
  | some rest =>
      let rest := if rest = [] then ['/'] else rest
      if rest = "/challenge".toList then some .challenge
      else if rest = "/verify".toList then some .verify
      else none

/-- `clientKey(req, trustProxy)`. -/
def clientKey (req : Request) (trustProxy : Value) : String :=
  let socketKey :=
    match req.remoteAddress with
    | some address => if address = "" then "unknown" else address
    | none => "unknown"
  match req.forwardedFor with
  | .string xff =>
      if trustProxy.truthy ∧ xff ≠ "" then
        String.ofList (trim ((xff.toList.splitOn ',').getLast?.getD []))
      else socketKey
  | _ => socketKey

/-- The mount point of a gate whose `basePath` is a string. -/
abbrev Mount (g : Gate) := {base : String // g.basePath = .string base}

/-! ### The routes -/

/-- The `Buffer.from(text, 'base64url')` of both fields of a parsed body, if it is one. -/
def decodeProof (p : Platform) (parsed : Value) : Option DecodedProof :=
  if ¬parsed.truthy then none
  else
    match parsed.get "transcript", parsed.get "deviceResponse" with
    | .string transcript, .string deviceResponse => some {
        transcript := p.base64Decode transcript
        deviceResponse := p.base64Decode deviceResponse }
    | _, _ => none

/-- The body of a challenge. -/
def challengeBody (c : Challenge) : Value :=
  .object [("nonce", .string (String.ofList (base64Url c.nonce))),
    ("transcript", .string (String.ofList (base64Url c.transcript))),
    ("expiresAt", .ofNat c.expiresAt)]

/-- The `challenge` route. -/
def challengeRoute (p : Platform) (g : Gate) (verifier : VerifierMethods) (req : Request)
    (inFlight : Bool) : Stretch := fun w =>
  if req.method ≠ "GET" then err p 405 .methodNotAllowed inFlight w
  else if g.allowReplay then err p 404 .challengeDisabled false w
  else
    match verifier.issueChallenge with
    | .ok c => send p 200 (challengeBody c) false w
    | .error e => (.error e, w)

/-- `await verifier.check(proof)`, and the response to it. -/
def answer (p : Platform) (verifier : VerifierMethods) (proof : DecodedProof) : Stretch :=
  fun w =>
    let w := { w with checks := w.checks ++ [proof] }
    match verifier.check proof with
    | .error e => (.error e, w)
    | .ok verdict =>
        if verdict.nullish then
          (.error (.typeError "Cannot read properties of a missing value (reading 'ok')"), w)
        else send p (if (verdict.get "ok").truthy then 200 else 503) verdict false w

/-- The `verify` route. A body that is never settled leaves the request waiting. -/
def verifyRoute (p : Platform) (g : Gate) (verifier : VerifierMethods) (req : Request)
    (inFlight : Bool) : Stretch := fun w =>
  if req.method ≠ "POST" then err p 405 .methodNotAllowed inFlight w
  else
    match readBody g.maxBodyBytes.val req.body with
    | .reading _ _ => (.ok (), w)
    | .rejected e =>
        if (e.get "code").strictEq (.string "TOO_LARGE") then err p 413 .payloadTooLarge true w
        else if (e.get "code").strictEq (.string "SLOW") then err p 408 .requestTimeout true w
        else (.error (.other e), w)
    | .resolved raw =>
        match p.jsonParse raw with
        | none => err p 400 .badRequest false w
        | some parsed =>
            match decodeProof p parsed with
            | none => err p 400 .badRequest false w
            | some proof => answer p verifier proof w

/-- `!rl || rl(clientKey(req, trustProxy), Date.now())`, with the map it leaves. -/
def rl (g : Gate) (req : Request) (now : TimeValue) (hits : Hits) : Bool × Hits :=
  match g.rateLimit with
  | none => (true, hits)
  | some cfg => allow cfg hits (clientKey req g.trustProxy) now.val

/-- The body of the `try` of `handle`. -/
def routed (p : Platform) (g : Gate) (verifier : VerifierMethods) (now : TimeValue)
    (req : Request) (which : Route) : Stretch := fun w =>
  let inFlight := req.method = "POST"
  let (allowed, hits) := rl g req now w.hits
  let w := { w with hits }
  if ¬allowed then err p 429 .rateLimited inFlight w
  else
    match which with
    | .challenge => challengeRoute p g verifier req inFlight w
    | .verify => verifyRoute p g verifier req inFlight w

/-- The `catch` of `handle`. -/
def caught (p : Platform) : Completion Unit × Wire → Completion Unit × Wire
  | (.ok (), w) => (.ok (), w)
  | (.error _, w) => err p 500 .internalError false w

/-- `handle(req, res, onUnmatched)`. -/
def handle (p : Platform) (g : Gate) (mount : Mount g) (verifier : VerifierMethods)
    (now : TimeValue) (req : Request) (onUnmatched : Stretch) : Stretch := fun w =>
  match p.urlPathname (req.url.getD "/") with
  | none => err p 400 .badRequest false w
  | some pathname =>
      match matchRoute pathname.toList mount.val.toList with
      | none => onUnmatched w
      | some which =>
          caught p (routed p g verifier now req which w)

/-- `handler(req, res)`: what is thrown out of `handle` is swallowed. -/
def handler (p : Platform) (g : Gate) (mount : Mount g) (verifier : VerifierMethods)
    (now : TimeValue) (req : Request) (hits : Hits) : Wire :=
  (handle p g mount verifier now req (err p 404 .notFound false)
    { hits, responses := [], checks := [] }).2

/-! ### Sending always succeeds for a refusal -/

/-- The status that a reason goes with. -/
def GateReason.status : GateReason → ℕ
  | payloadTooLarge => 413
  | requestTimeout => 408
  | badRequest => 400
  | methodNotAllowed => 405
  | notFound => 404
  | challengeDisabled => 404
  | rateLimited => 429
  | internalError => 500

/-- The body of an error holds nothing but texts, so that it can always be written as JSON. -/
theorem errorBody_isFlat (reason : GateReason) : (errorBody reason).isFlat = true := rfl

/-- A refusal is always sent. -/
theorem err_eq (p : Platform) (status : ℕ) (reason : GateReason) (close : Bool) :
    ∃ body, p.jsonText (errorBody reason) = .ok body ∧ ∀ w, err p status reason close w =
      (.ok (), { w with responses := w.responses ++ [{ status, close, body }] }) := by
  obtain ⟨body, hbody⟩ := p.jsonText_flat _ (errorBody_isFlat reason)
  refine ⟨body, hbody, fun w => ?_⟩
  rw [err, send, hbody]

/-- The `catch` adds nothing to a refusal. -/
theorem caught_err (p : Platform) (status : ℕ) (reason : GateReason) (close : Bool) (w : Wire) :
    caught p (err p status reason close w) = err p status reason close w := by
  obtain ⟨body, -, herr⟩ := err_eq p status reason close
  rw [herr]
  rfl

/-- A challenge is always sent. -/
theorem send_challengeBody (p : Platform) (c : Challenge) :
    ∃ body, p.jsonText (challengeBody c) = .ok body ∧ ∀ w, send p 200 (challengeBody c) false w =
      (.ok (), { w with responses := w.responses ++ [⟨200, false, body⟩] }) := by
  obtain ⟨body, hbody⟩ := p.jsonText_flat (challengeBody c) rfl
  refine ⟨body, hbody, fun w => ?_⟩
  rw [send, hbody]

/-! ### What a proof needs to be checked -/

/-- The verify route is one path. -/
theorem matchRoute_eq_verify_iff {pathname basePath : List Char} :
    matchRoute pathname basePath = some .verify ↔ pathname = basePath ++ "/verify".toList := by
  have hverify : matchRoute (basePath ++ "/verify".toList) basePath = some .verify := by
    rw [matchRoute, stripLiteral_eq_some_iff.mpr rfl]
    decide
  refine ⟨fun h => ?_, fun h => h ▸ hverify⟩
  rw [matchRoute] at h
  cases hrest : stripLiteral basePath pathname with
  | none =>
      rw [hrest] at h
      cases h
  | some rest =>
      rw [stripLiteral_eq_some_iff.mp hrest]
      rw [hrest] at h
      dsimp only at h
      by_cases hempty : rest = []
      · rw [hempty] at h
        exact absurd h (by decide)
      · rw [if_neg hempty] at h
        split at h
        · cases h
        · split at h
          · next hpath => rw [hpath]
          · cases h

/-- The route of a request. -/
def routeOf (p : Platform) {g : Gate} (mount : Mount g) (req : Request) : Option Route :=
  (p.urlPathname (req.url.getD "/")).bind fun pathname =>
    matchRoute pathname.toList mount.val.toList

/-- What a proof needs before it is checked: a POST to the verify route that the limiter
allows, and a body that arrived whole, in time and within the bound, whose JSON has both
fields. -/
structure Eligible (p : Platform) (g : Gate) (mount : Mount g) (now : TimeValue)
    (req : Request) (hits : Hits) (proof : DecodedProof) : Prop where
  path : p.urlPathname (req.url.getD "/") = some (mount.val ++ "/verify")
  method : req.method = "POST"
  allowed : (rl g req now hits).1 = true
  body : ∃ (chunks : List (List UInt8)) (rest : List BodyEvent) (parsed : Value)
    (transcript deviceResponse : String), req.body = chunks.map .data ++ .ended :: rest ∧
      (chunks.flatten.length : ℚ) ≤ g.maxBodyBytes.val ∧
      p.jsonParse chunks.flatten = some parsed ∧
      parsed.get "transcript" = .string transcript ∧
      parsed.get "deviceResponse" = .string deviceResponse ∧
      proof = ⟨p.base64Decode transcript, p.base64Decode deviceResponse⟩

/-- **A body is a proof** only with two texts in it, and the proof is what these texts decode to.
-/
theorem decodeProof_eq_some {p : Platform} {parsed : Value} {proof : DecodedProof}
    (h : decodeProof p parsed = some proof) : ∃ transcript deviceResponse : String,
      parsed.get "transcript" = .string transcript ∧
      parsed.get "deviceResponse" = .string deviceResponse ∧
      proof = ⟨p.base64Decode transcript, p.base64Decode deviceResponse⟩ := by
  rw [decodeProof] at h
  split at h
  · cases h
  · split at h
    · next transcript deviceResponse htranscript hdevice =>
        exact ⟨transcript, deviceResponse, htranscript, hdevice, (Option.some.inj h).symm⟩
    · cases h

/-! ### The exits -/

/-- How a request leaves the handler, and the wire it leaves. -/
inductive Exit (p : Platform) (g : Gate) (mount : Mount g) (verifier : VerifierMethods)
    (now : TimeValue) (req : Request) (hits : Hits) : Wire → Prop
  | refused (reason : GateReason) {hits' : Hits} {close : Bool} {body : String}
      (hbody : p.jsonText (errorBody reason) = .ok body) :
      Exit p g mount verifier now req hits ⟨hits', [⟨reason.status, close, body⟩], []⟩
  | issued (c : Challenge) {hits' : Hits} {body : String}
      (hroute : routeOf p mount req = some .challenge) (hissue : verifier.issueChallenge = .ok c)
      (hbody : p.jsonText (challengeBody c) = .ok body) :
      Exit p g mount verifier now req hits ⟨hits', [⟨200, false, body⟩], []⟩
  | answered (proof : DecodedProof) (verdict : Value) {hits' : Hits} {body : String}
      (heligible : Eligible p g mount now req hits proof)
      (hcheck : verifier.check proof = .ok verdict) (hbody : p.jsonText verdict = .ok body) :
      Exit p g mount verifier now req hits
        ⟨hits', [⟨if (verdict.get "ok").truthy then 200 else 503, false, body⟩], [proof]⟩
  | failed (proof : DecodedProof) {hits' : Hits} {body : String}
      (heligible : Eligible p g mount now req hits proof)
      (hcheck : ∀ verdict, verifier.check proof = .ok verdict →
        verdict.nullish = true ∨ ∃ e, p.jsonText verdict = .error e)
      (hbody : p.jsonText (errorBody .internalError) = .ok body) :
      Exit p g mount verifier now req hits ⟨hits', [⟨500, false, body⟩], [proof]⟩
  | waiting {hits' : Hits} (hbody : (readBody g.maxBodyBytes.val req.body).settled = false) :
      Exit p g mount verifier now req hits ⟨hits', [], []⟩

section Exits

variable {p : Platform} {g : Gate} {mount : Mount g} {verifier : VerifierMethods}
  {now : TimeValue} {req : Request} {hits : Hits}

/-- A request that is answered with an error leaves the handler by that exit. -/
theorem exit_err (reason : GateReason) (close : Bool) (hits' : Hits) :
    Exit p g mount verifier now req hits
      (err p reason.status reason close ⟨hits', [], []⟩).2 := by
  obtain ⟨body, hbody, herr⟩ := err_eq p reason.status reason close
  rw [herr]
  exact .refused reason hbody

/-- And so it does within the `try` of the handler, since an error body never throws. -/
theorem exit_caught_err (reason : GateReason) (close : Bool) (hits' : Hits) :
    Exit p g mount verifier now req hits
      (caught p (err p reason.status reason close ⟨hits', [], []⟩)).2 := by
  rw [caught_err]
  exact exit_err reason close hits'

/-- The challenge route leaves the handler with a challenge or with an error. -/
theorem exit_challengeRoute (hroute : routeOf p mount req = some .challenge) (inFlight : Bool)
    (hits' : Hits) : Exit p g mount verifier now req hits
      (caught p (challengeRoute p g verifier req inFlight ⟨hits', [], []⟩)).2 := by
  rw [challengeRoute]
  split
  · exact exit_caught_err .methodNotAllowed inFlight hits'
  · split
    · exact exit_caught_err .challengeDisabled false hits'
    · split
      · next c hissue =>
          obtain ⟨body, hbody, hsend⟩ := send_challengeBody p c
          rw [hsend]
          exact .issued c hroute hissue hbody
      · next e _ => exact exit_err .internalError false hits'

/-- The check is called once, and its verdict is sent, or else the `catch` answers. -/
theorem exit_answer {proof : DecodedProof} (heligible : Eligible p g mount now req hits proof)
    (hits' : Hits) : Exit p g mount verifier now req hits
      (caught p (answer p verifier proof ⟨hits', [], []⟩)).2 := by
  obtain ⟨body, hbody, herr⟩ := err_eq p 500 .internalError false
  rw [answer]
  dsimp only
  split
  · next e hthrown =>
      rw [caught, herr]
      refine .failed proof heligible (fun verdict hv => ?_) hbody
      rw [hthrown] at hv
      cases hv
  next verdict hcheck =>
  split
  · next hnullish =>
      rw [caught, herr]
      refine .failed proof heligible (fun verdict' hv => .inl ?_) hbody
      rw [hcheck] at hv
      rw [← Except.ok.inj hv]
      exact hnullish
  · rw [send]
    split
    · next text htext => exact .answered proof verdict heligible hcheck htext
    · next e hthrown =>
        rw [caught, herr]
        refine .failed proof heligible (fun verdict' hv => .inr ⟨e, ?_⟩) hbody
        rw [hcheck] at hv
        rw [← Except.ok.inj hv]
        exact hthrown

/-- **The verify route** leaves the handler with the answer of a check, with an error, or waiting
for the rest of its body. -/
theorem exit_verifyRoute (hpath : p.urlPathname (req.url.getD "/") = some (mount.val ++ "/verify"))
    (hallowed : (rl g req now hits).1 = true) (inFlight : Bool) (hits' : Hits) :
    Exit p g mount verifier now req hits
      (caught p (verifyRoute p g verifier req inFlight ⟨hits', [], []⟩)).2 := by
  rw [verifyRoute]
  split
  · exact exit_caught_err .methodNotAllowed inFlight hits'
  next hmethod =>
  split
  · next hreading => exact .waiting (by rw [hreading]; rfl)
  · split
    · exact exit_caught_err .payloadTooLarge true hits'
    · split
      · exact exit_caught_err .requestTimeout true hits'
      · exact exit_err .internalError false hits'
  next raw hraw =>
  split
  · exact exit_caught_err .badRequest false hits'
  next parsed hparsed =>
  split
  · exact exit_caught_err .badRequest false hits'
  · next proof hproof =>
      obtain ⟨chunks, rest, hevents, rfl, hfits⟩ :=
        (readBody_eq_resolved_iff g.maxBodyBytes.property.le).mp hraw
      obtain ⟨transcript, deviceResponse, htranscript, hdevice, hdecoded⟩ :=
        decodeProof_eq_some hproof
      exact exit_answer ⟨hpath, not_not.mp hmethod, hallowed, chunks, rest, parsed, transcript,
        deviceResponse, hevents, hfits, hparsed, htranscript, hdevice, hdecoded⟩ hits'

/-- **All the ways a request can leave the handler.** -/
theorem handler_exit : Exit p g mount verifier now req hits
    (handler p g mount verifier now req hits) := by
  rw [handler, handle]
  split
  · exact exit_err .badRequest false hits
  next pathname hpathname =>
  split
  · exact exit_err .notFound false hits
  next which hwhich =>
  rw [routed]
  dsimp only
  split
  · exact exit_caught_err .rateLimited _ _
  next hallowed =>
  rw [not_not] at hallowed
  cases which with
  | challenge =>
      exact exit_challengeRoute (by rw [routeOf, hpathname, Option.bind_some, hwhich]) _ _
  | verify =>
      have hpath : pathname = mount.val ++ "/verify" := by
        rw [← String.toList_inj, String.toList_append]
        exact matchRoute_eq_verify_iff.mp hwhich
      exact exit_verifyRoute (by rw [hpathname, hpath]) hallowed _ _

end Exits

/-! ### The separation -/

/-- The object of a verdict. -/
def Verdict.toValue (v : Verdict) : Value :=
  .object [("ok", .boolean v.ok),
    ("over_threshold", match v.overThreshold with
      | some answer => .boolean answer
      | none => .null),
    ("reason", .string v.reason.text), ("detail", v.detail)]

/-- A value that JSON carries, with a bit for `ok` that is off exactly when `over_threshold`
is `null`. -/
structure IsVerdict (p : Platform) (v : Value) : Prop where
  text : ∃ text, p.jsonText v = .ok text
  ok : ∃ b, v.get "ok" = .boolean b
  separated : v.get "ok" = .boolean false ↔ v.get "over_threshold" = .null

/-- A sound verdict keeps its separation as an object. -/
theorem Verdict.Sound.isVerdict {p : Platform} {v : Verdict} (h : v.Sound) {text : String}
    (htext : p.jsonText v.toValue = .ok text) : IsVerdict p v.toValue where
  text := ⟨text, htext⟩
  ok := ⟨v.ok, rfl⟩
  separated := by
    have hok : v.toValue.get "ok" = .boolean v.ok := rfl
    have hsound : v.ok = false ↔ v.overThreshold = none := h
    rw [hok, Value.boolean.injEq, hsound]
    cases hover : v.overThreshold with
    | none => exact iff_of_true rfl (by rw [toValue, hover]; rfl)
    | some answer =>
        refine iff_of_false (by simp) ?_
        rw [toValue, hover]
        intro hnull
        cases hnull

/-- A body that says nothing about a person. -/
def SaysNothing (p : Platform) (r : Response) : Prop :=
  ∃ obj, p.jsonText obj = .ok r.body ∧ obj.get "ok" = .boolean false ∧
    obj.get "over_threshold" = .null

/-- The check was called and resolved with this verdict. -/
def Resolved (verifier : VerifierMethods) (w : Wire) (verdict : Value) : Prop :=
  ∃ proof ∈ w.checks, verifier.check proof = .ok verdict

/-- Where one check was made, what has been resolved is what this check has resolved with. -/
theorem resolved_singleton {verifier : VerifierMethods} {hits : Hits}
    {responses : List Response} {proof : DecodedProof} {verdict : Value} :
    Resolved verifier ⟨hits, responses, [proof]⟩ verdict ↔
      verifier.check proof = .ok verdict := by
  constructor
  · rintro ⟨proof', hmem, h⟩
    rwa [List.mem_singleton.mp hmem] at h
  · exact fun h => ⟨proof, List.mem_singleton_self _, h⟩

/-- A refusal says nothing about a person. -/
theorem saysNothing_of_errorBody {p : Platform} {r : Response} {reason : GateReason}
    (h : p.jsonText (errorBody reason) = .ok r.body) : SaysNothing p r :=
  ⟨errorBody reason, h, rfl, rfl⟩

/-- What the wire tells apart: an answer, a check that could not give one, a challenge, and
a failure of the transport. -/
structure Separated (p : Platform) (g : Gate) (mount : Mount g) (verifier : VerifierMethods)
    (now : TimeValue) (req : Request) (hits : Hits) (w : Wire) (r : Response) : Prop where
  responses : w.responses = [r]
  /-- On the verify route 200 is an answer. -/
  answered : routeOf p mount req = some .verify →
    (r.status = 200 ↔ ∃ verdict, Resolved verifier w verdict ∧
      verdict.get "ok" = .boolean true)
  /-- A 503 is a verdict without an answer. -/
  unanswered : r.status = 503 ↔ ∃ verdict, Resolved verifier w verdict ∧
    verdict.get "ok" = .boolean false
  /-- The body is the verdict, whatever it is. -/
  body : ∀ verdict, Resolved verifier w verdict → p.jsonText verdict = .ok r.body
  /-- Any other 200 is a challenge. -/
  issued : r.status = 200 → routeOf p mount req ≠ some .verify →
    routeOf p mount req = some .challenge ∧ ∃ c, verifier.issueChallenge = .ok c ∧
      p.jsonText (challengeBody c) = .ok r.body
  /-- A 503 says nothing about a person, and nor does any failure of the transport. -/
  silent : r.status ≠ 200 → SaysNothing p r
  failures : r.status ≠ 200 → r.status ≠ 503 →
    r.status ∈ [400, 404, 405, 408, 413, 429, 500]
  calledOnce : w.checks.length ≤ 1
  eligible : ∀ proof ∈ w.checks, Eligible p g mount now req hits proof

section Separation

variable {p : Platform} {g : Gate} {mount : Mount g} {verifier : VerifierMethods}
  {now : TimeValue} {req : Request} {hits hits' : Hits} {close : Bool} {body : String}
  {proof : DecodedProof}

/-- The status of a reason is one of seven. -/
theorem status_mem (reason : GateReason) :
    reason.status ∈ [400, 404, 405, 408, 413, 429, 500] := by
  cases reason <;> decide

/-- No reason of the gate has the status of an answer: not that of a yes or no, nor that of none.
-/
theorem status_ne_ok (reason : GateReason) : reason.status ≠ 200 ∧ reason.status ≠ 503 := by
  cases reason <;> decide

/-- **A refused request** keeps gate and verifier apart: one error body, and no check. -/
theorem separated_refused {reason : GateReason}
    (hbody : p.jsonText (errorBody reason) = .ok body) :
    Separated p g mount verifier now req hits ⟨hits', [⟨reason.status, close, body⟩], []⟩
      ⟨reason.status, close, body⟩ where
  responses := rfl
  answered _ := iff_of_false (status_ne_ok reason).1 fun ⟨_, ⟨_, hmem, _⟩, _⟩ =>
    absurd hmem (by simp)
  unanswered := iff_of_false (status_ne_ok reason).2 fun ⟨_, ⟨_, hmem, _⟩, _⟩ =>
    absurd hmem (by simp)
  body := fun _ ⟨_, hmem, _⟩ => absurd hmem (by simp)
  issued h := absurd h (status_ne_ok reason).1
  silent _ := saysNothing_of_errorBody hbody
  failures _ _ := status_mem reason
  calledOnce := by simp
  eligible := by simp

/-- **A request that was given a challenge** keeps them apart: one body with the challenge, and no
check. -/
theorem separated_issued {c : Challenge} (hroute : routeOf p mount req = some .challenge)
    (hissue : verifier.issueChallenge = .ok c)
    (hbody : p.jsonText (challengeBody c) = .ok body) :
    Separated p g mount verifier now req hits ⟨hits', [⟨200, close, body⟩], []⟩
      ⟨200, close, body⟩ where
  responses := rfl
  answered h := by
    rw [hroute] at h
    cases h
  unanswered := iff_of_false (by simp) fun ⟨_, ⟨_, hmem, _⟩, _⟩ => absurd hmem (by simp)
  body := fun _ ⟨_, hmem, _⟩ => absurd hmem (by simp)
  issued _ _ := ⟨hroute, c, hissue, hbody⟩
  silent h := absurd rfl h
  failures h := absurd rfl h
  calledOnce := by simp
  eligible := by simp

/-- A request that may be checked is one to the verify route. -/
theorem routeOf_of_eligible (h : Eligible p g mount now req hits proof) :
    routeOf p mount req = some .verify := by
  rw [routeOf, h.path, Option.bind_some, String.toList_append]
  exact matchRoute_eq_verify_iff.mpr rfl

/-- The check rejected, which is not an answer and not a verdict. -/
theorem separated_failed (heligible : Eligible p g mount now req hits proof)
    (hcheck : ∀ verdict, verifier.check proof ≠ .ok verdict)
    (hbody : p.jsonText (errorBody .internalError) = .ok body) :
    Separated p g mount verifier now req hits ⟨hits', [⟨500, close, body⟩], [proof]⟩
      ⟨500, close, body⟩ where
  responses := rfl
  answered _ := iff_of_false (by simp) fun ⟨verdict, h, _⟩ =>
    hcheck verdict (resolved_singleton.mp h)
  unanswered := iff_of_false (by simp) fun ⟨verdict, h, _⟩ =>
    hcheck verdict (resolved_singleton.mp h)
  body verdict h := absurd (resolved_singleton.mp h) (hcheck verdict)
  issued h := absurd h (by simp)
  silent _ := saysNothing_of_errorBody hbody
  failures _ _ := status_mem .internalError
  calledOnce := by simp
  eligible proof' hmem := by
    rw [List.mem_singleton.mp hmem]
    exact heligible

/-- The check resolved with a verdict, which is the body. -/
theorem separated_answered (heligible : Eligible p g mount now req hits proof)
    {verdict : Value} (hcheck : verifier.check proof = .ok verdict)
    (hbody : p.jsonText verdict = .ok body) {b : Bool} (hok : verdict.get "ok" = .boolean b)
    (hnull : b = false → verdict.get "over_threshold" = .null) {status : ℕ}
    (hstatus : status = if b then 200 else 503) :
    Separated p g mount verifier now req hits ⟨hits', [⟨status, close, body⟩], [proof]⟩
      ⟨status, close, body⟩ := by
  have hone (bit : Bool) : (∃ v, Resolved verifier ⟨hits', [⟨status, close, body⟩], [proof]⟩ v ∧
      v.get "ok" = .boolean bit) ↔ b = bit := by
    constructor
    · rintro ⟨v, hv, hbit⟩
      rw [resolved_singleton, hcheck] at hv
      rw [← Except.ok.inj hv, hok] at hbit
      exact Value.boolean.inj hbit
    · rintro rfl
      exact ⟨verdict, resolved_singleton.mpr hcheck, hok⟩
  refine {
    responses := rfl
    answered := fun _ => ?_
    unanswered := ?_
    body := fun v hv => ?_
    issued := fun _ hroute => absurd (routeOf_of_eligible heligible) hroute
    silent := fun hno => ?_
    failures := fun hno hun => ?_
    calledOnce := by simp
    eligible := fun proof' hmem => ?_ }
  · rw [hone, hstatus]
    cases b <;> simp
  · rw [hone, hstatus]
    cases b <;> simp
  · rw [resolved_singleton, hcheck] at hv
    rwa [← Except.ok.inj hv]
  · cases b with
    | true => exact absurd hstatus hno
    | false => exact ⟨verdict, hbody, hok, hnull rfl⟩
  · cases b with
    | true => exact absurd hstatus hno
    | false => exact absurd hstatus hun
  · rw [List.mem_singleton.mp hmem]
    exact heligible

end Separation

/-- **The separation reaches the wire.** Whatever the request, once its body has ended,
failed or timed out, and whatever the check does, as long as what it resolves with is a
verdict: there is exactly one response, and its status and body tell an answer from
everything else. -/
theorem handler_separates (p : Platform) (g : Gate) (mount : Mount g)
    (verifier : VerifierMethods) (now : TimeValue) (req : Request) (hits : Hits)
    (hbody : ∃ e ∈ req.body, e.decisive = true)
    (hverdict : ∀ proof verdict, verifier.check proof = .ok verdict → IsVerdict p verdict) :
    ∃ r, Separated p g mount verifier now req hits
      (handler p g mount verifier now req hits) r := by
  have hexit : Exit p g mount verifier now req hits
      (handler p g mount verifier now req hits) := handler_exit
  generalize handler p g mount verifier now req hits = w at hexit
  cases hexit with
  | refused reason hrefusal =>
      exact ⟨_, separated_refused hrefusal⟩
  | issued c hroute hissue hissued =>
      exact ⟨_, separated_issued hroute hissue hissued⟩
  | answered proof verdict heligible hcheck hsent =>
      have hv := hverdict proof verdict hcheck
      obtain ⟨b, hok⟩ := hv.ok
      refine ⟨_, separated_answered heligible hcheck hsent hok (fun hb => ?_) ?_⟩
      · exact hv.separated.mp (hb ▸ hok)
      · rw [hok]
        rfl
  | failed proof heligible hcheck hrefusal =>
      refine ⟨_, separated_failed heligible (fun verdict hok => ?_) hrefusal⟩
      have hv := hverdict proof verdict hok
      rcases hcheck verdict hok with hnullish | ⟨e, hthrown⟩
      · obtain ⟨b, hb⟩ := hv.ok
        rw [Value.get_of_nullish hnullish] at hb
        cases hb
      · obtain ⟨text, htext⟩ := hv.text
        rw [htext] at hthrown
        cases hthrown
  | waiting hreading =>
      rw [readBody_settled hbody] at hreading
      cases hreading

/-! ### A request to evaluate with -/

/-- The gate that `createGate` builds over such a verifier and no other option. -/
def sampleGate : Gate where
  verifier := .object [("check", .function "check"),
    ("issueChallenge", .function "issueChallenge"), ("requiresSingleUse", .boolean true)]
  allowReplay := false
  basePath := .string "/8een"
  maxBodyBytes := ⟨1000000, by norm_num⟩
  maxBodyReadMs := ⟨10000, by norm_num⟩
  trustProxy := .boolean false
  rateLimit := some { limit := ⟨60, by norm_num⟩, windowMs := ⟨60000, by norm_num⟩ }
  replaySafe _ := rfl

/-- A verifier that finds a claim true. -/
def sampleMethods : VerifierMethods where
  issueChallenge := .ok { nonce := [], transcript := [], expiresAt := 0 }
  check _ := .ok (answered true .verified (.string "age_over_18")).toValue

/-- A proof that arrives in one piece. -/
def samplePost : Request where
  url := some "/8een/verify"
  method := "POST"
  forwardedFor := .undefined
  remoteAddress := some "127.0.0.1"
  body := [.data sampleBody, .ended]

/-- A posted proof is answered with one response, and that is the verdict of its check. -/
theorem handler_separates_samplePost :
    (∃ r, Separated Platform.sample sampleGate ⟨"/8een", rfl⟩ sampleMethods (sampleTime 0)
      samplePost .empty (handler Platform.sample sampleGate ⟨"/8een", rfl⟩ sampleMethods
        (sampleTime 0) samplePost .empty) r) ∧
    (handler Platform.sample sampleGate ⟨"/8een", rfl⟩ sampleMethods (sampleTime 0) samplePost
      .empty).responses.map Response.status = [200] := by
  refine ⟨handler_separates _ _ _ _ _ _ _ ⟨.ended, by simp [samplePost], rfl⟩ ?_, by decide +kernel⟩
  intro proof verdict hcheck
  rw [← Except.ok.inj hcheck]
  exact Verdict.Sound.isVerdict (by simp [Verdict.Sound, answered]) rfl

end EightEen
