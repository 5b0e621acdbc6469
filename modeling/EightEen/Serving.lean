import EightEen.Handler
import EightEen.Visitors

/-!
# Gates at Work

Any number of gates of `src/gate.js`, each over a replica that shares a secret and a store
with the others, and any number of requests at once. `handle` runs without a break up to the
body, from there to `verifier.check`, and from there to its end; a request waits in between,
and everything else goes on. The events are a request that comes in, something that happens
to a body, a reply of the service and a spend that reaches the store, and a run is any
interleaving of them along one clock that does not go back.

`enter`, `afterBody` and `conclude` are the three stretches of `handle`
(`handler_eq_enter`). The limiter of a gate is shared by its requests, the store by all of
them.

## Main results

* `attend_cases`: what each event does.
* `Serving.Consistent.attend`, `serving_of_run`: in every reachable state each handling stands
  where its own events have brought it, and the checks are a run of the replicas.
-/

open Js Transition

namespace EightEen

/-! ### The three stretches -/

/-- `handle` up to its first `await`: the wire, and whether it waits for the body. -/
def enter (p : Platform) (g : Gate) (mount : Mount g) (issue : Completion Challenge)
    (now : TimeValue) (req : Request) (w : Wire) : Wire × Bool :=
  match p.urlPathname (req.url.getD "/") with
  | none => ((err p 400 .badRequest false w).2, false)
  | some pathname =>
      match matchRoute pathname.toList mount.val.toList with
      | none => ((err p 404 .notFound false w).2, false)
      | some which =>
          let inFlight := req.method = "POST"
          let (allowed, hits) := rl g req now w.hits
          let w := { w with hits }
          if ¬allowed then ((err p 429 .rateLimited inFlight w).2, false)
          else
            match which with
            | .challenge =>
                -- The challenge route does not check anything.
                ((caught p (challengeRoute p g ⟨issue, fun _ => .ok .undefined⟩ req inFlight w)).2,
                  false)
            | .verify =>
                if req.method ≠ "POST" then ((err p 405 .methodNotAllowed inFlight w).2, false)
                else (w, true)

/-- What becomes of a request once its body is settled. -/
inductive BodyOutcome where
  | waits
  | refuses (stretch : Stretch)
  | submits (proof : DecodedProof)

/-- The verify route between its two `await`s. -/
def afterBody (p : Platform) : BodyState → BodyOutcome
  | .reading _ _ => .waits
  | .rejected e =>
      if (e.get "code").strictEq (.string "TOO_LARGE") then
        .refuses (err p 413 .payloadTooLarge true)
      else if (e.get "code").strictEq (.string "SLOW") then
        .refuses (err p 408 .requestTimeout true)
      else .refuses fun w => (.error (.other e), w)
  | .resolved raw =>
      match p.jsonParse raw with
      | none => .refuses (err p 400 .badRequest false)
      | some parsed =>
          match decodeProof p parsed with
          | none => .refuses (err p 400 .badRequest false)
          | some proof => .submits proof

/-- The call of `verifier.check`. -/
def submit (proof : DecodedProof) (w : Wire) : Wire :=
  { w with checks := w.checks ++ [proof] }

/-- The verify route from the end of the check. -/
def conclude (p : Platform) : Completion Value → Stretch
  | .error e => fun w => (.error e, w)
  | .ok verdict => fun w =>
      if verdict.nullish then
        (.error (.typeError "Cannot read properties of a missing value (reading 'ok')"), w)
      else send p (if (verdict.get "ok").truthy then 200 else 503) verdict false w

/-- The rest of the verify route, over a verifier that answers at once. -/
def resume (p : Platform) (verifier : VerifierMethods) : BodyOutcome → Stretch
  | .waits => fun w => (.ok (), w)
  | .refuses stretch => stretch
  | .submits proof => fun w => conclude p (verifier.check proof) (submit proof w)

theorem afterBody_eq_waits_iff {p : Platform} {body : BodyState} :
    afterBody p body = .waits ↔ body.settled = false := by
  cases body with
  | reading len chunks => exact iff_of_true rfl rfl
  | resolved raw =>
      refine iff_of_false ?_ (by simp [BodyState.settled])
      rw [afterBody]
      split
      · simp
      · split <;> simp
  | rejected e =>
      refine iff_of_false ?_ (by simp [BodyState.settled])
      rw [afterBody]
      split
      · simp
      · split <;> simp

/-- A check that answers at once. -/
theorem answer_eq_conclude (p : Platform) (verifier : VerifierMethods) (proof : DecodedProof)
    (w : Wire) :
    answer p verifier proof w = conclude p (verifier.check proof) (submit proof w) := by
  rw [answer, submit]
  cases verifier.check proof <;> rfl

/-- The verify route in its stretches. -/
theorem verifyRoute_eq_resume (p : Platform) (g : Gate) (verifier : VerifierMethods)
    (req : Request) (inFlight : Bool) (w : Wire) (hmethod : req.method = "POST") :
    verifyRoute p g verifier req inFlight w =
      resume p verifier (afterBody p (readBody g.maxBodyBytes.val req.body)) w := by
  rw [verifyRoute, if_neg (not_not.mpr hmethod)]
  cases readBody g.maxBodyBytes.val req.body with
  | reading len chunks => rfl
  | rejected e =>
      dsimp only [afterBody]
      split
      · rfl
      · split <;> rfl
  | resolved raw =>
      dsimp only [afterBody]
      cases p.jsonParse raw with
      | none => rfl
      | some parsed =>
          dsimp only
          cases decodeProof p parsed with
          | none => rfl
          | some proof => exact answer_eq_conclude p verifier proof w

/-- **The handler in its stretches.** -/
theorem handler_eq_enter (p : Platform) (g : Gate) (mount : Mount g)
    (verifier : VerifierMethods) (now : TimeValue) (req : Request) (hits : Hits) :
    handler p g mount verifier now req hits =
      match enter p g mount verifier.issueChallenge now req ⟨hits, [], []⟩ with
      | (w, false) => w
      | (w, true) =>
          (caught p
            (resume p verifier (afterBody p (readBody g.maxBodyBytes.val req.body)) w)).2 := by
  rw [handler, handle, enter]
  cases p.urlPathname (req.url.getD "/") with
  | none => rfl
  | some pathname =>
      dsimp only
      cases matchRoute pathname.toList mount.val.toList with
      | none => rfl
      | some which =>
          dsimp only
          rw [routed]
          dsimp only
          by_cases hallowed : (rl g req now hits).1 = true
          swap
          · rw [if_pos hallowed, if_pos hallowed, caught_err]
          rw [if_neg (not_not.mpr hallowed), if_neg (not_not.mpr hallowed)]
          cases which with
          | challenge => rfl
          | verify =>
              dsimp only
              by_cases hmethod : req.method = "POST"
              · rw [if_neg (not_not.mpr hmethod),
                  verifyRoute_eq_resume p g verifier req _ _ hmethod]
              · rw [if_pos hmethod, verifyRoute, if_pos hmethod, caught_err]

/-- A refusal is one response and no check. -/
theorem answeredOnce_err (p : Platform) (status : ℕ) (reason : GateReason) (close : Bool)
    (hits : Hits) : (err p status reason close ⟨hits, [], []⟩).2.responses.length = 1 ∧
      (err p status reason close ⟨hits, [], []⟩).2.checks = [] := by
  obtain ⟨body, -, heq⟩ := err_eq p status reason close
  rw [heq]
  exact ⟨rfl, rfl⟩

/-- The challenge route answers once and checks nothing. -/
theorem answeredOnce_challengeRoute (p : Platform) (g : Gate) (verifier : VerifierMethods)
    (req : Request) (inFlight : Bool) (hits : Hits) :
    (caught p (challengeRoute p g verifier req inFlight ⟨hits, [], []⟩)).2.responses.length = 1 ∧
      (caught p (challengeRoute p g verifier req inFlight ⟨hits, [], []⟩)).2.checks = [] := by
  rw [challengeRoute]
  split
  · rw [caught_err]
    exact answeredOnce_err p _ _ _ hits
  split
  · rw [caught_err]
    exact answeredOnce_err p _ _ _ hits
  split
  · next c _ =>
      obtain ⟨body, -, hsend⟩ := send_challengeBody p c
      rw [hsend]
      exact ⟨rfl, rfl⟩
  · exact answeredOnce_err p _ _ _ hits

/-- **Up to the first `await`**: a request has been answered once, or it is a POST to the
verify route that the limiter allows, and has done nothing but ask the limiter. -/
theorem enter_cases (p : Platform) (g : Gate) (mount : Mount g) (issue : Completion Challenge)
    (now : TimeValue) (req : Request) (hits : Hits) :
    ((enter p g mount issue now req ⟨hits, [], []⟩).2 = false ∧
        (enter p g mount issue now req ⟨hits, [], []⟩).1.responses.length = 1 ∧
        (enter p g mount issue now req ⟨hits, [], []⟩).1.checks = []) ∨
      enter p g mount issue now req ⟨hits, [], []⟩ = (⟨(rl g req now hits).2, [], []⟩, true) ∧
        routeOf p mount req = some .verify ∧ req.method = "POST" ∧
        (rl g req now hits).1 = true := by
  rw [enter, routeOf]
  cases p.urlPathname (req.url.getD "/") with
  | none => exact Or.inl ⟨rfl, answeredOnce_err p _ _ _ hits⟩
  | some pathname =>
      dsimp only [Option.bind_some]
      cases matchRoute pathname.toList mount.val.toList with
      | none => exact Or.inl ⟨rfl, answeredOnce_err p _ _ _ hits⟩
      | some which =>
          dsimp only
          by_cases hallowed : (rl g req now hits).1 = true
          swap
          · rw [if_pos hallowed]
            exact Or.inl ⟨rfl, answeredOnce_err p _ _ _ _⟩
          rw [if_neg (not_not.mpr hallowed)]
          cases which with
          | challenge => exact Or.inl ⟨rfl, answeredOnce_challengeRoute p g _ req _ _⟩
          | verify =>
              dsimp only
              by_cases hmethod : req.method = "POST"
              · rw [if_neg (not_not.mpr hmethod)]
                exact Or.inr ⟨rfl, rfl, hmethod, hallowed⟩
              · rw [if_pos hmethod]
                exact Or.inl ⟨rfl, answeredOnce_err p _ _ _ _⟩

/-! ### The system -/

/-- A gate at its mount point, over the replica whose methods it calls. -/
structure Door (secret : Value) where
  gate : Gate
  mount : Mount gate
  replica : Replica secret

/-- The object that `check` is called with. -/
def DecodedProof.toValue (proof : DecodedProof) : Value :=
  .object [("transcript", .binary .uint8Array proof.transcript),
    ("deviceResponse", .binary .uint8Array proof.deviceResponse)]

/-- What a handling waits for. -/
inductive HandlingStage where
  | reading (body : BodyState)
  | checking (proof : DecodedProof)
  | ended

/-- A request at a gate: what has come of it so far, the bytes of the generator, the clock
and the map of the limiter when it came in, and what has been done for it. -/
structure Handling (ι : Type) where
  door : ι
  request : Request
  random : RandomBytes
  arrivedAt : TimeValue
  found : Hits
  wire : Wire
  stage : HandlingStage

/-- The replicas with their store, the limiters of the gates, and the handlings by their
numbers. The check of a handling has its number. -/
structure Serving (ι : Type) (secret : Value) (S : NonceStore) where
  clock : ℤ
  system : System secret S
  hits : ι → Hits
  handlings : ℕ → Option (Handling ι)

/-- A request comes in, something happens to its body, the service replies to its check, or
the spend of the check reaches the store. -/
inductive Incident (ι : Type) where
  | request (handling : ℕ) (door : ι) (req : Request) (random : RandomBytes)
  | body (handling : ℕ) (event : BodyEvent)
  | reply (handling : ℕ) (outcome : Outcome)
  | spend (handling : ℕ)

/-- An incident at its time. -/
structure Traffic (ι : Type) where
  time : TimeValue
  what : Incident ι

variable {ι : Type} {p : Platform} {secret : Value} {S : NonceStore}

/-- What a gate has done for a request at its first `await`. -/
def Handling.entered (p : Platform) (door : Door secret) (x : Handling ι) : Wire × Bool :=
  enter p door.gate door.mount (door.replica.val.issueChallenge p x.random x.arrivedAt)
    x.arrivedAt x.request ⟨x.found, [], []⟩

/-- The handling of a request that comes in. -/
def Handling.start (time : TimeValue) (k : ι) (req : Request) (random : RandomBytes)
    (found : Hits) : Handling ι where
  door := k
  request := { req with body := [] }
  random := random
  arrivedAt := time
  found := found
  wire := ⟨found, [], []⟩
  stage := .ended

/-- The handling at the first `await`. -/
def Handling.begin (p : Platform) (door : Door secret) (x : Handling ι) : Handling ι :=
  { x with
    wire := (x.entered p door).1
    stage := if (x.entered p door).2 then .reading (.reading 0 []) else .ended }

/-- The handling when a stretch of its handler is over and it does not wait any more. -/
def Handling.finish (p : Platform) (x : Handling ι) (stretch : Stretch) : Handling ι :=
  { x with
    wire := (caught p (stretch x.wire)).2
    stage := .ended }

/-- The handling with one more event of its body. -/
def Handling.receive (x : Handling ι) (event : BodyEvent) : Handling ι :=
  { x with request := { x.request with body := x.request.body ++ [event] } }

namespace Serving

/-- The gates before any request. -/
def init (ι : Type) (secret : Value) (S : NonceStore) : Serving ι secret S where
  clock := -maxTime
  system := System.init secret S
  hits := fun _ => .empty
  handlings := fun _ => none

/-- The state at `time`, with `x` for handling `i`. -/
def put (s : Serving ι secret S) (time : ℤ) (i : ℕ) (x : Handling ι) : Serving ι secret S :=
  { s with
    clock := time
    handlings := Function.update s.handlings i (some x) }

theorem handlings_put (s : Serving ι secret S) (time : ℤ) (i : ℕ) (x : Handling ι) (j : ℕ) :
    (s.put time i x).handlings j = if j = i then some x else s.handlings j :=
  Function.update_apply _ _ _ _

/-- A request comes in. -/
def enroll [DecidableEq ι] (p : Platform) (doors : ι → Door secret) (s : Serving ι secret S)
    (time : TimeValue) (i : ℕ) (k : ι) (req : Request) (random : RandomBytes) :
    Serving ι secret S :=
  let x := (Handling.start time k req random (s.hits k)).begin p (doors k)
  { s.put time i x with hits := Function.update s.hits k x.wire.hits }

/-- Something happens to the body of a handling. Nobody listens any more once it is settled. -/
def deliver (p : Platform) (doors : ι → Door secret) (s : Serving ι secret S)
    (time : TimeValue) (i : ℕ) (x : Handling ι) (event : BodyEvent) :
    Option (Serving ι secret S) :=
  match x.stage with
  | .reading body =>
      let body := onBody (doors x.door).gate.maxBodyBytes.val body event
      match afterBody p body with
      | .waits => some (s.put time i { x.receive event with stage := .reading body })
      | .refuses stretch => some (s.put time i ((x.receive event).finish p stretch))
      | .submits proof =>
          (step p s.system ⟨time, .begin i (doors x.door).replica proof.toValue⟩).map fun system =>
            { s.put time i { x.receive event with
                wire := submit proof x.wire
                stage := .checking proof } with
              system }
  | _ => some (s.put time i (x.receive event))

/-- The rest of handling `i`, once its check has ended. -/
def settle (p : Platform) (s : Serving ι secret S) (i : ℕ) : Serving ι secret S :=
  match s.handlings i, s.system.calls i with
  | some x, some c =>
      match c.stage with
      | .resolved _ result =>
          s.put s.clock i (x.finish p (conclude p (result.map Verdict.toValue)))
      | _ => s
  | _, _ => s

end Serving

section Step

variable [DecidableEq ι] {doors : ι → Door secret}

open Serving in
/-- One event. The clock does not go back, a number is used for one handling, and a check takes
its moments in order. -/
def attend (p : Platform) (doors : ι → Door secret) (s : Serving ι secret S) (e : Traffic ι) :
    Option (Serving ι secret S) :=
  if e.time.val < s.clock then none
  else
    match e.what with
    | .request i k req random =>
        match s.handlings i with
        | some _ => none
        | none => some (enroll p doors s e.time i k req random)
    | .body i event =>
        match s.handlings i with
        | some x => deliver p doors s e.time i x event
        | none => none
    | .reply i outcome =>
        (step p s.system ⟨e.time, .reply i outcome⟩).map fun system =>
          settle p { s with clock := e.time, system } i
    | .spend i =>
        (step p s.system ⟨e.time, .arrive i⟩).map fun system =>
          settle p { s with clock := e.time, system } i

/-- What an event can do. -/
inductive Attended (p : Platform) (doors : ι → Door secret) (s : Serving ι secret S)
    (e : Traffic ι) : Serving ι secret S → Prop
  | admitted (i : ℕ) (k : ι) (req : Request) (random : RandomBytes)
      (hwhat : e.what = .request i k req random) (hfree : s.handlings i = none) :
      Attended p doors s e (s.enroll p doors e.time i k req random)
  | unheard (i : ℕ) (event : BodyEvent) (x : Handling ι) (hwhat : e.what = .body i event)
      (hv : s.handlings i = some x) (hstage : ∀ body, x.stage ≠ .reading body) :
      Attended p doors s e (s.put e.time i (x.receive event))
  | gathered (i : ℕ) (event : BodyEvent) (x : Handling ι) (body : BodyState)
      (hwhat : e.what = .body i event) (hv : s.handlings i = some x)
      (hstage : x.stage = .reading body)
      (hwaits : afterBody p (onBody (doors x.door).gate.maxBodyBytes.val body event) = .waits) :
      Attended p doors s e (s.put e.time i { x.receive event with
        stage := .reading (onBody (doors x.door).gate.maxBodyBytes.val body event) })
  | refused (i : ℕ) (event : BodyEvent) (x : Handling ι) (body : BodyState) (stretch : Stretch)
      (hwhat : e.what = .body i event) (hv : s.handlings i = some x)
      (hstage : x.stage = .reading body)
      (hrefuses : afterBody p (onBody (doors x.door).gate.maxBodyBytes.val body event) =
        .refuses stretch) :
      Attended p doors s e (s.put e.time i ((x.receive event).finish p stretch))
  | submitted (i : ℕ) (event : BodyEvent) (x : Handling ι) (body : BodyState)
      (proof : DecodedProof) (system : System secret S) (hwhat : e.what = .body i event)
      (hv : s.handlings i = some x) (hstage : x.stage = .reading body)
      (hsubmits : afterBody p (onBody (doors x.door).gate.maxBodyBytes.val body event) =
        .submits proof)
      (hstep : step p s.system ⟨e.time, .begin i (doors x.door).replica proof.toValue⟩ =
        some system) :
      Attended p doors s e { s.put e.time i { x.receive event with
        wire := submit proof x.wire
        stage := .checking proof } with system }
  | advanced (i : ℕ) (occurrence : Occurrence secret) (system : System secret S)
      (hwhat : (∃ outcome, e.what = .reply i outcome ∧ occurrence = .reply i outcome) ∨
        e.what = .spend i ∧ occurrence = .arrive i)
      (hstep : step p s.system ⟨e.time, occurrence⟩ = some system) :
      Attended p doors s e (Serving.settle p { s with clock := e.time, system } i)

/-- **What each event does.** -/
theorem attend_cases {s s' : Serving ι secret S} {e : Traffic ι}
    (h : attend p doors s e = some s') : s.clock ≤ e.time.val ∧ Attended p doors s e s' := by
  rw [attend] at h
  split at h
  · cases h
  next hclock =>
  refine ⟨not_lt.mp hclock, ?_⟩
  split at h
  · next i k req random hwhat =>
      split at h
      · cases h
      · next hfree =>
          obtain rfl := Option.some.inj h
          exact .admitted i k req random hwhat hfree
  · next i event hwhat =>
      split at h
      swap
      · cases h
      next x hv =>
      rw [Serving.deliver] at h
      split at h
      · next body hstage =>
          dsimp only at h
          split at h
          · next hwaits =>
              obtain rfl := Option.some.inj h
              exact .gathered i event x body hwhat hv hstage hwaits
          · next stretch hrefuses =>
              obtain rfl := Option.some.inj h
              exact .refused i event x body stretch hwhat hv hstage hrefuses
          · next proof hsubmits =>
              obtain ⟨system, hstep, rfl⟩ := Option.map_eq_some_iff.mp h
              exact .submitted i event x body proof system hwhat hv hstage hsubmits hstep
      · next hstage =>
          obtain rfl := Option.some.inj h
          exact .unheard i event x hwhat hv hstage
  · next i outcome hwhat =>
      obtain ⟨system, hstep, rfl⟩ := Option.map_eq_some_iff.mp h
      exact .advanced i _ system (Or.inl ⟨outcome, hwhat, rfl⟩) hstep
  · next i hwhat =>
      obtain ⟨system, hstep, rfl⟩ := Option.map_eq_some_iff.mp h
      exact .advanced i _ system (Or.inr ⟨hwhat, rfl⟩) hstep

end Step

/-! ### Where a handling stands -/

variable {doors : ι → Door secret}

/-- The promise of `readBody` for a handling. -/
def Handling.body (door : Door secret) (x : Handling ι) : BodyState :=
  readBody door.gate.maxBodyBytes.val x.request.body

/-- The call is a check of the proof on the replica of the gate, made after the handling came
in. -/
structure Checks (door : Door secret) (x : Handling ι) (proof : DecodedProof) (c : Call secret) :
    Prop where
  replica : c.replica = door.replica
  proof : c.proof = proof.toValue
  later : x.arrivedAt.val ≤ c.readAt.val

/-- **Where a handling stands**, by what has come of its request and where its check is. -/
inductive Stands (p : Platform) (door : Door secret) (call : Option (Call secret))
    (x : Handling ι) : Prop
  | atOnce (hcall : call = none) (hstage : x.stage = .ended)
      (hentered : x.entered p door = (x.wire, false))
  | reading (hcall : call = none) (hstage : x.stage = .reading (x.body door))
      (hentered : x.entered p door = (x.wire, true))
      (hwaits : afterBody p (x.body door) = .waits)
  | refused (w : Wire) (stretch : Stretch) (hcall : call = none) (hstage : x.stage = .ended)
      (hentered : x.entered p door = (w, true))
      (hrefuses : afterBody p (x.body door) = .refuses stretch)
      (hwire : x.wire = (caught p (stretch w)).2)
  | checking (w : Wire) (proof : DecodedProof) (c : Call secret) (hcall : call = some c)
      (hchecks : Checks door x proof c) (hopen : ∀ raw result, c.stage ≠ .resolved raw result)
      (hstage : x.stage = .checking proof) (hentered : x.entered p door = (w, true))
      (hsubmits : afterBody p (x.body door) = .submits proof) (hwire : x.wire = submit proof w)
  | concluded (w : Wire) (proof : DecodedProof) (c : Call secret) (raw : Value)
      (result : Completion Verdict) (hcall : call = some c) (hchecks : Checks door x proof c)
      (hresolved : c.stage = .resolved raw result) (hstage : x.stage = .ended)
      (hentered : x.entered p door = (w, true))
      (hsubmits : afterBody p (x.body door) = .submits proof)
      (hwire : x.wire =
        (caught p (conclude p (result.map Verdict.toValue) (submit proof w))).2)

/-- The handlings, the checks and the clocks of a state agree. -/
structure Serving.Consistent (p : Platform) (doors : ι → Door secret)
    (s : Serving ι secret S) : Prop where
  clock : s.system.clock ≤ s.clock
  arrived : ∀ i x, s.handlings i = some x → x.arrivedAt.val ≤ s.clock
  stands : ∀ i x, s.handlings i = some x → Stands p (doors x.door) (s.system.calls i) x
  uncalled : ∀ i, s.handlings i = none → s.system.calls i = none
  run : ∃ events, exec (step p) (System.init secret S) events = some s.system

theorem serving_init : Serving.Consistent p doors (Serving.init ι secret S) where
  clock := le_rfl
  arrived _ _ h := by cases h
  stands _ _ h := by cases h
  uncalled _ _ := rfl
  run := ⟨[], rfl⟩

/-- One more event of the body. -/
theorem Handling.body_receive (door : Door secret) (x : Handling ι) (event : BodyEvent) :
    (x.receive event).body door = onBody door.gate.maxBodyBytes.val (x.body door) event := by
  rw [Handling.body, Handling.receive, readBody, List.foldl_append]
  rfl

/-- An event behind the end of the body changes nothing. -/
theorem Handling.body_receive_of_settled {door : Door secret} {x : Handling ι}
    (h : (x.body door).settled = true) (event : BodyEvent) :
    (x.receive event).body door = x.body door := by
  rw [Handling.body_receive]
  exact foldl_onBody_of_settled _ h [event]

/-- An event that nobody listens to leaves a handling where it stands. -/
theorem Stands.receive {door : Door secret} {call : Option (Call secret)} {x : Handling ι}
    (h : Stands p door call x) (hstage : ∀ body, x.stage ≠ .reading body) (event : BodyEvent) :
    Stands p door call (x.receive event) := by
  have hsame (houtcome : afterBody p (x.body door) ≠ .waits) :
      (x.receive event).body door = x.body door := by
    refine Handling.body_receive_of_settled ?_ event
    rw [← Bool.not_eq_false]
    exact fun hreading => houtcome (afterBody_eq_waits_iff.mpr hreading)
  cases h with
  | atOnce hcall hended hentered => exact .atOnce hcall hended hentered
  | reading hcall hreading hentered hwaits => exact absurd hreading (hstage _)
  | refused w stretch hcall hended hentered hrefuses hwire =>
      refine .refused w stretch hcall hended hentered ?_ hwire
      rwa [hsame (by simp [hrefuses])]
  | checking w proof c hcall hchecks hopen hchecking hentered hsubmits hwire =>
      refine .checking w proof c hcall ⟨hchecks.1, hchecks.2, hchecks.3⟩ hopen hchecking
        hentered ?_ hwire
      rwa [hsame (by simp [hsubmits])]
  | concluded w proof c raw result hcall hchecks hresolved hended hentered hsubmits hwire =>
      refine .concluded w proof c raw result hcall ⟨hchecks.1, hchecks.2, hchecks.3⟩ hresolved
        hended hentered ?_ hwire
      rwa [hsame (by simp [hsubmits])]

/-- Where a handling stands that waits for its body. -/
theorem Stands.of_reading {door : Door secret} {call : Option (Call secret)} {x : Handling ι}
    {body : BodyState} (h : Stands p door call x) (hstage : x.stage = .reading body) :
    call = none ∧ body = x.body door ∧ x.entered p door = (x.wire, true) := by
  cases h with
  | reading hcall hreading hentered hwaits =>
      exact ⟨hcall, HandlingStage.reading.inj (hstage.symm.trans hreading), hentered⟩
  | atOnce _ hended _ => cases hstage.symm.trans hended
  | refused _ _ _ hended _ _ _ => cases hstage.symm.trans hended
  | checking _ _ _ _ _ _ hchecking _ _ _ => cases hstage.symm.trans hchecking
  | concluded _ _ _ _ _ _ _ _ hended _ _ _ => cases hstage.symm.trans hended

/-- Where a handling stands whose check has begun. -/
theorem Stands.of_call {door : Door secret} {c : Call secret} {x : Handling ι}
    (h : Stands p door (some c) x) : ∃ w proof, Checks door x proof c ∧
      x.entered p door = (w, true) ∧ afterBody p (x.body door) = .submits proof ∧
      ((∀ raw result, c.stage ≠ .resolved raw result) ∧ x.stage = .checking proof ∧
          x.wire = submit proof w ∨
        ∃ raw result, c.stage = .resolved raw result ∧ x.stage = .ended ∧
          x.wire = (caught p (conclude p (result.map Verdict.toValue) (submit proof w))).2) := by
  cases h with
  | checking w proof c' hcall hchecks hopen hchecking hentered hsubmits hwire =>
      obtain rfl := Option.some.inj hcall
      exact ⟨w, proof, hchecks, hentered, hsubmits, Or.inl ⟨hopen, hchecking, hwire⟩⟩
  | concluded w proof c' raw result hcall hchecks hresolved hended hentered hsubmits hwire =>
      obtain rfl := Option.some.inj hcall
      exact ⟨w, proof, hchecks, hentered, hsubmits,
        Or.inr ⟨raw, result, hresolved, hended, hwire⟩⟩
  | atOnce hcall _ _ => cases hcall
  | reading hcall _ _ _ => cases hcall
  | refused _ _ hcall _ _ _ _ => cases hcall

/-- A reply or an arrival moves one check on, which had not ended. -/
theorem step_advances {s s' : System secret S} {e : Event secret} (hstep : step p s e = some s')
    (hbegun : ∀ i replica proof, e.what ≠ .begin i replica proof) :
    ∃ c c', s.calls e.what.call = some c ∧ (∀ raw result, c.stage ≠ .resolved raw result) ∧
      s'.calls e.what.call = some c' ∧ c'.replica = c.replica ∧ c'.proof = c.proof ∧
      c'.readAt = c.readAt ∧ (∀ j, j ≠ e.what.call → s'.calls j = s.calls j) ∧
      s'.clock = e.time.val := by
  obtain ⟨-, ⟨i, replica, proof, hwhat, -⟩ | ⟨i, outcome, c, hwhat, hc, hstage, rfl⟩ |
    ⟨i, c, raw, verdict, request, hwhat, hc, hstage, rfl⟩⟩ := step_cases hstep
  · exact absurd hwhat (hbegun i replica proof)
  · rw [hwhat]
    refine ⟨c, c.replied p outcome.toValue, hc, by simp [hstage], ?_, rfl, rfl, rfl, ?_, rfl⟩
    · exact (System.calls_put _ _ _ _ _).trans (if_pos rfl)
    · exact fun j hj => (System.calls_put _ _ _ _ _).trans (if_neg hj)
  · rw [hwhat]
    refine ⟨c, c.answered raw verdict (S.spend s.store ⟨request, e.time.val⟩).1, hc,
      by simp [hstage], ?_, rfl, rfl, rfl, ?_, rfl⟩
    · exact (System.calls_arrive _ _ _ _ _ _ _ _).trans (if_pos rfl)
    · exact fun j hj => (System.calls_arrive _ _ _ _ _ _ _ _).trans (if_neg hj)

namespace Serving

/-- The handlings other than `i` stand where they stood. -/
theorem Consistent.put {s : Serving ι secret S} (h : s.Consistent p doors) {time : ℤ}
    (htime : s.clock ≤ time) {i : ℕ} {x : Handling ι} {system : System secret S}
    {hits : ι → Hits} (hclock : system.clock ≤ time) (hv : x.arrivedAt.val ≤ time)
    (hcalls : ∀ j, j ≠ i → system.calls j = s.system.calls j)
    (hstands : Stands p (doors x.door) (system.calls i) x)
    (hrun : ∃ events, exec (step p) (System.init secret S) events = some system) :
    Consistent p doors { s.put time i x with system, hits } where
  clock := hclock
  arrived j u hu := by
    have hu : (s.put time i x).handlings j = some u := hu
    rw [handlings_put] at hu
    split at hu
    · rwa [← Option.some.inj hu]
    · exact (h.arrived j u hu).trans htime
  stands j u hu := by
    have hu : (s.put time i x).handlings j = some u := hu
    rw [handlings_put] at hu
    split at hu
    · next hj =>
        obtain rfl := Option.some.inj hu
        rwa [hj]
    · next hj =>
        have hold := h.stands j u hu
        rwa [← hcalls j hj] at hold
  uncalled j hu := by
    have hu : (s.put time i x).handlings j = none := hu
    rw [handlings_put] at hu
    split at hu
    · cases hu
    · next hj => exact (hcalls j hj).trans (h.uncalled j hu)
  run := hrun

/-- A request that comes in has ended at once, or waits for its body. -/
theorem stands_begin (p : Platform) (door : Door secret) (time : TimeValue) (k : ι)
    (req : Request) (random : RandomBytes) (found : Hits) :
    Stands p door none ((Handling.start time k req random found).begin p door) := by
  cases hwaits : ((Handling.start time k req random found).entered p door).2 with
  | false =>
      refine .atOnce rfl ?_ (Prod.ext rfl hwaits)
      rw [Handling.begin, hwaits]
      rfl
  | true =>
      refine .reading rfl ?_ (Prod.ext rfl hwaits) rfl
      rw [Handling.begin, hwaits]
      rfl

/-- A request that comes in keeps the invariant. -/
theorem Consistent.enroll [DecidableEq ι] {s : Serving ι secret S} (h : s.Consistent p doors)
    {time : TimeValue} (htime : s.clock ≤ time.val) {i : ℕ} (hfree : s.handlings i = none) (k : ι)
    (req : Request) (random : RandomBytes) :
    (s.enroll p doors time i k req random).Consistent p doors := by
  refine h.put htime (h.clock.trans htime) le_rfl (fun _ _ => rfl) ?_ h.run
  show Stands p (doors k) (s.system.calls i) _
  rw [h.uncalled i hfree]
  exact stands_begin p (doors k) time k req random (s.hits k)

/-- What settles a check, settles its handling. -/
theorem Consistent.settle {s : Serving ι secret S} (h : s.Consistent p doors)
    {time : TimeValue} (htime : s.clock ≤ time.val) {i : ℕ} {occurrence : Occurrence secret}
    {system : System secret S} (hcall : occurrence.call = i)
    (hbegun : ∀ i replica proof, occurrence ≠ .begin i replica proof)
    (hstep : step p s.system ⟨time, occurrence⟩ = some system) :
    (Serving.settle p { s with clock := time, system } i).Consistent p doors := by
  obtain ⟨c, c', hc, hopen, hc', hreplica, hproof, hread, hothers, hclock⟩ :=
    step_advances hstep hbegun
  dsimp only at hc hc' hothers hclock
  rw [hcall] at hc hc' hothers
  have hrun : ∃ events, exec (step p) (System.init secret S) events = some system := by
    obtain ⟨events, hevents⟩ := h.run
    exact ⟨events ++ [⟨time, occurrence⟩], exec_append_eq_some_iff.mpr
      ⟨s.system, hevents, exec_cons_eq_some_iff.mpr ⟨system, hstep, rfl⟩⟩⟩
  cases hv : s.handlings i with
  | none => cases (h.uncalled i hv).symm.trans hc
  | some x =>
      have hstands := h.stands i x hv
      rw [hc] at hstands
      obtain ⟨w, proof, hchecks, hentered, hsubmits, ⟨-, hchecking, hwire⟩ |
        ⟨raw, result, hresolved, -⟩⟩ := hstands.of_call
      swap
      · exact absurd hresolved (hopen raw result)
      have hchecks' : Checks (doors x.door) x proof c' :=
        ⟨hreplica.trans hchecks.replica, hproof.trans hchecks.proof, hread ▸ hchecks.later⟩
      have harrived := (h.arrived i x hv).trans htime
      rw [Serving.settle]
      simp only [hv, hc']
      split
      · next raw result hresolved =>
          refine h.put htime hclock.le harrived hothers ?_ hrun
          rw [hc']
          refine .concluded w proof c' raw result rfl ⟨hchecks'.1, hchecks'.2, hchecks'.3⟩
            hresolved rfl hentered hsubmits ?_
          rw [Handling.finish, hwire]
      · next hunresolved =>
          have hput : ({ s with clock := time, system } : Serving ι secret S) =
              { s.put time i x with system, hits := s.hits } := by
            rw [Serving.put, ← hv, Function.update_eq_self]
          rw [hput]
          refine h.put htime hclock.le harrived hothers ?_ hrun
          rw [hc']
          exact .checking w proof c' rfl hchecks' hunresolved hchecking hentered hsubmits hwire

/-- **The invariant is kept by every event.** -/
theorem Consistent.attend [DecidableEq ι] {s s' : Serving ι secret S} {e : Traffic ι}
    (h : s.Consistent p doors) (hattend : EightEen.attend p doors s e = some s') :
    s'.Consistent p doors := by
  obtain ⟨htime, hattended⟩ := attend_cases hattend
  cases hattended with
  | admitted i k req random hwhat hfree => exact h.enroll htime hfree k req random
  | unheard i event x hwhat hv hstage =>
      exact h.put htime (h.clock.trans htime) ((h.arrived i x hv).trans htime) (fun _ _ => rfl)
        ((h.stands i x hv).receive hstage event) h.run
  | gathered i event x body hwhat hv hstage hwaits =>
      obtain ⟨hcall, rfl, hentered⟩ := (h.stands i x hv).of_reading hstage
      refine h.put htime (h.clock.trans htime) ((h.arrived i x hv).trans htime) (fun _ _ => rfl)
        (.reading hcall ?_ hentered ?_) h.run
      · exact congrArg HandlingStage.reading (Handling.body_receive (doors x.door) x event).symm
      · rwa [← Handling.body_receive] at hwaits
  | refused i event x body stretch hwhat hv hstage hrefuses =>
      obtain ⟨hcall, rfl, hentered⟩ := (h.stands i x hv).of_reading hstage
      refine h.put htime (h.clock.trans htime) ((h.arrived i x hv).trans htime) (fun _ _ => rfl)
        (.refused x.wire stretch hcall rfl hentered ?_ rfl) h.run
      rwa [← Handling.body_receive] at hrefuses
  | submitted i event x body proof system hwhat hv hstage hsubmits hstep =>
      obtain ⟨hcall, rfl, hentered⟩ := (h.stands i x hv).of_reading hstage
      have harrived := (h.arrived i x hv).trans htime
      obtain ⟨events, hevents⟩ := h.run
      obtain ⟨-, ⟨j, replica, q, hbegin, -, rfl⟩ | ⟨j, outcome, c, hreply, -⟩ |
        ⟨j, c, raw, verdict, request, harrive, -⟩⟩ := step_cases hstep
      · cases hbegin
        refine h.put htime le_rfl harrived ?_ ?_ ⟨events ++ [_], exec_append_eq_some_iff.mpr
          ⟨s.system, hevents, exec_cons_eq_some_iff.mpr ⟨_, hstep, rfl⟩⟩⟩
        · exact fun j hj => (System.calls_put _ _ _ _ _).trans (if_neg hj)
        · rw [System.calls_put, if_pos rfl]
          refine .checking x.wire proof _ rfl ⟨rfl, rfl, harrived⟩ (by simp) rfl hentered ?_ rfl
          rwa [← Handling.body_receive] at hsubmits
      · cases hreply
      · cases harrive
  | advanced i occurrence system hwhat hstep =>
      rcases hwhat with ⟨outcome, -, rfl⟩ | ⟨-, rfl⟩
      · exact h.settle htime rfl (by simp) hstep
      · exact h.settle htime rfl (by simp) hstep

end Serving

/-- **The invariant holds in every reachable state.** -/
theorem serving_of_run [DecidableEq ι] {s : Serving ι secret S} {events : List (Traffic ι)}
    (hrun : exec (attend p doors) (Serving.init ι secret S) events = some s) :
    s.Consistent p doors :=
  exec_invariant (fun _ _ _ h hattend => h.attend hattend) hrun serving_init

/-- Only a request that comes in takes a number. -/
theorem handlings_of_attend [DecidableEq ι] {s s' : Serving ι secret S} {e : Traffic ι}
    (h : attend p doors s e = some s') {i : ℕ} (hfree : s.handlings i = none)
    (hno : ∀ k req random, e.what ≠ .request i k req random) : s'.handlings i = none := by
  have hput {j : ℕ} {x : Handling ι} (hij : i ≠ j) :
      Function.update s.handlings j (some x) i = none :=
    (Function.update_of_ne hij _ _).trans hfree
  have hne {j : ℕ} {x : Handling ι} (hx : s.handlings j = some x) : i ≠ j := by
    rintro rfl
    cases hfree.symm.trans hx
  cases (attend_cases h).2 with
  | admitted j k req random hwhat _ =>
      refine hput ?_
      rintro rfl
      exact hno k req random hwhat
  | unheard j event x _ hx _ => exact hput (hne hx)
  | gathered j event x body _ hx _ _ => exact hput (hne hx)
  | refused j event x body stretch _ hx _ _ => exact hput (hne hx)
  | submitted j event x body proof system _ hx _ _ _ => exact hput (hne hx)
  | advanced j occurrence system _ _ =>
      rw [Serving.settle]
      split
      · next x c hx hc =>
          split
          · exact hput (hne hx)
          · exact hfree
      · exact hfree

/-- A number that no request has is not taken. -/
theorem handlings_of_run [DecidableEq ι] {s : Serving ι secret S} {events : List (Traffic ι)}
    (hrun : exec (attend p doors) (Serving.init ι secret S) events = some s) {i : ℕ}
    (hno : ∀ e ∈ events, ∀ k req random, e.what ≠ .request i k req random) :
    s.handlings i = none :=
  exec_invariant_of_meets (fun _ _ _ hfree hno h => handlings_of_attend h hfree hno) hrun
    (meets_of_forall fun e he _ => hno e he) rfl

/-! ### A run to evaluate with -/

/-- The text of the sample transcript. -/
def sampleTranscriptText : String :=
  String.ofList (base64Url sampleTranscript)

/-- The body of a visitor who brings back the sample challenge. -/
def sampleBrought : List UInt8 :=
  ("\x7b\"transcript\":\"" ++ sampleTranscriptText ++
    "\",\"deviceResponse\":\"9A==\"\x7d").toList.flatMap String.utf8EncodeChar

/-- A platform that reads this body and its texts. -/
def servingPlatform : Platform :=
  { Platform.sample with
    base64Decode := fun s =>
      if s = sampleTranscriptText then sampleTranscript else Platform.sample.base64Decode s
    base64Decode_empty := by decide +kernel
    urlPathname := fun url => some url
    jsonParse := fun _ => some (.object [("transcript", .string sampleTranscriptText),
      ("deviceResponse", .string "9A==")]) }

/-- The gate of the worked examples, without a limiter. -/
def sampleDoor : Door sampleSecret where
  gate := { sampleGate with rateLimit := none }
  mount := ⟨"/8een", rfl⟩
  replica := sampleReplica

/-- The bytes that the sample challenge begins with. -/
def sampleRandom : RandomBytes :=
  ⟨samplePayload.take 16, rfl⟩

/-- A request for a challenge. -/
def sampleGet : Request where
  url := some "/8een/challenge"
  method := "GET"
  forwardedFor := .undefined
  remoteAddress := some "127.0.0.1"
  body := []

/-- A visitor fetches the sample challenge and brings it back. -/
def sampleTraffic : List (Traffic Unit) :=
  [⟨sampleTime 0, .request 0 () sampleGet sampleRandom⟩,
    ⟨sampleTime 100, .request 1 () samplePost sampleRandom⟩,
    ⟨sampleTime 200, .body 1 (.data sampleBrought)⟩,
    ⟨sampleTime 300, .body 1 .ended⟩,
    ⟨sampleTime 900, .reply 1 sampleReply⟩]

end EightEen
