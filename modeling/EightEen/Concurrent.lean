import EightEen.Serving

/-!
# Each Request as if Alone

What a visitor gets from gates that serve everybody at once. A request is answered by
`handler` over `check`, as if nothing else went on: all that the others can do to it has
passed through the map of the limiter it found and the answer that the store gave to its
own spend.

## Main results

* `handled_as_alone`: the interleaved gates refine the uninterrupted handler over the
  uninterrupted check.
* `one_let_in`: one visitor is let in for a challenge, and nobody is called a replay before.
* `challenge_admits_its_visitor`: a visitor who brings back the text of a challenge in time
  is let in, whatever the others do.
-/

open Js Transition

namespace EightEen

variable {ι : Type} {p : Platform} {secret : Value} {S : NonceStore} {doors : ι → Door secret}

/-! ### One request -/

/-- The methods of a replica: `check` reads the clock at `readAt`, the service replies with
`raw`, and the store answers `fresh`. -/
def Door.methods (p : Platform) (door : Door secret) (random : RandomBytes)
    (now readAt : TimeValue) (raw : Value) (fresh : Bool) : VerifierMethods where
  issueChallenge := door.replica.val.issueChallenge p random now
  check proof := (door.replica.val.check p readAt proof.toValue raw
    fun _ => .ok (.boolean fresh)).1.map Verdict.toValue

/-- A check that has ended is the uninterrupted one, over the answer that its spend got. -/
theorem Consistent.check_eq {s : System secret S} (h : Consistent p s) {i : ℕ}
    {c : Call secret} {raw : Value} {result : Completion Verdict} (hc : s.calls i = some c)
    (hresolved : c.stage = .resolved raw result) :
    ∃ fresh, result = (c.replica.val.check p c.readAt c.proof raw
        fun _ => .ok (.boolean fresh)).1 ∧ ∀ a ∈ s.arrivals, a.call = i → a.fresh = fresh := by
  have harrived {a : Arrival} (ha : a ∈ s.arrivals) (hcall : a.call = i) :
      ∃ verdict, c.afterReply p raw = .spending verdict a.request ∧
        result = endSingleUse verdict (.ok (.boolean a.fresh)) := by
    obtain ⟨c', raw', verdict, hc', hafter, hstage⟩ := h.arrived a ha
    rw [hcall] at hc'
    obtain rfl := Option.some.inj (hc.symm.trans hc')
    obtain ⟨rfl, hresult⟩ := CallStage.resolved.inj (hresolved.symm.trans hstage)
    exact ⟨verdict, hafter, hresult⟩
  rcases h.resolved i c raw result hc hresolved with hsettled | ⟨a, ha, hcall⟩
  · refine ⟨true, ?_, fun a ha hcall => ?_⟩
    · have hafter : c.replica.val.afterReply p c.readAt c.proof raw = .settled result := hsettled
      rw [Verifier.check, hafter]
      rfl
    · obtain ⟨verdict, hspending, -⟩ := harrived ha hcall
      cases hsettled.symm.trans hspending
  · obtain ⟨verdict, hspending, hresult⟩ := harrived ha hcall
    refine ⟨a.fresh, ?_, fun b hb hbcall => ?_⟩
    · have hafter : c.replica.val.afterReply p c.readAt c.proof raw =
          .spending verdict a.request := hspending
      rw [Verifier.check, hafter]
      exact hresult
    · rw [List.inj_on_of_nodup_map h.nodup hb ha (hbcall.trans hcall.symm)]

/-- A request that has been handled to its end has been handled by `handler`. -/
theorem Stands.wire_eq {door : Door secret} {call : Option (Call secret)} {x : Handling ι}
    (h : Stands p door call x) (hended : x.stage = .ended) {verifier : VerifierMethods}
    (hissue : verifier.issueChallenge = door.replica.val.issueChallenge p x.random x.arrivedAt)
    (hcheck : ∀ c proof raw result, call = some c → Checks door x proof c →
      c.stage = .resolved raw result → verifier.check proof = result.map Verdict.toValue) :
    x.wire = handler p door.gate door.mount verifier x.arrivedAt x.request x.found := by
  have hhandler {w : Wire} {waits : Bool} (hentered : x.entered p door = (w, waits)) :
      enter p door.gate door.mount verifier.issueChallenge x.arrivedAt x.request
        ⟨x.found, [], []⟩ = (w, waits) := by
    rw [hissue]
    exact hentered
  rw [handler_eq_enter]
  cases h with
  | atOnce hcall _ hentered => rw [hhandler hentered]
  | reading _ hreading _ _ => cases hended.symm.trans hreading
  | refused w stretch hcall _ hentered hrefuses hwire =>
      rw [hhandler hentered, hwire]
      dsimp only
      rw [← Handling.body, hrefuses, resume]
  | checking _ _ _ _ _ _ hchecking _ _ _ => cases hended.symm.trans hchecking
  | concluded w proof c raw result hcall hchecks hresolved _ hentered hsubmits hwire =>
      rw [hhandler hentered, hwire]
      dsimp only
      rw [← Handling.body, hsubmits, resume, hcheck c proof raw result hcall hchecks hresolved]

/-- Its check, if there was one, has ended. -/
theorem Stands.of_ended {door : Door secret} {call : Option (Call secret)} {x : Handling ι}
    (h : Stands p door call x) (hended : x.stage = .ended) :
    call = none ∨ ∃ c proof raw result, call = some c ∧ Checks door x proof c ∧
      c.stage = .resolved raw result := by
  cases h with
  | atOnce hcall _ _ => exact Or.inl hcall
  | reading hcall _ _ _ => exact Or.inl hcall
  | refused _ _ hcall _ _ _ _ => exact Or.inl hcall
  | checking _ _ _ _ _ _ hchecking _ _ _ => cases hended.symm.trans hchecking
  | concluded _ proof c raw result hcall hchecks hresolved _ _ _ _ =>
      exact Or.inr ⟨c, proof, raw, result, hcall, hchecks, hresolved⟩

/-- It has been answered once. -/
theorem Stands.answeredOnce {door : Door secret} {call : Option (Call secret)} {x : Handling ι}
    (h : Stands p door call x) (hended : x.stage = .ended) {verifier : VerifierMethods}
    (hwire : x.wire = handler p door.gate door.mount verifier x.arrivedAt x.request x.found) :
    x.wire.responses.length = 1 := by
  have hexit : Exit p door.gate door.mount verifier x.arrivedAt x.request x.found x.wire := by
    rw [hwire]
    exact handler_exit
  have hsettled (hwaiting : (readBody door.gate.maxBodyBytes.val x.request.body).settled = false) :
      x.wire.responses.length = 1 := by
    have hwaits := afterBody_eq_waits_iff (p := p).mpr hwaiting
    cases h with
    | atOnce _ _ hentered =>
        rcases enter_cases p door.gate door.mount
          (door.replica.val.issueChallenge p x.random x.arrivedAt) x.arrivedAt x.request
          x.found with ⟨-, hone, -⟩ | ⟨heq, -⟩
        · rw [← Handling.entered, hentered] at hone
          exact hone
        · rw [← Handling.entered, hentered] at heq
          cases congrArg Prod.snd heq
    | reading _ hreading _ _ => cases hended.symm.trans hreading
    | refused _ _ _ _ _ hrefuses _ => cases hwaits.symm.trans hrefuses
    | checking _ _ _ _ _ _ hchecking _ _ _ => cases hended.symm.trans hchecking
    | concluded _ _ _ _ _ _ _ _ _ _ hsubmits _ => cases hwaits.symm.trans hsubmits
  generalize x.wire = w at hexit hsettled
  cases hexit with
  | refused reason hbody => rfl
  | issued c hroute hissue hbody => rfl
  | answered proof verdict heligible hcheck hbody => rfl
  | failed proof heligible hcheck hbody => rfl
  | waiting hwaiting => exact hsettled hwaiting

/-- **Each request is handled as if alone.** In every interleaving, a request that has been
handled to its end has one response, and has done what the uninterrupted handler does over
the uninterrupted check: with the map of the limiter that it found, the reply that the
service gave to its own check, and the answer that the store gave to its own spend. -/
theorem handled_as_alone [DecidableEq ι] {s : Serving ι secret S} {events : List (Traffic ι)}
    (hrun : exec (attend p doors) (Serving.init ι secret S) events = some s) {i : ℕ}
    {x : Handling ι} (hx : s.handlings i = some x) (hended : x.stage = .ended) :
    x.wire.responses.length = 1 ∧ ∃ readAt raw fresh,
      x.wire = handler p (doors x.door).gate (doors x.door).mount
        ((doors x.door).methods p x.random x.arrivedAt readAt raw fresh)
        x.arrivedAt x.request x.found ∧
      (∀ c, s.system.calls i = some c →
        c.readAt = readAt ∧ x.arrivedAt.val ≤ readAt.val ∧ c.reply? = some raw) ∧
      ∀ a ∈ s.system.arrivals, a.call = i → a.fresh = fresh := by
  have h := serving_of_run hrun
  obtain ⟨calls, hcalls⟩ := h.run
  have hsystem := consistent_of_run hcalls
  have hstands := h.stands i x hx
  have hissue (readAt : TimeValue) (raw : Value) (fresh : Bool) :
      ((doors x.door).methods p x.random x.arrivedAt readAt raw fresh).issueChallenge =
        (doors x.door).replica.val.issueChallenge p x.random x.arrivedAt := rfl
  rcases hstands.of_ended hended with hnone | ⟨c, proof, raw, result, hc, hchecks, hresolved⟩
  · -- Nothing has been checked, and any reply and any answer will do.
    have hwire := hstands.wire_eq hended (hissue x.arrivedAt .undefined true) (by simp [hnone])
    refine ⟨hstands.answeredOnce hended hwire, _, _, _, hwire, by simp [hnone], ?_⟩
    intro a ha hi
    obtain ⟨c, raw, verdict, hc, -⟩ := hsystem.arrived a ha
    cases (hi ▸ hc).symm.trans hnone
  · obtain ⟨fresh, hresult, hlog⟩ := hsystem.check_eq hc hresolved
    have hwire := hstands.wire_eq hended (hissue c.readAt raw fresh) (by
      intro c' proof' raw' result' hc' hchecks' hresolved'
      obtain rfl := Option.some.inj (hc.symm.trans hc')
      obtain ⟨-, rfl⟩ := CallStage.resolved.inj (hresolved.symm.trans hresolved')
      rw [hresult, hchecks'.replica, hchecks'.proof]
      rfl)
    refine ⟨hstands.answeredOnce hended hwire, _, _, _, hwire, ?_, hlog⟩
    intro c' hc'
    obtain rfl := Option.some.inj (hc.symm.trans hc')
    exact ⟨rfl, hchecks.later, by rw [Call.reply?, hresolved]⟩

/-- Two visitors bring back one challenge, and their requests overlap at every stage. -/
def rivalTraffic : List (Traffic Unit) :=
  [⟨sampleTime 0, .request 0 () sampleGet sampleRandom⟩,
    ⟨sampleTime 100, .request 1 () samplePost sampleRandom⟩,
    ⟨sampleTime 110, .request 2 () samplePost sampleRandom⟩,
    ⟨sampleTime 200, .body 1 (.data sampleBrought)⟩,
    ⟨sampleTime 210, .body 2 (.data sampleBrought)⟩,
    ⟨sampleTime 300, .body 1 .ended⟩,
    ⟨sampleTime 310, .body 2 .ended⟩,
    ⟨sampleTime 900, .reply 2 sampleReply⟩,
    ⟨sampleTime 910, .reply 1 sampleReply⟩,
    ⟨sampleTime 950, .spend 1⟩,
    ⟨sampleTime 960, .spend 2⟩]

set_option maxRecDepth 20000 in
/-- Both visitors of this run have been handled as if alone, although neither was alone
between its first chunk and its answer. -/
theorem handled_as_alone_rivalTraffic :
    ∃ s, exec (attend servingPlatform fun _ => sampleDoor)
        (Serving.init Unit sampleSecret inMemoryNonceStore) rivalTraffic = some s ∧
      ∀ i ∈ [1, 2], ∃ x, s.handlings i = some x ∧ x.stage = .ended ∧
        x.wire.responses.length = 1 ∧ ∃ readAt raw fresh,
          x.wire = handler servingPlatform sampleDoor.gate sampleDoor.mount
            (sampleDoor.methods servingPlatform x.random x.arrivedAt readAt raw fresh)
            x.arrivedAt x.request x.found ∧
          (∀ c, s.system.calls i = some c →
            c.readAt = readAt ∧ x.arrivedAt.val ≤ readAt.val ∧ c.reply? = some raw) ∧
          ∀ a ∈ s.system.arrivals, a.call = i → a.fresh = fresh := by
  obtain ⟨s, x, y, hs, hx, hy, hxended, hyended⟩ : ∃ s x y,
      exec (attend servingPlatform fun _ => sampleDoor)
        (Serving.init Unit sampleSecret inMemoryNonceStore) rivalTraffic = some s ∧
      s.handlings 1 = some x ∧ s.handlings 2 = some y ∧ x.stage = .ended ∧ y.stage = .ended :=
    ⟨_, _, _, rfl, rfl, rfl, rfl, rfl⟩
  refine ⟨s, hs, fun i hi => ?_⟩
  rcases List.mem_pair.mp hi with rfl | rfl
  · exact ⟨x, hx, hxended, handled_as_alone hs hx hxended⟩
  · exact ⟨y, hy, hyended, handled_as_alone hs hy hyended⟩

/-! ### One challenge -/

/-- What follows the check calls nothing more. -/
theorem checks_conclude (p : Platform) (result : Completion Value) (w : Wire) :
    (caught p (conclude p result w)).2.checks = w.checks := by
  obtain ⟨body, -, herr⟩ := err_eq p 500 .internalError false
  cases result with
  | error e => rw [conclude, caught, herr]
  | ok verdict =>
      rw [conclude]
      dsimp only
      by_cases hnullish : verdict.nullish = true
      · rw [if_pos hnullish, caught, herr]
      · rw [if_neg hnullish, send]
        split
        · rfl
        · rw [caught, herr]

/-- A request that waits for its body has neither been answered nor checked. -/
theorem Handling.entered_eq {door : Door secret} {x : Handling ι} {w : Wire}
    (h : x.entered p door = (w, true)) : w.responses = [] ∧ w.checks = [] := by
  rcases enter_cases p door.gate door.mount
    (door.replica.val.issueChallenge p x.random x.arrivedAt) x.arrivedAt x.request x.found with
    ⟨hno, -⟩ | ⟨heq, -⟩
  · rw [← Handling.entered, h] at hno
    cases hno
  · rw [← Handling.entered, h] at heq
    rw [(Prod.mk.inj heq).1]
    exact ⟨rfl, rfl⟩

/-- The check of a request is the check of the one proof that it has submitted. -/
theorem Stands.checks_eq {door : Door secret} {c : Call secret} {x : Handling ι}
    (h : Stands p door (some c) x) : ∃ proof, Checks door x proof c ∧ x.wire.checks = [proof] := by
  obtain ⟨w, proof, hchecks, hentered, -, ⟨-, -, hwire⟩ | ⟨raw, result, -, -, hwire⟩⟩ := h.of_call
  · exact ⟨proof, hchecks, by
      rw [hwire, submit, (Handling.entered_eq hentered).2, List.nil_append]⟩
  · refine ⟨proof, hchecks, ?_⟩
    rw [hwire, checks_conclude, submit, (Handling.entered_eq hentered).2, List.nil_append]

/-- The transcript that the check is about is the one that was submitted. -/
theorem Checks.boundTo_iff {door : Door secret} {x : Handling ι} {proof : DecodedProof}
    {c : Call secret} (h : Checks door x proof c) (nonce : List UInt8) :
    c.BoundTo nonce ↔ proof.transcript = frame nonce := by
  have hbuffer : toBuffer (proof.toValue.get "transcript") = some proof.transcript := rfl
  rw [Call.BoundTo, Call.transcript, h.proof, hbuffer, Option.some.injEq]

/-- Request `i` has submitted a proof bound to `nonce`, and was told what its check has
resolved with. -/
structure Told (p : Platform) (s : Serving ι secret S) (i : ℕ) (nonce : List UInt8)
    (verdict : Verdict) : Prop where
  submitted : ∃ x proof text, s.handlings i = some x ∧ x.wire.checks = [proof] ∧
    proof.transcript = frame nonce ∧ p.jsonText verdict.toValue = .ok text ∧
    x.wire.responses = [⟨if verdict.ok then 200 else 503, false, text⟩]
  resolved : ∃ c raw, s.system.calls i = some c ∧ c.stage = .resolved raw (.ok verdict)

/-- The check of a request that was told about `nonce` is bound to it. -/
theorem Told.boundTo {s : Serving ι secret S} (h : s.Consistent p doors) {i : ℕ}
    {nonce : List UInt8} {verdict : Verdict} (htold : Told p s i nonce verdict) :
    ∃ c raw, s.system.calls i = some c ∧ c.stage = .resolved raw (.ok verdict) ∧
      c.BoundTo nonce := by
  obtain ⟨x, proof, -, hx, hchecks, htranscript, -⟩ := htold.submitted
  obtain ⟨c, raw, hc, hresolved⟩ := htold.resolved
  have hstands := h.stands i x hx
  rw [hc] at hstands
  obtain ⟨proof', hsame, hchecks'⟩ := hstands.checks_eq
  obtain rfl : proof = proof' := List.singleton_injective (hchecks.symm.trans hchecks')
  exact ⟨c, raw, hc, hresolved, (hsame.boundTo_iff nonce).mpr htranscript⟩

/-- An admission is the first spend of its nonce, when no spend is late. -/
theorem Consistent.firstOf_of_admitted {s : System secret S} (h : Consistent p s)
    (hrec : Recorded s.arrivals) (htimely : Timely p s) {i : ℕ} {nonce : List UInt8}
    (hadmitted : Admitted s i nonce) :
    ∃ a, firstOf (keyOf nonce) s.arrivals = some a ∧ a.call = i := by
  obtain ⟨a, ha, hcall, hfresh, hkey⟩ := (h.admitted_iff i nonce).mp hadmitted
  have hmem : a ∈ freshOf (keyOf nonce) s.arrivals :=
    List.mem_filter.mpr ⟨ha, by simp [hfresh, hkey]⟩
  rw [(after_of_prompt hrec (h.timely_iff.mp htimely (keyOf nonce))).2] at hmem
  exact ⟨a, Option.mem_toList.mp hmem, hcall⟩

/-- **One visitor is let in for a challenge.** In every interleaving of requests to gates
over one store: when no spend is late, at most one request with a proof bound to a nonce is
told `over_threshold: true`; and whoever is told that it is a replay comes after one whose
check was accepted. -/
theorem one_let_in [DecidableEq ι] (hS : S.KeepsContract) {s : Serving ι secret S}
    {events : List (Traffic ι)}
    (hrun : exec (attend p doors) (Serving.init ι secret S) events = some s) :
    (Timely p s.system → ∀ nonce i j v w, Told p s i nonce v → Told p s j nonce w →
      v.overThreshold = some true → w.overThreshold = some true → i = j) ∧
    ∀ nonce j w, Told p s j nonce w → w.reason = .replayDetected →
      ∃ i, SpentBefore s.system i j ∧ Admitted s.system i nonce := by
  have h := serving_of_run hrun
  obtain ⟨calls, hcalls⟩ := h.run
  have hsystem := consistent_of_run hcalls
  refine ⟨fun htimely nonce i j v w hv hw hvyes hwyes => ?_, fun nonce j w hw hreplay => ?_⟩
  · have hadmitted {k : ℕ} {u : Verdict} (hu : Told p s k nonce u)
        (hyes : u.overThreshold = some true) : Admitted s.system k nonce := by
      obtain ⟨c, raw, hc, hresolved, hbound⟩ := hu.boundTo h
      exact ⟨c, raw, _, hc, hbound, hresolved, u, rfl, hyes⟩
    have hrec := recorded_of_run hS hcalls
    obtain ⟨a, ha, rfl⟩ := hsystem.firstOf_of_admitted hrec htimely (hadmitted hv hvyes)
    obtain ⟨b, hb, rfl⟩ := hsystem.firstOf_of_admitted hrec htimely (hadmitted hw hwyes)
    rw [Option.some.inj (ha.symm.trans hb)]
  · obtain ⟨c, raw, hc, hresolved, hbound⟩ := hw.boundTo h
    obtain ⟨nonce', i, hbound', hbefore, hadmitted⟩ :=
      replayed_after_admission hS hcalls hc hresolved hreplay
    obtain rfl : nonce = nonce' := frame_injective (Option.some.inj (hbound.symm.trans hbound'))
    exact ⟨i, hbefore, hadmitted⟩

/-- What the two visitors are told. -/
def rivalVerdicts : Verdict × Verdict :=
  (answered true .verified (.string "age_over_18"), unanswerable .replayDetected
    (.string "this presentation was already spent in its session (replay)"))

/-- The transcripts that a request has submitted, and the answers that it has been sent. -/
def Handling.seen (x : Handling ι) :
    List (List UInt8) × List (ℕ × Bool × Option String) :=
  (x.wire.checks.map DecodedProof.transcript,
    x.wire.responses.map fun r => (r.status, r.close, some r.body))

/-- What has been seen of a handling and where its check stands say what its visitor was told. -/
theorem Told.of_seen {s : Serving ι secret S} {i : ℕ} {nonce : List UInt8} {verdict : Verdict} {x : Handling ι}
    {c : Call secret} {raw : Value} (hx : s.handlings i = some x)
    (hseen : x.seen = ([frame nonce], [(if verdict.ok then 200 else 503, false,
      (p.jsonText verdict.toValue).toOption)]))
    (hc : s.system.calls i = some c) (hstage : c.stage = .resolved raw (.ok verdict)) :
    Told p s i nonce verdict := by
  obtain ⟨hchecks, hresponses⟩ := Prod.mk.inj hseen
  obtain ⟨proof, hchecks, htranscript⟩ := List.map_eq_singleton_iff.mp hchecks
  obtain ⟨⟨status, close, body⟩, hresponses, hsent⟩ := List.map_eq_singleton_iff.mp hresponses
  obtain ⟨rfl, hsent⟩ := Prod.mk.inj hsent
  obtain ⟨rfl, hbody⟩ := Prod.mk.inj hsent
  exact ⟨⟨x, proof, body, hx, hchecks, htranscript, toOption_eq_some_iff.mp hbody.symm,
    hresponses⟩, c, raw, hc, hstage⟩

set_option maxRecDepth 20000 in
/-- The two requests submit the same transcript; the first is answered `200` and the second
`503`, and neither spend is late. -/
theorem exec_rivalTraffic :
    ∃ s, exec (attend servingPlatform fun _ => sampleDoor)
        (Serving.init Unit sampleSecret inMemoryNonceStore) rivalTraffic = some s ∧
      Told servingPlatform s 1 sampleNonce rivalVerdicts.1 ∧
      Told servingPlatform s 2 sampleNonce rivalVerdicts.2 ∧
      Timely servingPlatform s.system := by
  obtain ⟨s, x, y, c, d, a, b, hs, hx, hy, hc, hd, hcstage, hdstage, harrivals⟩ :
      ∃ s x y c d a b, exec (attend servingPlatform fun _ => sampleDoor)
        (Serving.init Unit sampleSecret inMemoryNonceStore) rivalTraffic = some s ∧
      s.handlings 1 = some x ∧ s.handlings 2 = some y ∧ s.system.calls 1 = some c ∧
      s.system.calls 2 = some d ∧
      c.stage = .resolved sampleReply.toValue (.ok rivalVerdicts.1) ∧
      d.stage = .resolved sampleReply.toValue (.ok rivalVerdicts.2) ∧
      s.system.arrivals = [a, b] :=
    ⟨_, _, _, _, _, _, _, rfl, rfl, rfl, rfl, rfl, rfl, rfl, rfl⟩
  have hseen : ((exec (attend servingPlatform fun _ => sampleDoor)
      (Serving.init Unit sampleSecret inMemoryNonceStore) rivalTraffic).bind fun s =>
        (s.handlings 1).map Handling.seen) = some ([frame sampleNonce],
          [(200, false, (servingPlatform.jsonText rivalVerdicts.1.toValue).toOption)]) := by
    decide +kernel
  have hseen' : ((exec (attend servingPlatform fun _ => sampleDoor)
      (Serving.init Unit sampleSecret inMemoryNonceStore) rivalTraffic).bind fun s =>
        (s.handlings 2).map Handling.seen) = some ([frame sampleNonce],
          [(503, false, (servingPlatform.jsonText rivalVerdicts.2.toValue).toOption)]) := by
    decide +kernel
  rw [hs, Option.bind_some, hx, Option.map_some, Option.some.injEq] at hseen
  rw [hs, Option.bind_some, hy, Option.map_some, Option.some.injEq] at hseen'
  have hspends : ((exec (attend servingPlatform fun _ => sampleDoor)
      (Serving.init Unit sampleSecret inMemoryNonceStore) rivalTraffic).map fun s =>
        s.system.arrivals.map fun a => (a.time, a.request.ttlMs)) =
      some [(1700000000950, 299700), (1700000000960, 299690)] := by
    decide +kernel
  rw [hs, Option.map_some, harrivals, Option.some.injEq] at hspends
  obtain ⟨ha, hb⟩ : (a.time, a.request.ttlMs) = (1700000000950, 299700) ∧
      (b.time, b.request.ttlMs) = (1700000000960, 299690) := by
    simpa only [List.map_cons, List.map_nil, List.cons.injEq, and_true] using hspends
  simp only [Prod.mk.injEq] at ha hb
  have htimely : Timely servingPlatform s.system := by
    obtain ⟨calls, hcalls⟩ := (serving_of_run hs).run
    refine (consistent_of_run hcalls).timely_of_close fun first hfirst e he => ?_
    rw [harrivals] at hfirst he
    rcases List.mem_pair.mp hfirst with rfl | rfl <;>
      rcases List.mem_pair.mp he with rfl | rfl <;> omega
  exact ⟨s, hs, .of_seen hx hseen hc hcstage, .of_seen hy hseen' hd hdstage, htimely⟩

/-- One of the two rivals has been told yes, nobody else has been, and the other has been told
that it is a replay, after it. -/
theorem one_let_in_rivalTraffic :
    ∃ s, exec (attend servingPlatform fun _ => sampleDoor)
        (Serving.init Unit sampleSecret inMemoryNonceStore) rivalTraffic = some s ∧
      Told servingPlatform s 1 sampleNonce rivalVerdicts.1 ∧
      Told servingPlatform s 2 sampleNonce rivalVerdicts.2 ∧
      (∀ i v, Told servingPlatform s i sampleNonce v → v.overThreshold = some true → 1 = i) ∧
      ∃ i, SpentBefore s.system i 2 ∧ Admitted s.system i sampleNonce := by
  obtain ⟨s, hs, hlet, hreplay, htimely⟩ := exec_rivalTraffic
  obtain ⟨hone, hbefore⟩ := one_let_in inMemoryNonceStore_keepsContract hs
  exact ⟨s, hs, hlet, hreplay,
    fun i v hv => hone htimely sampleNonce 1 i _ v hlet hv rfl,
    hbefore sampleNonce 2 _ hreplay rfl⟩

/-! ### One visitor -/

/-- Request `i` has been answered with the challenge. -/
def Handed (p : Platform) (doors : ι → Door secret) (s : Serving ι secret S) (i : ℕ)
    (challenge : Challenge) : Prop :=
  ∃ x text, s.handlings i = some x ∧
    routeOf p (doors x.door).mount x.request = some .challenge ∧
    (doors x.door).replica.val.issueChallenge p x.random x.arrivedAt = .ok challenge ∧
    p.jsonText (challengeBody challenge) = .ok text ∧ x.wire.responses = [⟨200, false, text⟩]

/-- The body of the request is JSON with this text for a transcript. -/
def Brings (p : Platform) (door : Door secret) (x : Handling ι) (text : String) : Prop :=
  ∃ raw parsed, x.body door = .resolved raw ∧ p.jsonParse raw = some parsed ∧
    parsed.get "transcript" = .string text

/-- A challenge that a replica has issued was issued under the secret. -/
theorem issueChallenge_of_replica {replica : Replica secret} {random : RandomBytes}
    {clock : TimeValue} {challenge : Challenge}
    (h : replica.val.issueChallenge p random clock = .ok challenge) :
    issueChallenge p random clock secret replica.val.challengeTtlMs .undefined =
      .ok challenge := by
  rw [Verifier.issueChallenge, if_neg (not_not.mpr replica.property.1), replica.property.2] at h
  exact h

/-- The proof that a body submits is decoded from the texts that it brings. -/
theorem transcript_of_brings {door : Door secret} {x : Handling ι} {text : String}
    (hbrings : Brings p door x text) {proof : DecodedProof}
    (hsubmits : afterBody p (x.body door) = .submits proof) :
    proof.transcript = p.base64Decode text := by
  obtain ⟨raw, parsed, hbody, hparsed, htext⟩ := hbrings
  rw [hbody, afterBody, hparsed] at hsubmits
  dsimp only at hsubmits
  split at hsubmits
  · cases hsubmits
  · next proof' hproof =>
      obtain rfl := BodyOutcome.submits.inj hsubmits
      obtain ⟨transcript, deviceResponse, htranscript, -, rfl⟩ := decodeProof_eq_some hproof
      rw [Value.string.inj (htext.symm.trans htranscript)]

/-- The transcript of a challenge frames its nonce. -/
theorem transcript_eq_frame {random : RandomBytes} {clock : TimeValue} {ttlMs now : Value}
    {challenge : Challenge} (h : issueChallenge p random clock secret ttlMs now = .ok challenge) :
    challenge.transcript = frame challenge.nonce := by
  have hbytes : toBuffer (.binary .uint8Array challenge.transcript) =
      some challenge.transcript := rfl
  obtain ⟨-, payload, -, hbuffer, heq⟩ := (inspectChallenge_eq_some_iff _ _ _ _ _).mp
    (inspectChallenge_issueChallenge h hbytes .undefined)
  have hkey : keyOf challenge.nonce = keyOf (nonceOf p secret payload) :=
    congrArg Recognized.nonceKey heq
  rw [keyOf_injective hkey]
  exact Option.some.inj hbuffer

/-- A verdict is sent. -/
theorem conclude_of_text {verdict : Verdict} {text : String}
    (h : p.jsonText verdict.toValue = .ok text) (w : Wire) :
    (caught p (conclude p ((Except.ok verdict : Completion Verdict).map Verdict.toValue) w)).2 =
      { w with responses := w.responses ++ [⟨if verdict.ok then 200 else 503, false, text⟩] } := by
  show (caught p (send p (if verdict.ok then 200 else 503) verdict.toValue false w)).2 = _
  rw [send, h]
  rfl

/-- Nobody else has spent the nonce, if nobody else has brought its transcript. -/
theorem not_spentByOther {s : Serving ι secret S} (h : s.Consistent p doors) {j : ℕ}
    {nonce : List UInt8} (hothers : ∀ k z, k ≠ j → s.handlings k = some z →
      ∀ proof ∈ z.wire.checks, proof.transcript ≠ frame nonce) :
    ¬SpentByOther s.system j nonce := by
  rintro ⟨before, after, hsplit, ⟨a, ha, hkey⟩, hnot⟩
  obtain ⟨calls, hcalls⟩ := h.run
  obtain ⟨c, raw, verdict, hc, hafter, -⟩ := (consistent_of_run hcalls).arrived a
    (hsplit ▸ List.mem_append_left _ ha)
  cases hz : s.handlings a.call with
  | none => cases (h.uncalled _ hz).symm.trans hc
  | some z =>
      have hstands := h.stands _ z hz
      rw [hc] at hstands
      obtain ⟨proof, hchecks, hwire⟩ := hstands.checks_eq
      refine hothers a.call z (hnot a ha) hz proof (by simp [hwire]) ?_
      exact (hchecks.boundTo_iff nonce).mp ((c.boundTo_iff hafter nonce).mpr hkey)

/-- **A challenge admits its visitor.** A challenge was handed out over HTTP, and its text
was brought back in a body while the challenge lasted, with a proof that the service
accepts. Unless somebody else has brought back the same transcript, the visitor has been
answered `200` with the accept, or will be as soon as the spend reaches the store, whatever
else the gates are doing. -/
theorem challenge_admits_its_visitor [DecidableEq ι] (hS : S.KeepsContract)
    {s : Serving ι secret S} {events : List (Traffic ι)}
    (hrun : exec (attend p doors) (Serving.init ι secret S) events = some s) {i j : ℕ}
    {challenge : Challenge}
    (hround : p.base64Decode (String.ofList (base64Url challenge.transcript)) =
      challenge.transcript) (hhanded : Handed p doors s i challenge) {y : Handling ι}
    {c : Call secret} {raw : Value} {verdict : Verdict} {text : String}
    (hy : s.handlings j = some y)
    (hbrings : Brings p (doors y.door) y (String.ofList (base64Url challenge.transcript)))
    (hc : s.system.calls j = some c) (hreply : c.reply? = some raw)
    (haccepted : c.stateless p raw = .ok verdict ∧ verdict.IsAccept)
    (htime : c.readAt.val ≤ challenge.expiresAt)
    (hothers : ∀ k z, k ≠ j → s.handlings k = some z →
      ∀ proof ∈ z.wire.checks, proof.transcript ≠ challenge.transcript)
    (htext : p.jsonText verdict.toValue = .ok text) :
    (y.stage = .ended ∧ y.wire.responses = [⟨200, false, text⟩]) ∨
      ∀ time : TimeValue, s.clock ≤ time.val → ∃ s' y',
        attend p doors s ⟨time, .spend j⟩ = some s' ∧ s'.handlings j = some y' ∧
        y'.stage = .ended ∧ y'.wire.responses = [⟨200, false, text⟩] := by
  have h := serving_of_run hrun
  obtain ⟨calls, hcalls⟩ := h.run
  have hstands := h.stands j y hy
  rw [hc] at hstands
  obtain ⟨w, proof, hchecks, hentered, hsubmits, hcases⟩ := hstands.of_call
  obtain ⟨x, -, -, -, hissue, -⟩ := hhanded
  have hissue := issueChallenge_of_replica hissue
  have hframe := transcript_eq_frame hissue
  have htranscript : proof.transcript = challenge.transcript := by
    rw [transcript_of_brings hbrings hsubmits, hround]
  have hhonest : Honest p c raw verdict challenge := {
    accepted := haccepted
    issued := ⟨_, _, _, _, hissue⟩
    bound := by
      rw [hframe]
      exact (hchecks.boundTo_iff _).mpr (htranscript.trans hframe)
    inTime := htime }
  have hok : verdict.ok = true := haccepted.2.1
  have hwire {u : Wire} (hu : u = submit proof w) :
      (caught p (conclude p ((Except.ok verdict : Completion Verdict).map Verdict.toValue)
        u)).2.responses = [⟨200, false, text⟩] := by
    rw [conclude_of_text htext, hu, submit, (Handling.entered_eq hentered).1, hok]
    rfl
  have hfirst : ¬SpentByOther s.system j challenge.nonce :=
    not_spentByOther h (hframe ▸ hothers)
  rcases honest_visitor_admitted hS hcalls hc hreply hhonest hfirst with
    hresolved | ⟨request, hspending, hnext⟩
  · rcases hcases with ⟨hopen, -⟩ | ⟨raw', result, hresolved', hended, hconcluded⟩
    · exact absurd hresolved (hopen _ _)
    · obtain ⟨-, rfl⟩ := CallStage.resolved.inj (hresolved.symm.trans hresolved')
      exact Or.inl ⟨hended, by rw [hconcluded, hwire rfl]⟩
  · rcases hcases with ⟨-, hchecking, hopen⟩ | ⟨raw', result, hresolved', -⟩
    swap
    · cases hspending.symm.trans hresolved'
    refine Or.inr fun time hlater => ?_
    obtain ⟨system, c', hstep, hc', hresolved⟩ := hnext time (h.clock.trans hlater)
    refine ⟨Serving.settle p { s with clock := time.val, system } j, y.finish p (conclude p
      ((Except.ok verdict : Completion Verdict).map Verdict.toValue)), ?_, ?_, rfl, hwire hopen⟩
    · rw [attend, if_neg (not_lt.mpr hlater)]
      dsimp only
      rw [hstep]
      rfl
    · rw [Serving.settle]
      simp only [hy, hc', hresolved]
      rw [Serving.handlings_put, if_pos rfl]

/-- The challenge of the sample run. -/
def sampleChallenge : Challenge where
  nonce := sampleNonce
  transcript := sampleTranscript
  expiresAt := 1700000300000

/-- The replica of the worked run issues the sample challenge. -/
theorem issueChallenge_sample : sampleReplica.val.issueChallenge servingPlatform sampleRandom
    (sampleTime 0) = .ok sampleChallenge := by
  have h : (sampleReplica.val.issueChallenge servingPlatform sampleRandom
      (sampleTime 0)).toOption = some sampleChallenge := by decide +kernel
  exact toOption_eq_some_iff.mp h

set_option maxRecDepth 20000 in
/-- A visitor who has got a challenge and brings it back is let in, or will be as soon as the
store answers. -/
theorem challenge_admits_its_visitor_sampleTraffic :
    ∃ s y text, exec (attend servingPlatform fun _ => sampleDoor)
        (Serving.init Unit sampleSecret inMemoryNonceStore) sampleTraffic = some s ∧
      s.handlings 1 = some y ∧
      ((y.stage = .ended ∧ y.wire.responses = [⟨200, false, text⟩]) ∨
        ∀ time : TimeValue, s.clock ≤ time.val → ∃ s' y',
          attend servingPlatform (fun _ => sampleDoor) s ⟨time, .spend 1⟩ = some s' ∧
          s'.handlings 1 = some y' ∧ y'.stage = .ended ∧
          y'.wire.responses = [⟨200, false, text⟩]) := by
  obtain ⟨s, x, y, c, raw, verdict, hs, hx, hget, hrandom, harrived, hy, hbody, hc, hreply,
      hstateless, hread, haccept⟩ : ∃ s x y c raw verdict,
      exec (attend servingPlatform fun _ => sampleDoor)
        (Serving.init Unit sampleSecret inMemoryNonceStore) sampleTraffic = some s ∧
      s.handlings 0 = some x ∧ x.request = sampleGet ∧ x.random = sampleRandom ∧
      x.arrivedAt = sampleTime 0 ∧ s.handlings 1 = some y ∧
      y.body sampleDoor = .resolved sampleBrought ∧ s.system.calls 1 = some c ∧
      c.reply? = some raw ∧ c.stateless servingPlatform raw = .ok verdict ∧
      c.readAt = sampleTime 300 ∧ verdict.IsAccept :=
    ⟨_, _, _, _, _, _, rfl, rfl, rfl, rfl, rfl, rfl, rfl, rfl, rfl, rfl, rfl, rfl, rfl⟩
  have hwire : ((exec (attend servingPlatform fun _ => sampleDoor)
      (Serving.init Unit sampleSecret inMemoryNonceStore) sampleTraffic).bind fun s =>
        (s.handlings 0).map fun x => (x.wire.checks.length,
          x.wire.responses.map fun r => (r.status, r.close, some r.body))) =
      some (0, [(200, false,
        (servingPlatform.jsonText (challengeBody sampleChallenge)).toOption)]) := by
    decide +kernel
  rw [hs, Option.bind_some, hx, Option.map_some, Option.some.injEq, Prod.mk.injEq,
    List.length_eq_zero_iff, List.map_eq_singleton_iff] at hwire
  obtain ⟨hchecks, ⟨status, close, body⟩, hr, hsent⟩ := hwire
  obtain ⟨rfl, hsent⟩ := Prod.mk.inj hsent
  obtain ⟨rfl, htext⟩ := Prod.mk.inj hsent
  have hhanded : Handed servingPlatform (fun _ => sampleDoor) s 0 sampleChallenge := by
    refine ⟨x, _, hx, ?_, ?_, rfl, ?_⟩
    · rw [hget]
      show routeOf servingPlatform sampleDoor.mount sampleGet = some .challenge
      decide +kernel
    · rw [hrandom, harrived]
      exact issueChallenge_sample
    · exact hr.trans (congrArg (fun body => [Response.mk 200 false body]) (Option.some.inj htext))
  refine ⟨s, y, _, hs, hy, challenge_admits_its_visitor inMemoryNonceStore_keepsContract hs
    rfl hhanded hy ⟨_, _, hbody, rfl, rfl⟩ hc hreply ⟨hstateless, haccept⟩ ?_ ?_ rfl⟩
  · rw [hread]
    decide
  · intro k z hk hz proof hproof
    rcases k with _ | _ | k
    · obtain rfl := Option.some.inj (hx.symm.trans hz)
      rw [hchecks] at hproof
      cases hproof
    · exact absurd rfl hk
    · rw [handlings_of_run hs] at hz
      · cases hz
      · simp [sampleTraffic]

end EightEen
