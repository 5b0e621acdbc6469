import EightEen.Verdict
import Mathlib.Algebra.Order.Ring.Rat
import Mathlib.Tactic.Linarith

/-!
# What the Bit Rests On

The two allowlists of `classify`, stated without its control flow: `Accepts` is the
evidence for a "yes" and `Denies` the evidence for a "no". `classify` gives each bit on
exactly its evidence (`gives_true_iff`, `gives_false_iff`), and everything else is a verdict
without an answer or a `throw`. It throws in exactly the places where it quotes a value
that has no text (`classify_throws_iff`).

The lemmas follow the stages of `classify`. `findClaim_eq` reads its two nested loops as
one search through the items of all namespaces, `freshnessGate_cases` says once what the
freshness gate can return, and each stage has a lemma for either bit.
-/

open Js

namespace EightEen

/-! ### The claim -/

/-- The items of `Claims`, namespace after namespace in `Object.values` order. A namespace
that is not an array contributes nothing. -/
def claimItems (claims : Value) : List Value :=
  claims.values.flatMap Value.items

/-- The first item that carries the identifier. -/
def firstItem (claims id : Value) : Option Value :=
  (claimItems claims).find? fun item => (item.get "ElementIdentifier").strictEq id

/-- `findItem` is the value of the first item with the identifier. -/
theorem findItem_eq (id : Value) (items : List Value) :
    findItem id items =
      (items.find? fun item => (item.get "ElementIdentifier").strictEq id).map
        (·.get "ElementValue") := by
  induction items with
  | nil => rfl
  | cons item items ih =>
      rw [findItem, List.find?_cons]
      by_cases h : (item.get "ElementIdentifier").strictEq id = true
      · simp [h]
      · simp [h, ih]

/-- `findInNamespaces` is the value of the first item with the identifier, in all namespaces one
after the other. -/
theorem findInNamespaces_eq (id : Value) (namespaces : List Value) :
    findInNamespaces id namespaces =
      ((namespaces.flatMap Value.items).find?
        fun item => (item.get "ElementIdentifier").strictEq id).map (·.get "ElementValue") := by
  induction namespaces with
  | nil => rfl
  | cons ns rest ih =>
      rw [List.flatMap_cons, List.find?_append]
      cases ns with
      | array items =>
          rw [findInNamespaces, findItem_eq]
          simp only [Value.items]
          cases items.find? fun item => (item.get "ElementIdentifier").strictEq id with
          | some item => rfl
          | none => simpa using ih
      | _ => simpa [findInNamespaces, Value.items] using ih

/-- A value that `findClaim` refuses to look into has no items. -/
theorem claimItems_of_not_isObject {claims : Value} (h : claims.isObject = false) :
    claimItems claims = [] := by
  cases claims <;>
    simp_all [Value.isObject, Value.truthy, Value.typeOf, claimItems, Value.values]

/-- **The two loops are one search** through the items of all namespaces. -/
theorem findClaim_eq (claims id : Value) :
    findClaim claims id =
      ((firstItem claims id).map (·.get "ElementValue")).getD .undefined := by
  rw [findClaim, firstItem]
  by_cases h : claims.isObject = true
  · rw [if_pos h, findInNamespaces_eq, claimItems]
  · rw [if_neg h, claimItems_of_not_isObject (by simpa using h)]
    rfl

/-- The value that the claim carries is missing, `null` or empty. -/
def Absent (value : Value) : Prop :=
  value = .undefined ∨ value = .null ∨ value = .string ""

/-- The test of the source for a claim that is not there, as a statement about the value. -/
theorem absent_iff (value : Value) :
    (value.nullish || value.strictEq (.string "")) = true ↔ Absent value := by
  rw [Bool.or_eq_true, Value.strictEq_string, Absent]
  cases value <;> simp [Value.nullish]

/-- `value` reads as the bit `b`: a JSON boolean, or base64 of the byte that CBOR gives
`b`. -/
def ReadsAs (p : Platform) (value : Value) (b : Bool) : Prop :=
  value = .boolean b ∨
    ∃ s, value = .string s ∧ p.base64Decode s = [if b then 0xF5 else 0xF4]

/-- **`readCborBool` reads a bit** exactly from a JSON boolean, or from base64 of the one byte
that CBOR writes for it. -/
theorem readCborBool_eq_some_iff (p : Platform) (value : Value) (b : Bool) :
    readCborBool p value = some b ↔ ReadsAs p value b := by
  rw [ReadsAs]
  cases value with
  | boolean a => simp [readCborBool]
  | string s =>
      simp only [readCborBool, reduceCtorEq, Value.string.injEq, exists_eq_left', false_or]
      rcases p.base64Decode s with - | ⟨byte, - | ⟨next, rest⟩⟩
      · simp
      · by_cases h5 : byte = 0xF5
        · subst h5
          cases b <;> decide
        · by_cases h4 : byte = 0xF4
          · subst h4
            cases b <;> decide
          · cases b <;> simp [h4, h5]
      · simp
  | _ => simp [readCborBool]

/-- An absent claim reads as neither bit. -/
theorem ReadsAs.not_absent {p : Platform} {value : Value} {b : Bool}
    (h : ReadsAs p value b) : ¬Absent value := by
  rintro (rfl | rfl | rfl)
  · rcases h with h | ⟨s, h, -⟩ <;> exact absurd h (by simp)
  · rcases h with h | ⟨s, h, -⟩ <;> exact absurd h (by simp)
  · rcases h with h | ⟨s, h, hbytes⟩
    · exact absurd h (by simp)
    · obtain rfl := Value.string.inj h
      rw [p.base64Decode_empty] at hbytes
      exact absurd hbytes (by simp)

/-- The reading is a function of the value. -/
theorem ReadsAs.unique {p : Platform} {value : Value} {a b : Bool} (ha : ReadsAs p value a)
    (hb : ReadsAs p value b) : a = b := by
  rw [← readCborBool_eq_some_iff] at ha hb
  exact Option.some.inj (ha.symm.trans hb)

/-! ### Freshness -/

/-- The presentation is dated, the clock is readable, and they are `skew` apart, positive
when the presentation lies in the past. -/
def Skew (p : Platform) (body now : Value) (skew : ℚ) : Prop :=
  ∃ dated stamp t, body.get "Now" = .string dated ∧ p.dateParse dated = some stamp ∧
    now = .number (.finite t) ∧ skew = t - stamp

/-- The tolerance is a finite number that is not negative. -/
def Tolerance (toleranceMs : Value) (tolerance : ℚ) : Prop :=
  toleranceMs = .number (.finite tolerance) ∧ 0 ≤ tolerance

/-- `usableTolerance` lets finite numbers through that are not negative, and nothing else. -/
theorem usableTolerance_eq_some_iff (toleranceMs : Value) (tolerance : ℚ) :
    usableTolerance toleranceMs = some tolerance ↔ Tolerance toleranceMs tolerance := by
  rw [usableTolerance, Tolerance]
  cases h : toleranceMs.finite? with
  | none =>
      refine ⟨fun hc => absurd hc (by simp), ?_⟩
      rintro ⟨heq, -⟩
      rw [(Value.finite?_eq_some_iff _ _).mpr heq] at h
      exact absurd h (by simp)
  | some q =>
      obtain rfl := (Value.finite?_eq_some_iff _ _).mp h
      by_cases hq : q < 0
      · simp only [if_pos hq, reduceCtorEq, Value.number.injEq, Number.finite.injEq, false_iff,
          not_and, not_le]
        rintro rfl
        exact hq
      · simp only [if_neg hq, Option.some.injEq, Value.number.injEq, Number.finite.injEq,
          iff_self_and]
        rintro rfl
        exact not_lt.mp hq

/-- The presentation is current: within the tolerance of the clock on either side. -/
def Current (p : Platform) (body now toleranceMs : Value) : Prop :=
  ∃ skew tolerance, Skew p body now skew ∧ Tolerance toleranceMs tolerance ∧
    -tolerance ≤ skew ∧ skew ≤ tolerance

/-- The presentation is stale: older than the tolerance allows. -/
def Stale (p : Platform) (body now toleranceMs : Value) : Prop :=
  ∃ skew tolerance, Skew p body now skew ∧ Tolerance toleranceMs tolerance ∧
    tolerance < skew

/-- A presentation and a clock reading have one skew. -/
theorem Skew.unique {p : Platform} {body now : Value} {a b : ℚ} (ha : Skew p body now a)
    (hb : Skew p body now b) : a = b := by
  obtain ⟨dated, stamp, t, hdated, hstamp, hnow, rfl⟩ := ha
  obtain ⟨dated', stamp', t', hdated', hstamp', hnow', rfl⟩ := hb
  obtain rfl := Value.string.inj (hdated.symm.trans hdated')
  obtain rfl := Option.some.inj (hstamp.symm.trans hstamp')
  obtain rfl := Number.finite.inj (Value.number.inj (hnow.symm.trans hnow'))
  rfl

/-- A tolerance is one number. -/
theorem Tolerance.unique {toleranceMs : Value} {a b : ℚ} (ha : Tolerance toleranceMs a)
    (hb : Tolerance toleranceMs b) : a = b :=
  Number.finite.inj (Value.number.inj (ha.1.symm.trans hb.1))

/-- `parseTimestamp` reads a text that `Date.parse` can read, and no other value. -/
theorem parseTimestamp_eq_some_iff {p : Platform} {v : Value} {dated : String} {stamp : ℤ} :
    parseTimestamp p v = some (dated, stamp) ↔
      v = .string dated ∧ p.dateParse dated = some stamp := by
  cases v with
  | string s =>
      rw [parseTimestamp, Option.map_eq_some_iff, Value.string.injEq]
      constructor
      · rintro ⟨ms, hms, heq⟩
        obtain ⟨rfl, rfl⟩ := Prod.mk.inj heq
        exact ⟨rfl, hms⟩
      · rintro ⟨rfl, hms⟩
        exact ⟨stamp, hms, rfl⟩
  | _ => simp [parseTimestamp]

/-- With a skew and a tolerance there is one judgement to make. -/
theorem current_iff {p : Platform} {body now toleranceMs : Value} {skew tolerance : ℚ}
    (hskew : Skew p body now skew) (htol : Tolerance toleranceMs tolerance) :
    Current p body now toleranceMs ↔ -tolerance ≤ skew ∧ skew ≤ tolerance := by
  constructor
  · rintro ⟨skew', tolerance', hskew', htol', h⟩
    obtain rfl := hskew.unique hskew'
    obtain rfl := htol.unique htol'
    exact h
  · exact fun h => ⟨skew, tolerance, hskew, htol, h⟩

/-- With the skew and the tolerance at hand, a presentation is stale when the skew is the greater
one. -/
theorem stale_iff {p : Platform} {body now toleranceMs : Value} {skew tolerance : ℚ}
    (hskew : Skew p body now skew) (htol : Tolerance toleranceMs tolerance) :
    Stale p body now toleranceMs ↔ tolerance < skew := by
  constructor
  · rintro ⟨skew', tolerance', hskew', htol', h⟩
    obtain rfl := hskew.unique hskew'
    obtain rfl := htol.unique htol'
    exact h
  · exact fun h => ⟨skew, tolerance, hskew, htol, h⟩

/-- A stale presentation is not current. -/
theorem Stale.not_current {p : Platform} {body now toleranceMs : Value}
    (h : Stale p body now toleranceMs) : ¬Current p body now toleranceMs := by
  obtain ⟨skew, tolerance, hskew, htol, hlt⟩ := h
  rw [current_iff hskew htol]
  exact fun hcurrent => absurd hcurrent.2 (not_le.mpr hlt)

/-- **What the freshness gate returns**: nothing exactly on a current presentation, the
"no" on a stale one, and no answer otherwise. It throws only in printing a tolerance that
is not a number. -/
theorem freshnessGate_cases (p : Platform) (body now toleranceMs : Value) :
    (freshnessGate p body now toleranceMs = .ok none ∧ Current p body now toleranceMs) ∨
    (∃ d, freshnessGate p body now toleranceMs =
        .ok (some (answered false .credentialExpired d)) ∧ Stale p body now toleranceMs) ∨
    (∃ d, freshnessGate p body now toleranceMs =
        .ok (some (unanswerable .freshnessUnknown d)) ∧
      ¬Current p body now toleranceMs ∧ ¬Stale p body now toleranceMs) ∨
    (∃ e, freshnessGate p body now toleranceMs = .error e ∧
      toleranceMs.stringOf p.toRuntime = .error e ∧ (∃ skew, Skew p body now skew) ∧
      ∀ tolerance, ¬Tolerance toleranceMs tolerance) := by
  -- With no skew, or no tolerance to compare it with, neither judgement can be made.
  have hneither : (∀ skew, ¬Skew p body now skew) ∨
      (∀ tolerance, ¬Tolerance toleranceMs tolerance) →
      ¬Current p body now toleranceMs ∧ ¬Stale p body now toleranceMs := by
    rintro (h | h)
    · exact ⟨fun ⟨s, _, hs, _⟩ => h s hs, fun ⟨s, _, hs, _⟩ => h s hs⟩
    · exact ⟨fun ⟨_, t, _, ht, _⟩ => h t ht, fun ⟨_, t, _, ht, _⟩ => h t ht⟩
  rw [freshnessGate]
  cases hstamp : parseTimestamp p (body.get "Now") with
  | none =>
      refine Or.inr (Or.inr (Or.inl ⟨_, rfl, hneither (Or.inl ?_)⟩))
      rintro skew ⟨dated, stamp, t, hdated, hparse, -, -⟩
      rw [parseTimestamp_eq_some_iff.mpr ⟨hdated, hparse⟩] at hstamp
      exact absurd hstamp (by simp)
  | some ds =>
      obtain ⟨dated, stamp⟩ := ds
      have hdated := parseTimestamp_eq_some_iff.mp hstamp
      cases hclock : now.finite? with
      | none =>
          refine Or.inr (Or.inr (Or.inl ⟨_, rfl, hneither (Or.inl ?_)⟩))
          rintro skew ⟨-, -, t, -, -, rfl, -⟩
          exact absurd hclock (by simp [Value.finite?])
      | some t =>
          have hskew : Skew p body now (t - stamp) :=
            ⟨dated, stamp, t, hdated.1, hdated.2, (Value.finite?_eq_some_iff _ _).mp hclock, rfl⟩
          cases htol : usableTolerance toleranceMs with
          | none =>
              have hno : ∀ tolerance, ¬Tolerance toleranceMs tolerance := by
                intro tolerance h
                rw [(usableTolerance_eq_some_iff _ _).mpr h] at htol
                exact absurd htol (by simp)
              cases hshown : toleranceMs.stringOf p.toRuntime with
              | ok shown =>
                  exact Or.inr (Or.inr (Or.inl ⟨_, rfl, hneither (Or.inr hno)⟩))
              | error e =>
                  exact Or.inr (Or.inr (Or.inr ⟨e, rfl, rfl, ⟨_, hskew⟩, hno⟩))
          | some tolerance =>
              have htolerance := (usableTolerance_eq_some_iff _ _).mp htol
              simp only [gt_iff_lt]
              by_cases hold : tolerance < t - stamp
              · rw [if_pos hold]
                exact Or.inr (Or.inl ⟨_, rfl, _, _, hskew, htolerance, hold⟩)
              · rw [if_neg hold]
                by_cases hnew : t - stamp < -tolerance
                · rw [if_pos hnew]
                  refine Or.inr (Or.inr (Or.inl ⟨_, rfl, ?_, ?_⟩))
                  · rw [current_iff hskew htolerance]
                    exact fun hcurrent => absurd hcurrent.1 (not_le.mpr hnew)
                  · rw [stale_iff hskew htolerance]
                    exact hold
                · rw [if_neg hnew]
                  exact Or.inl ⟨rfl, _, _, hskew, htolerance, not_lt.mp hnew, not_lt.mp hold⟩

/-! ### The evidence -/

/-- The service replied with this status and an object for a body. -/
structure Replied (raw : Value) (status : ℕ) : Prop where
  isObject : raw.isObject = true
  kind : raw.get "kind" = .string "response"
  body : (raw.get "body").isObject = true
  status : raw.get "status" = .ofNat status

/-- The reply says that the maths checked out. -/
structure Proven (raw : Value) : Prop extends Replied raw 200 where
  proven : (raw.get "body").get "Status" = .boolean true

/-- The value of the claim that the options ask for. -/
def claimValue (body : Value) (opts : ClassifyOptions) : Value :=
  ((firstItem (body.get "Claims") opts.claim).map (·.get "ElementValue")).getD .undefined

/-- The evidence for a "yes": a proven reply whose claim reads true and, if the options
ask for it, a current presentation. -/
structure Accepts (p : Platform) (raw : Value) (opts : ClassifyOptions) : Prop
    extends Proven raw where
  claim : ReadsAs p (claimValue (raw.get "body") opts) true
  current : opts.currency = true →
    Current p (raw.get "body") opts.now opts.tolerance

/-- The evidence for a "no". The two constructors about the claim ask for one thing more
than their evidence: the verdict quotes the identifier, which has to have a text. -/
inductive Denies (p : Platform) (raw : Value) (opts : ClassifyOptions) : Prop
  | refused (s : String) (replied : Replied raw 400)
      (envelope : (raw.get "body").get "error" = .string s)
      (notBlank : ∃ c ∈ s.toList, isSpace c = false)
  | disproved (text : String) (digits : List Char) (replied : Replied raw 200)
      (status : (raw.get "body").get "Status" ≠ .boolean true)
      (message : ((raw.get "body").get "Message").stringOf p.toRuntime = .ok text)
      (wording : text.toList = verifyFailure ++ digits)
      (nonempty : digits ≠ []) (decimal : ∀ c ∈ digits, isDecimal c = true)
      (code : numeralValue digits ∈ [2, 3, 4, 5, 11])
  | absent (proven : Proven raw) (absent : Absent (claimValue (raw.get "body") opts))
      (quoted : ∃ shown, opts.claim.template p.toRuntime = .ok shown)
  | isFalse (proven : Proven raw) (claim : ReadsAs p (claimValue (raw.get "body") opts) false)
      (quoted : ∃ shown, opts.claim.template p.toRuntime = .ok shown)
  | stale (proven : Proven raw) (claim : ReadsAs p (claimValue (raw.get "body") opts) true)
      (currency : opts.currency = true)
      (stale : Stale p (raw.get "body") opts.now opts.tolerance)

/-! ### The stages -/

/-- The evaluation returns a verdict with this bit. -/
def Gives (b : Bool) (x : Completion Verdict) : Prop :=
  ∃ v, x = .ok v ∧ v.overThreshold = some b

/-- A verdict gives a bit when its `over_threshold` is that bit. -/
@[simp] theorem gives_ok (b : Bool) (v : Verdict) :
    Gives b (.ok v) ↔ v.overThreshold = some b := by
  simp [Gives]

/-- A call that throws gives no bit. -/
@[simp] theorem not_gives_error (b : Bool) (e : Thrown) : ¬Gives b (.error e) := by
  simp [Gives]

/-- Quoting a text in a verdict leaves its bit alone, once the text is there. -/
theorem gives_bind_iff (b : Bool) (shown : Completion String) (verdict : String → Verdict) :
    Gives b (shown >>= fun t => .ok (verdict t)) ↔
      ∃ t, shown = .ok t ∧ (verdict t).overThreshold = some b := by
  cases shown with
  | ok t => simp [bind, Except.bind]
  | error e => simp [bind, Except.bind]

/-- A verdict without an answer gives neither bit, whatever it quotes. -/
theorem not_gives_unanswerable (b : Bool) (r : Reason) (shown : Completion String)
    (detail : String → Value) :
    ¬Gives b (shown >>= fun t => .ok (unanswerable r (detail t))) := by
  rw [gives_bind_iff]
  rintro ⟨t, -, h⟩
  exact absurd h (by simp)

/-- Without a reply from the service there is no bit. -/
theorem not_gives_of_no_response (p : Platform) {raw : Value} (opts : ClassifyOptions)
    (b : Bool) (h : raw.isObject → raw.get "kind" ≠ .string "response") :
    ¬Gives b (classify p raw opts) := by
  by_cases hobj : raw.isObject = true
  · rcases classify_of_other_kind p opts hobj (h hobj) with ⟨-, r, -, hr⟩ | hr
    · rw [hr]
      simp
    · rw [hr]
      exact not_gives_unanswerable _ _ _ _
  · rw [classify_of_not_isObject p opts hobj]
    simp

/-- Where a bit can come from: the error envelope of a status 400, the message of a reply
that is not proven, or the claim of a reply that is. -/
theorem gives_classify_iff (p : Platform) (raw : Value) (opts : ClassifyOptions) (b : Bool) :
    Gives b (classify p raw opts) ↔
      (Replied raw 400 ∧
        (classifyRejection ((raw.get "body").get "error")).overThreshold = some b) ∨
      (Replied raw 200 ∧ (raw.get "body").get "Status" ≠ .boolean true ∧
        Gives b (classifyFailure p ((raw.get "body").get "Message"))) ∨
      (Proven raw ∧ Gives b (classifyClaim p (raw.get "body") opts)) := by
  constructor
  · intro h
    have hobj : raw.isObject = true := by
      by_contra hno
      exact not_gives_of_no_response p opts b (fun hobj => absurd hobj hno) h
    have hkind : raw.get "kind" = .string "response" := by
      by_contra hno
      exact not_gives_of_no_response p opts b (fun _ => hno) h
    rw [classify_of_response p opts hobj hkind] at h
    have hbody : (raw.get "body").isObject = true := by
      by_contra hno
      rw [classifyResponse_of_not_isObject p opts hno] at h
      exact not_gives_unanswerable _ _ _ _ h
    by_cases h400 : raw.get "status" = .ofNat 400
    · rw [classifyResponse_refusal p opts hbody h400, gives_ok] at h
      exact Or.inl ⟨⟨hobj, hkind, hbody, h400⟩, h⟩
    by_cases h200 : raw.get "status" = .ofNat 200
    swap
    · rw [classifyResponse_of_other_status p opts hbody h400 h200] at h
      exact absurd h (not_gives_unanswerable _ _ _ _)
    have hreplied : Replied raw 200 := ⟨hobj, hkind, hbody, h200⟩
    by_cases hproven : (raw.get "body").get "Status" = .boolean true
    · rw [classifyResponse_claim p opts hbody h200 hproven] at h
      exact Or.inr (Or.inr ⟨⟨hreplied, hproven⟩, h⟩)
    · rw [classifyResponse_failure p opts hbody h200 hproven] at h
      exact Or.inr (Or.inl ⟨hreplied, hproven, h⟩)
  · rintro (⟨hr, h⟩ | ⟨hr, hproven, h⟩ | ⟨hr, h⟩)
    · rwa [classify_of_response p opts hr.isObject hr.kind,
        classifyResponse_refusal p opts hr.body hr.status, gives_ok]
    · rwa [classify_of_response p opts hr.isObject hr.kind,
        classifyResponse_failure p opts hr.body hr.status hproven]
    · rwa [classify_of_response p opts hr.isObject hr.kind,
        classifyResponse_claim p opts hr.body hr.status hr.proven]

/-- The codes of `PROOF_IS_BAD`. -/
theorem proofIsBad_isSome_iff (n : ℕ) :
    (proofIsBad n).isSome = true ↔ n ∈ [2, 3, 4, 5, 11] := by
  unfold proofIsBad
  split <;> simp_all

/-- **The error envelope.** A status 400 is a "no" exactly when its `error` is a string
that is not blank. -/
theorem classifyRejection_overThreshold_iff (error : Value) (b : Bool) :
    (classifyRejection error).overThreshold = some b ↔
      b = false ∧ ∃ s, error = .string s ∧ ∃ c ∈ s.toList, isSpace c = false := by
  cases error with
  | string s =>
      simp only [classifyRejection, trim_eq_nil_iff, Value.string.injEq, exists_eq_left']
      by_cases hblank : ∀ c ∈ s.toList, isSpace c = true
      · rw [if_pos hblank]
        refine iff_of_false (by simp) ?_
        rintro ⟨-, c, hc, hns⟩
        exact absurd (hblank c hc) (by simp [hns])
      · rw [if_neg hblank, overThreshold_answered, Option.some.injEq]
        push Not at hblank
        obtain ⟨c, hc, hns⟩ := hblank
        refine ⟨fun h => ⟨h.symm, c, hc, by simpa using hns⟩, fun h => h.1.symm⟩
  | _ => simp [classifyRejection]

/-- A message that is missing is not a verification failure, and neither is its text. -/
theorem wholeNumeral_of_nullish (rt : Runtime) {message : Value} (h : message.nullish = true) :
    (message.orElse (.string "")).stringOf rt = .ok "" ∧
      wholeNumeral verifyFailure "".toList = none ∧
      ∀ text digits, message.stringOf rt = .ok text →
        text.toList ≠ verifyFailure ++ digits := by
  refine ⟨by rw [Value.orElse, if_pos h, Value.stringOf_string], by decide, ?_⟩
  intro text digits htext heq
  have hfirst : text.toList.head? = some 'v' := heq ▸ rfl
  cases message with
  | undefined =>
      obtain rfl : "undefined" = text := by simpa [Value.stringOf, Value.template] using htext
      exact absurd hfirst (by decide)
  | null =>
      obtain rfl : "null" = text := by simpa [Value.stringOf, Value.template] using htext
      exact absurd hfirst (by decide)
  | _ => exact absurd h (by simp [Value.nullish])

/-- **The message of a reply that is not proven** is a "no" exactly when it reads as a
verification failure whose code is about the proof. -/
theorem gives_classifyFailure_iff (p : Platform) (message : Value) (b : Bool) :
    Gives b (classifyFailure p message) ↔
      b = false ∧ ∃ text digits, message.stringOf p.toRuntime = .ok text ∧
        text.toList = verifyFailure ++ digits ∧ digits ≠ [] ∧
        (∀ c ∈ digits, isDecimal c = true) ∧ numeralValue digits ∈ [2, 3, 4, 5, 11] := by
  by_cases hnullish : message.nullish = true
  · obtain ⟨hempty, hno, hdiffers⟩ := wholeNumeral_of_nullish p.toRuntime hnullish
    rw [classifyFailure, hempty]
    simp only [bind, Except.bind, hno, gives_ok, overThreshold_unanswerable, reduceCtorEq,
      false_iff]
    rintro ⟨-, text, digits, htext, heq, -⟩
    exact hdiffers text digits htext heq
  rw [classifyFailure, Value.orElse_of_not_nullish (by simpa using hnullish)]
  cases htext : message.stringOf p.toRuntime with
  | error e =>
      simp [bind, Except.bind]
  | ok text =>
      simp only [bind, Except.bind, Except.ok.injEq, exists_and_left, exists_eq_left']
      cases hm : wholeNumeral verifyFailure text.toList with
      | none =>
          simp only [gives_ok, overThreshold_unanswerable, reduceCtorEq, false_iff]
          rintro ⟨-, digits, heq, hne, hdec, -⟩
          rw [wholeNumeral_iff.mpr ⟨heq, hne, hdec⟩] at hm
          exact absurd hm (by simp)
      | some digits =>
          obtain ⟨heq, hne, hdec⟩ := wholeNumeral_iff.mp hm
          have hunique : ∀ digits', text.toList = verifyFailure ++ digits' → digits' = digits :=
            fun digits' h => List.append_cancel_left (h.symm.trans heq)
          cases hbad : proofIsBad (numeralValue digits) with
          | none =>
              simp only [hbad, gives_ok, overThreshold_unanswerable, reduceCtorEq, false_iff]
              rintro ⟨-, digits', heq', -, -, hcode⟩
              obtain rfl := hunique digits' heq'
              rw [← proofIsBad_isSome_iff, hbad] at hcode
              exact absurd hcode (by simp)
          | some meaning =>
              simp only [hbad, gives_ok, overThreshold_answered, Option.some.injEq]
              constructor
              · rintro rfl
                refine ⟨rfl, digits, heq, hne, hdec, ?_⟩
                rw [← proofIsBad_isSome_iff, hbad]
                rfl
              · rintro ⟨rfl, -⟩
                rfl

/-! ### The claim of a proven reply -/

section Claim

variable (p : Platform) {body : Value} (opts : ClassifyOptions)

/-- **A claim that is not there** is answered with `claim_absent`, and the answer quotes its name.
-/
theorem classifyClaim_absent (h : Absent (claimValue body opts)) :
    classifyClaim p body opts = (do
      let shown ← opts.claim.template p.toRuntime
      .ok (answered false .claimAbsent (.string ("proof carries no " ++ shown)))) := by
  rw [classifyClaim, findClaim_eq]
  exact if_pos ((absent_iff _).mpr h)

/-- Past the absent claim, its reading decides. -/
theorem classifyClaim_of_present (h : ¬Absent (claimValue body opts)) :
    classifyClaim p body opts =
      match readCborBool p (claimValue body opts) with
      | none => do
          let shown ← opts.claim.template p.toRuntime
          .ok (unanswerable .responseUnintelligible (.string ("cannot read " ++ shown)))
      | some false => do
          let shown ← opts.claim.template p.toRuntime
          .ok (answered false .claimFalse (.string (shown ++ " is false")))
      | some true =>
          if opts.currency then do
            match ← freshnessGate p body opts.now opts.tolerance with
            | some stale => .ok stale
            | none => .ok (answered true .verified opts.claim)
          else .ok (answered true .verified opts.claim) := by
  rw [classifyClaim, findClaim_eq]
  exact if_neg (mt (absent_iff _).mp h)

/-- **A claim that reads false** is answered with a verified no, and the answer quotes its name.
-/
theorem classifyClaim_false (h : ReadsAs p (claimValue body opts) false) :
    classifyClaim p body opts = (do
      let shown ← opts.claim.template p.toRuntime
      .ok (answered false .claimFalse (.string (shown ++ " is false")))) := by
  rw [classifyClaim_of_present p opts h.not_absent, (readCborBool_eq_some_iff _ _ _).mpr h]

/-- **A claim that reads true** is answered with yes, unless the currency of the credential is
required and the freshness gate objects. -/
theorem classifyClaim_true (h : ReadsAs p (claimValue body opts) true) :
    classifyClaim p body opts =
      if opts.currency then do
        match ← freshnessGate p body opts.now opts.tolerance with
        | some stale => .ok stale
        | none => .ok (answered true .verified opts.claim)
      else .ok (answered true .verified opts.claim) := by
  rw [classifyClaim_of_present p opts h.not_absent, (readCborBool_eq_some_iff _ _ _).mpr h]

/-- **A claim that cannot be read** is no answer at all: neither bit may be told from it. -/
theorem classifyClaim_unreadable (hpresent : ¬Absent (claimValue body opts))
    (h : ∀ b, ¬ReadsAs p (claimValue body opts) b) :
    classifyClaim p body opts = (do
      let shown ← opts.claim.template p.toRuntime
      .ok (unanswerable .responseUnintelligible (.string ("cannot read " ++ shown)))) := by
  have hnone : readCborBool p (claimValue body opts) = none := by
    cases hr : readCborBool p (claimValue body opts) with
    | none => rfl
    | some b => exact absurd ((readCborBool_eq_some_iff _ _ _).mp hr) (h b)
  rw [classifyClaim_of_present p opts hpresent, hnone]

/-- **The claim of a proven reply** is a "yes" exactly when it reads true and the
presentation is current where that is asked for. -/
theorem gives_true_classifyClaim_iff :
    Gives true (classifyClaim p body opts) ↔
      ReadsAs p (claimValue body opts) true ∧
        (opts.currency = true → Current p body opts.now opts.tolerance) := by
  by_cases habsent : Absent (claimValue body opts)
  · rw [classifyClaim_absent p opts habsent, gives_bind_iff]
    refine iff_of_false ?_ (fun h => h.1.not_absent habsent)
    rintro ⟨t, -, h⟩
    exact absurd h (by simp)
  by_cases hfalse : ReadsAs p (claimValue body opts) false
  · rw [classifyClaim_false p opts hfalse, gives_bind_iff]
    refine iff_of_false ?_ (fun h => absurd (h.1.unique hfalse) (by simp))
    rintro ⟨t, -, h⟩
    exact absurd h (by simp)
  by_cases htrue : ReadsAs p (claimValue body opts) true
  swap
  · rw [classifyClaim_unreadable p opts habsent (Bool.forall_bool.mpr ⟨hfalse, htrue⟩)]
    exact iff_of_false (not_gives_unanswerable _ _ _ _) (fun h => htrue h.1)
  rw [classifyClaim_true p opts htrue]
  by_cases hcurrency : opts.currency = true
  swap
  · rw [if_neg hcurrency]
    simp [htrue, hcurrency]
  rw [if_pos hcurrency]
  rcases freshnessGate_cases p body opts.now opts.tolerance with
    ⟨hg, hcur⟩ | ⟨d, hg, hst⟩ | ⟨d, hg, hncur, -⟩ | ⟨e, hg, -, -, hno⟩
  · simp [hg, bind, Except.bind, htrue, hcur]
  · simp [hg, bind, Except.bind, hcurrency, hst.not_current]
  · simp [hg, bind, Except.bind, hcurrency, hncur]
  · have hncur : ¬Current p body opts.now opts.tolerance := fun ⟨_, t, _, ht, _⟩ => hno t ht
    simp [hg, bind, Except.bind, hcurrency, hncur]

/-- **The claim of a proven reply** is a "no" exactly when it is absent, reads false, or
reads true on a stale presentation. -/
theorem gives_false_classifyClaim_iff :
    Gives false (classifyClaim p body opts) ↔
      ((Absent (claimValue body opts) ∨ ReadsAs p (claimValue body opts) false) ∧
        ∃ shown, opts.claim.template p.toRuntime = .ok shown) ∨
      (ReadsAs p (claimValue body opts) true ∧ opts.currency = true ∧
        Stale p body opts.now opts.tolerance) := by
  by_cases habsent : Absent (claimValue body opts)
  · have hnot : ¬ReadsAs p (claimValue body opts) true := fun h => h.not_absent habsent
    rw [classifyClaim_absent p opts habsent, gives_bind_iff]
    simp [habsent, hnot]
  by_cases hfalse : ReadsAs p (claimValue body opts) false
  · have hnot : ¬ReadsAs p (claimValue body opts) true :=
      fun h => absurd (h.unique hfalse) (by simp)
    rw [classifyClaim_false p opts hfalse, gives_bind_iff]
    simp [hfalse, hnot]
  by_cases htrue : ReadsAs p (claimValue body opts) true
  swap
  · rw [classifyClaim_unreadable p opts habsent (Bool.forall_bool.mpr ⟨hfalse, htrue⟩)]
    refine iff_of_false (not_gives_unanswerable _ _ _ _) ?_
    simp [habsent, hfalse, htrue]
  rw [classifyClaim_true p opts htrue]
  by_cases hcurrency : opts.currency = true
  swap
  · rw [if_neg hcurrency]
    simp [habsent, hfalse, hcurrency]
  rw [if_pos hcurrency]
  rcases freshnessGate_cases p body opts.now opts.tolerance with
    ⟨hg, hcur⟩ | ⟨d, hg, hst⟩ | ⟨d, hg, -, hnst⟩ | ⟨e, hg, -, -, hno⟩
  · have hnst : ¬Stale p body opts.now opts.tolerance := fun h => h.not_current hcur
    simp [hg, bind, Except.bind, habsent, hfalse, hnst]
  · simp [hg, bind, Except.bind, htrue, hcurrency, hst]
  · simp [hg, bind, Except.bind, habsent, hfalse, hnst]
  · have hnst : ¬Stale p body opts.now opts.tolerance := fun ⟨_, t, _, ht, _⟩ => hno t ht
    simp [hg, bind, Except.bind, habsent, hfalse, hnst]

end Claim

/-! ### The two bits -/

/-- **The "yes"** is given on exactly its evidence. -/
theorem gives_true_iff (p : Platform) (raw : Value) (opts : ClassifyOptions) :
    Gives true (classify p raw opts) ↔ Accepts p raw opts := by
  rw [gives_classify_iff]
  constructor
  · rintro (⟨-, h⟩ | ⟨-, -, h⟩ | ⟨hr, h⟩)
    · exact absurd ((classifyRejection_overThreshold_iff _ _).mp h).1 (by simp)
    · exact absurd ((gives_classifyFailure_iff _ _ _).mp h).1 (by simp)
    · obtain ⟨hclaim, hcurrent⟩ := (gives_true_classifyClaim_iff p opts).mp h
      exact ⟨hr, hclaim, hcurrent⟩
  · intro h
    exact Or.inr (Or.inr ⟨h.toProven,
      (gives_true_classifyClaim_iff p opts).mpr ⟨h.claim, h.current⟩⟩)

/-- **The "no"** is given on exactly its evidence. -/
theorem gives_false_iff (p : Platform) (raw : Value) (opts : ClassifyOptions) :
    Gives false (classify p raw opts) ↔ Denies p raw opts := by
  rw [gives_classify_iff]
  constructor
  · rintro (⟨hr, h⟩ | ⟨hr, hstatus, h⟩ | ⟨hr, h⟩)
    · obtain ⟨-, s, hs, hnb⟩ := (classifyRejection_overThreshold_iff _ _).mp h
      exact .refused s hr hs hnb
    · obtain ⟨-, text, digits, htext, heq, hne, hdec, hcode⟩ :=
        (gives_classifyFailure_iff _ _ _).mp h
      exact .disproved text digits hr hstatus htext heq hne hdec hcode
    · rcases (gives_false_classifyClaim_iff p opts).mp h with
        ⟨habsent | hfalse, hquoted⟩ | ⟨htrue, hcurrency, hstale⟩
      · exact .absent hr habsent hquoted
      · exact .isFalse hr hfalse hquoted
      · exact .stale hr htrue hcurrency hstale
  · intro h
    cases h with
    | refused s hr hs hnb =>
        exact Or.inl ⟨hr, (classifyRejection_overThreshold_iff _ _).mpr ⟨rfl, s, hs, hnb⟩⟩
    | disproved text digits hr hstatus htext heq hne hdec hcode =>
        exact Or.inr (Or.inl ⟨hr, hstatus, (gives_classifyFailure_iff _ _ _).mpr
          ⟨rfl, text, digits, htext, heq, hne, hdec, hcode⟩⟩)
    | absent hr habsent hquoted =>
        exact Or.inr (Or.inr ⟨hr, (gives_false_classifyClaim_iff p opts).mpr
          (Or.inl ⟨Or.inl habsent, hquoted⟩)⟩)
    | isFalse hr hfalse hquoted =>
        exact Or.inr (Or.inr ⟨hr, (gives_false_classifyClaim_iff p opts).mpr
          (Or.inl ⟨Or.inr hfalse, hquoted⟩)⟩)
    | stale hr htrue hcurrency hstale =>
        exact Or.inr (Or.inr ⟨hr, (gives_false_classifyClaim_iff p opts).mpr
          (Or.inr ⟨htrue, hcurrency, hstale⟩)⟩)

/-- **The bit is given on exactly the documented evidence.** -/
theorem classify_gives_exactly (p : Platform) (raw : Value) (opts : ClassifyOptions) :
    (Gives true (classify p raw opts) ↔ Accepts p raw opts) ∧
      (Gives false (classify p raw opts) ↔ Denies p raw opts) :=
  ⟨gives_true_iff p raw opts, gives_false_iff p raw opts⟩

/-! ### The shape of a verdict -/

/-- The verdict of a quoting branch is stateless if the verdict it quotes into is. -/
theorem stateless_quote {shown : Completion String} {verdict : String → Verdict} {v : Verdict}
    (hv : shown >>= (fun t => .ok (verdict t)) = .ok v)
    (h : ∀ t, (verdict t).Stateless) : v.Stateless := by
  obtain ⟨t, -, ht⟩ := bind_eq_ok.mp hv
  obtain rfl := Except.ok.inj ht
  exact h t

/-- The verdict on a refusal is well formed, and its reason is none of the single-use gate. -/
theorem classifyRejection_stateless (error : Value) : (classifyRejection error).Stateless := by
  cases error with
  | string s =>
      rw [classifyRejection]
      split
      · exact ⟨rfl, by simp⟩
      · split <;> exact ⟨rfl, by simp⟩
  | _ => exact ⟨rfl, by simp [classifyRejection]⟩

/-- So is the verdict on a proof that failed, if its message has a text. -/
theorem classifyFailure_stateless {p : Platform} {message : Value} {v : Verdict}
    (h : classifyFailure p message = .ok v) : v.Stateless := by
  obtain ⟨text, -, h⟩ := bind_eq_ok.mp h
  split at h
  · obtain rfl := Except.ok.inj h
    split <;> exact ⟨rfl, by simp⟩
  · split at h <;> obtain rfl := Except.ok.inj h <;> exact ⟨rfl, by simp⟩

/-- So is the verdict on a claim, if what it quotes has a text. -/
theorem classifyClaim_stateless {p : Platform} {body : Value} {opts : ClassifyOptions}
    {v : Verdict} (h : classifyClaim p body opts = .ok v) : v.Stateless := by
  by_cases habsent : Absent (claimValue body opts)
  · rw [classifyClaim_absent p opts habsent] at h
    exact stateless_quote h fun _ => ⟨rfl, by simp⟩
  rw [classifyClaim_of_present p opts habsent] at h
  split at h
  · exact stateless_quote h fun _ => ⟨rfl, by simp⟩
  · exact stateless_quote h fun _ => ⟨rfl, by simp⟩
  split at h
  swap
  · obtain rfl := Except.ok.inj h
    exact ⟨rfl, by simp⟩
  rcases freshnessGate_cases p body opts.now opts.tolerance with
    ⟨hg, -⟩ | ⟨d, hg, -⟩ | ⟨d, hg, -⟩ | ⟨e, hg, -⟩
  all_goals rw [hg] at h
  · obtain rfl := Except.ok.inj h
    exact ⟨rfl, by simp⟩
  · obtain rfl := Except.ok.inj h
    exact ⟨rfl, by simp⟩
  · obtain rfl := Except.ok.inj h
    exact ⟨rfl, by simp⟩
  · cases h

/-- **Every verdict of `classify` says what its reason is documented to say**, and the
reason is not one of the single-use gate. -/
theorem classify_stateless {p : Platform} {raw : Value} {opts : ClassifyOptions} {v : Verdict}
    (h : classify p raw opts = .ok v) : v.Stateless := by
  by_cases hobj : raw.isObject = true
  swap
  · rw [classify_of_not_isObject p opts hobj] at h
    obtain rfl := Except.ok.inj h
    exact ⟨rfl, by simp⟩
  by_cases hkind : raw.get "kind" = .string "response"
  swap
  · rw [classify, if_neg (not_not.mpr hobj)] at h
    split at h
    · obtain rfl := Except.ok.inj h
      exact ⟨rfl, by simp⟩
    · obtain rfl := Except.ok.inj h
      exact ⟨rfl, by simp⟩
    · obtain rfl := Except.ok.inj h
      exact ⟨rfl, by simp⟩
    · obtain rfl := Except.ok.inj h
      exact ⟨rfl, by simp⟩
    · next hresponse => exact absurd hresponse hkind
    · exact stateless_quote h fun _ => ⟨rfl, by simp⟩
  rw [classify_of_response p opts hobj hkind, classifyResponse] at h
  split at h
  · exact stateless_quote h fun _ => ⟨rfl, by simp⟩
  split at h
  · obtain rfl := Except.ok.inj h
    exact classifyRejection_stateless _
  split at h
  · exact stateless_quote h fun _ => ⟨rfl, by simp⟩
  split at h
  · exact classifyFailure_stateless h
  · exact classifyClaim_stateless h

/-- An accept is a verdict on the evidence for a "yes". -/
theorem isAccept_iff_accepts {p : Platform} {raw : Value} {opts : ClassifyOptions}
    {verdict : Verdict} (h : classify p raw opts = .ok verdict) :
    verdict.IsAccept ↔ Accepts p raw opts := by
  rw [(classify_stateless h).wellFormed.isAccept_iff, ← gives_true_iff, h, gives_ok]

/-- An object without a text, as `JSON.parse` makes one. -/
def hostileObject : Value :=
  .object [("toString", .null)]

/-- A proven reply whose claims are empty. -/
def emptyReply : Value :=
  .object [("kind", .string "response"), ("status", .ofNat 200),
    ("body", .object [("Status", .boolean true), ("Claims", .object [])])]

/-- The options that ask for a claim without a text. -/
def hostileOptions : ClassifyOptions where
  requiredClaim := hostileObject
  requireCurrentValidity := .undefined
  toleranceMs := .undefined
  now := .undefined

/-- An absent claim alone is no evidence for a "no": where the identifier has no text,
there is no verdict to carry one. -/
theorem absent_claim_without_verdict :
    Proven emptyReply ∧
      Absent (claimValue (emptyReply.get "body") hostileOptions) ∧
      ¬Gives false (classify .sample emptyReply hostileOptions) := by
  refine ⟨⟨⟨rfl, rfl, rfl, rfl⟩, rfl⟩, Or.inl rfl, ?_⟩
  have hthrows : classify .sample emptyReply hostileOptions =
      .error (.typeError "Cannot convert object to primitive value") := by rfl
  rw [hthrows]
  exact not_gives_error _ _

/-! ### Where `classify` throws -/

/-- The exchanges that `classify` cannot get through: each constructor is a place where a
value is quoted that has no text. -/
inductive Unreadable (p : Platform) (raw : Value) (opts : ClassifyOptions) (e : Thrown) : Prop
  | kind (isObject : raw.isObject = true)
      (unquotable : (raw.get "kind").template p.toRuntime = .error e)
  | status (isObject : raw.isObject = true) (kind : raw.get "kind" = .string "response")
      (other : (raw.get "body").isObject = true → raw.get "status" ≠ .ofNat 400 ∧
        raw.get "status" ≠ .ofNat 200)
      (unquotable : (raw.get "status").template p.toRuntime = .error e)
  | message (replied : Replied raw 200) (status : (raw.get "body").get "Status" ≠ .boolean true)
      (unquotable : ((raw.get "body").get "Message").stringOf p.toRuntime = .error e)
  | claim (proven : Proven raw) (notTrue : ¬ReadsAs p (claimValue (raw.get "body") opts) true)
      (unquotable : opts.claim.template p.toRuntime = .error e)
  | tolerance (proven : Proven raw)
      (claim : ReadsAs p (claimValue (raw.get "body") opts) true)
      (currency : opts.currency = true)
      (dated : ∃ skew, Skew p (raw.get "body") opts.now skew)
      (unusable : ∀ tolerance, ¬Tolerance opts.tolerance tolerance)
      (unquotable : opts.tolerance.stringOf p.toRuntime = .error e)

/-- Quoting a text in a verdict throws when there is no text. -/
theorem quote_eq_error_iff (shown : Completion String) (verdict : String → Verdict)
    (e : Thrown) :
    (shown >>= fun t => (.ok (verdict t) : Completion Verdict)) = .error e ↔
      shown = .error e := by
  cases shown with
  | ok t => simp [bind, Except.bind]
  | error e' => simp [bind, Except.bind]

/-- The verdict on a failed proof throws exactly when its message has no text. -/
theorem classifyFailure_eq_error_iff (p : Platform) (message : Value) (e : Thrown) :
    classifyFailure p message = .error e ↔ message.stringOf p.toRuntime = .error e := by
  have hquoted : classifyFailure p message = .error e ↔
      (message.orElse (.string "")).stringOf p.toRuntime = .error e := by
    rw [classifyFailure, bind_eq_error]
    refine or_iff_left ?_
    rintro ⟨text, -, h⟩
    split at h
    · cases h
    · split at h <;> cases h
  rw [hquoted]
  by_cases hnullish : message.nullish = true
  · obtain ⟨text, htext⟩ := Value.stringOf_of_nullish p.toRuntime hnullish
    rw [Value.orElse, if_pos hnullish, Value.stringOf_string, htext]
    exact iff_of_false (by simp) (by simp)
  · rw [Value.orElse_of_not_nullish (by simpa using hnullish)]

/-- The freshness gate quotes the tolerance when there is a skew and nothing to compare it
with. -/
theorem freshnessGate_eq_error_iff (p : Platform) (body now toleranceMs : Value) (e : Thrown) :
    freshnessGate p body now toleranceMs = .error e ↔
      (∃ skew, Skew p body now skew) ∧ (∀ tolerance, ¬Tolerance toleranceMs tolerance) ∧
        toleranceMs.stringOf p.toRuntime = .error e := by
  constructor
  · intro h
    rcases freshnessGate_cases p body now toleranceMs with
      ⟨hg, -⟩ | ⟨d, hg, -⟩ | ⟨d, hg, -⟩ | ⟨e', hg, hshown, hdated, hno⟩
    · exact absurd (hg.symm.trans h) (by simp)
    · exact absurd (hg.symm.trans h) (by simp)
    · exact absurd (hg.symm.trans h) (by simp)
    · obtain rfl := Except.error.inj (hg.symm.trans h)
      exact ⟨hdated, hno, hshown⟩
  · rintro ⟨⟨skew, dated, stamp, t, hdated, hstamp, rfl, -⟩, hno, hshown⟩
    have hparse := parseTimestamp_eq_some_iff.mpr ⟨hdated, hstamp⟩
    have hnone : usableTolerance toleranceMs = none := by
      rw [Option.eq_none_iff_forall_ne_some]
      intro tolerance h
      exact hno tolerance ((usableTolerance_eq_some_iff _ _).mp h)
    rw [freshnessGate, hparse]
    simp only [Value.finite?, hnone, hshown]
    rfl

/-- **When the verdict on a claim throws**: when the name of the claim has no text and has to be
quoted, or when a tolerance that cannot be used has to be quoted and has none. -/
theorem classifyClaim_eq_error_iff (p : Platform) {body : Value} (opts : ClassifyOptions)
    (e : Thrown) :
    classifyClaim p body opts = .error e ↔
      (¬ReadsAs p (claimValue body opts) true ∧ opts.claim.template p.toRuntime = .error e) ∨
      (ReadsAs p (claimValue body opts) true ∧ opts.currency = true ∧
        (∃ skew, Skew p body opts.now skew) ∧
        (∀ tolerance, ¬Tolerance opts.tolerance tolerance) ∧
        opts.tolerance.stringOf p.toRuntime = .error e) := by
  by_cases htrue : ReadsAs p (claimValue body opts) true
  swap
  · -- Every branch but the accept quotes the identifier.
    have hquoted : classifyClaim p body opts = .error e ↔
        opts.claim.template p.toRuntime = .error e := by
      by_cases habsent : Absent (claimValue body opts)
      · rw [classifyClaim_absent p opts habsent, quote_eq_error_iff]
      by_cases hfalse : ReadsAs p (claimValue body opts) false
      · rw [classifyClaim_false p opts hfalse, quote_eq_error_iff]
      · rw [classifyClaim_unreadable p opts habsent (Bool.forall_bool.mpr ⟨hfalse, htrue⟩),
          quote_eq_error_iff]
    rw [hquoted]
    simp [htrue]
  rw [classifyClaim_true p opts htrue]
  by_cases hcurrency : opts.currency = true
  swap
  · rw [if_neg hcurrency]
    simp [htrue, hcurrency]
  rw [if_pos hcurrency, bind_eq_error, freshnessGate_eq_error_iff]
  have hverdict : ∀ stale : Option Verdict,
      (match stale with
        | some stale => .ok stale
        | none => .ok (answered true .verified opts.claim) : Completion Verdict) ≠ .error e := by
    rintro (- | stale) <;> simp
  simp [htrue, hcurrency, hverdict]

/-- **`classify` throws in exactly the places where it quotes a value without a text.** -/
theorem classify_throws_iff (p : Platform) (raw : Value) (opts : ClassifyOptions)
    (e : Thrown) : classify p raw opts = .error e ↔ Unreadable p raw opts e := by
  constructor
  · intro h
    have hobj : raw.isObject = true := by
      by_contra hno
      rw [classify_of_not_isObject p opts hno] at h
      exact absurd h (by simp)
    by_cases hkind : raw.get "kind" = .string "response"
    swap
    · rcases classify_of_other_kind p opts hobj hkind with ⟨-, r, -, hr⟩ | hr
      · exact absurd (hr.symm.trans h) (by simp)
      · rw [hr, quote_eq_error_iff] at h
        exact .kind hobj h
    rw [classify_of_response p opts hobj hkind] at h
    by_cases hbody : (raw.get "body").isObject = true
    swap
    · rw [classifyResponse_of_not_isObject p opts hbody, quote_eq_error_iff] at h
      exact .status hobj hkind (fun hb => absurd hb hbody) h
    by_cases h400 : raw.get "status" = .ofNat 400
    · rw [classifyResponse_refusal p opts hbody h400] at h
      exact absurd h (by simp)
    by_cases h200 : raw.get "status" = .ofNat 200
    swap
    · rw [classifyResponse_of_other_status p opts hbody h400 h200, quote_eq_error_iff] at h
      exact .status hobj hkind (fun _ => ⟨h400, h200⟩) h
    have hreplied : Replied raw 200 := ⟨hobj, hkind, hbody, h200⟩
    by_cases hproven : (raw.get "body").get "Status" = .boolean true
    · rw [classifyResponse_claim p opts hbody h200 hproven, classifyClaim_eq_error_iff] at h
      rcases h with ⟨hclaim, h⟩ | ⟨hclaim, hcurrency, hdated, hno, h⟩
      · exact .claim ⟨hreplied, hproven⟩ hclaim h
      · exact .tolerance ⟨hreplied, hproven⟩ hclaim hcurrency hdated hno h
    · rw [classifyResponse_failure p opts hbody h200 hproven, classifyFailure_eq_error_iff] at h
      exact .message hreplied hproven h
  · intro h
    cases h with
    | kind hobj h =>
        have hno : ∀ s, raw.get "kind" ≠ .string s := by
          intro s hs
          rw [hs, Value.template_string] at h
          exact absurd h (by simp)
        rcases classify_of_other_kind p opts hobj (hno _) with ⟨s, -, hs, -⟩ | hr
        · exact absurd hs (hno s)
        · rwa [hr, quote_eq_error_iff]
    | status hobj hkind hother h =>
        rw [classify_of_response p opts hobj hkind]
        by_cases hbody : (raw.get "body").isObject = true
        · rwa [classifyResponse_of_other_status p opts hbody (hother hbody).1 (hother hbody).2,
            quote_eq_error_iff]
        · rwa [classifyResponse_of_not_isObject p opts hbody, quote_eq_error_iff]
    | message hr hstatus h =>
        rwa [classify_of_response p opts hr.isObject hr.kind,
          classifyResponse_failure p opts hr.body hr.status hstatus, classifyFailure_eq_error_iff]
    | claim hr hclaim h =>
        rw [classify_of_response p opts hr.isObject hr.kind,
          classifyResponse_claim p opts hr.body hr.status hr.proven, classifyClaim_eq_error_iff]
        exact Or.inl ⟨hclaim, h⟩
    | tolerance hr hclaim hcurrency hdated hno h =>
        rw [classify_of_response p opts hr.isObject hr.kind,
          classifyResponse_claim p opts hr.body hr.status hr.proven, classifyClaim_eq_error_iff]
        exact Or.inr ⟨hclaim, hcurrency, hdated, hno, h⟩

/-! ### The verdict that always comes -/

/-- The values that `classify` puts into a text: each constructor is one of its templates
and `String` calls, with the exchanges that reach it. -/
inductive Quotes (p : Platform) (raw : Value) (opts : ClassifyOptions) : Value → Prop
  | kind (isObject : raw.isObject = true) : Quotes p raw opts (raw.get "kind")
  | status (isObject : raw.isObject = true) (kind : raw.get "kind" = .string "response")
      (other : (raw.get "body").isObject = true → raw.get "status" ≠ .ofNat 400 ∧
        raw.get "status" ≠ .ofNat 200) : Quotes p raw opts (raw.get "status")
  | message (replied : Replied raw 200) (status : (raw.get "body").get "Status" ≠ .boolean true)
      (shown : ((raw.get "body").get "Message").typeOf ≠ "symbol") :
      Quotes p raw opts ((raw.get "body").get "Message")
  | claim (proven : Proven raw) (notTrue : ¬ReadsAs p (claimValue (raw.get "body") opts) true) :
      Quotes p raw opts opts.claim
  | tolerance (proven : Proven raw)
      (claim : ReadsAs p (claimValue (raw.get "body") opts) true)
      (currency : opts.currency = true)
      (dated : ∃ skew, Skew p (raw.get "body") opts.now skew)
      (unusable : ∀ tolerance, ¬Tolerance opts.tolerance tolerance)
      (shown : opts.tolerance.typeOf ≠ "symbol") : Quotes p raw opts opts.tolerance

/-- The exchange has no verdict when a value it quotes has no text. -/
theorem exists_unreadable_iff (p : Platform) (raw : Value) (opts : ClassifyOptions) :
    (∃ e, Unreadable p raw opts e) ↔
      ∃ v, Quotes p raw opts v ∧ v.textless p.toRuntime = true := by
  have throws := Value.template_throws_iff p.toRuntime
  have stringThrows := Value.stringOf_throws_iff p.toRuntime
  constructor
  · rintro ⟨e, h⟩
    cases h with
    | kind hobj h => exact ⟨_, .kind hobj, (throws _).mp ⟨e, h⟩⟩
    | status hobj hkind hother h => exact ⟨_, .status hobj hkind hother, (throws _).mp ⟨e, h⟩⟩
    | message hr hstatus h =>
        obtain ⟨htextless, hshown⟩ := (stringThrows _).mp ⟨e, h⟩
        exact ⟨_, .message hr hstatus hshown, htextless⟩
    | claim hr hclaim h => exact ⟨_, .claim hr hclaim, (throws _).mp ⟨e, h⟩⟩
    | tolerance hr hclaim hcurrency hdated hno h =>
        obtain ⟨htextless, hshown⟩ := (stringThrows _).mp ⟨e, h⟩
        exact ⟨_, .tolerance hr hclaim hcurrency hdated hno hshown, htextless⟩
  · rintro ⟨v, hquotes, htextless⟩
    cases hquotes with
    | kind hobj =>
        obtain ⟨e, h⟩ := (throws _).mpr htextless
        exact ⟨e, .kind hobj h⟩
    | status hobj hkind hother =>
        obtain ⟨e, h⟩ := (throws _).mpr htextless
        exact ⟨e, .status hobj hkind hother h⟩
    | message hr hstatus hshown =>
        obtain ⟨e, h⟩ := (stringThrows _).mpr ⟨htextless, hshown⟩
        exact ⟨e, .message hr hstatus h⟩
    | claim hr hclaim =>
        obtain ⟨e, h⟩ := (throws _).mpr htextless
        exact ⟨e, .claim hr hclaim h⟩
    | tolerance hr hclaim hcurrency hdated hno hshown =>
        obtain ⟨e, h⟩ := (stringThrows _).mpr ⟨htextless, hshown⟩
        exact ⟨e, .tolerance hr hclaim hcurrency hdated hno h⟩

/-- **`classify` returns a verdict, and a well-formed one, exactly when every value it
quotes has a text.** The reason is one of `REASONS`, the pair is the documented one, and no
answer means `null`. -/
theorem classify_wellFormed_iff (p : Platform) (raw : Value) (opts : ClassifyOptions) :
    (∃ v, classify p raw opts = .ok v ∧ v.WellFormed ∧ v.Sound) ↔
      ∀ v, Quotes p raw opts v → v.textless p.toRuntime = false := by
  have hthrows : (∃ e, classify p raw opts = .error e) ↔
      ∃ v, Quotes p raw opts v ∧ v.textless p.toRuntime = true := by
    simp only [classify_throws_iff, exists_unreadable_iff]
  constructor
  · rintro ⟨v, hv, -⟩ w hquotes
    by_contra htextless
    obtain ⟨e, he⟩ := hthrows.mpr ⟨w, hquotes, by simpa using htextless⟩
    exact absurd (hv.symm.trans he) (by simp)
  · intro htexts
    cases hc : classify p raw opts with
    | ok v =>
        have hformed := (classify_stateless hc).wellFormed
        exact ⟨v, rfl, hformed, hformed.sound⟩
    | error e =>
        obtain ⟨w, hquotes, htextless⟩ := hthrows.mp ⟨e, hc⟩
        exact absurd (htexts w hquotes) (by simp [htextless])

/-- A reply whose failure message is an object without a text. -/
def hostileMessageReply : Value :=
  .object [("kind", .string "response"), ("status", .ofNat 200),
    ("body", .object [("Status", .boolean false), ("Message", hostileObject)])]

/-- No options at all. -/
def noOptions : ClassifyOptions where
  requiredClaim := .undefined
  requireCurrentValidity := .undefined
  toleranceMs := .undefined
  now := .undefined

/-- A reply that `JSON.parse` can produce makes `classify` throw. -/
theorem hostile_message_throws :
    ¬∃ v, classify .sample hostileMessageReply noOptions = .ok v ∧ v.WellFormed ∧ v.Sound := by
  rintro ⟨v, hv, -⟩
  have hthrows : classify .sample hostileMessageReply noOptions =
      .error (.typeError "Cannot convert object to primitive value") := by rfl
  exact absurd (hv.symm.trans hthrows) (by simp)

end EightEen
