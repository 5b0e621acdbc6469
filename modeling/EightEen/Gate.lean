import EightEen.Verifier

/-!
# The Gate

The construction of the HTTP gate of `src/gate.js`: `createGate` looks at its options once
and refuses what it could not bound or could not keep replay-safe. A `Gate` carries what has
been established about it: positive bounds, and a verifier that enforces single use unless
replay was allowed.

## Main results

* `createGate_ok_iff`: what `createGate` admits.
* `Gate.replaySafe`: the invariant of every gate there is.
-/

open Js

namespace EightEen

/-- A positive bound. -/
abbrev Bound := {q : ℚ // 0 < q}

theorem positiveFinite_eq_some_iff (v : Value) (q : ℚ) :
    positiveFinite v = some q ↔ v = .number (.finite q) ∧ 0 < q := by
  rw [positiveFinite]
  cases h : v.finite? with
  | none =>
      refine ⟨fun hc => absurd hc (by simp), ?_⟩
      rintro ⟨rfl, -⟩
      cases h
  | some t =>
      obtain rfl := (Value.finite?_eq_some_iff v t).mp h
      dsimp only
      split
      · next hle =>
          refine ⟨fun hc => absurd hc (by simp), ?_⟩
          rintro ⟨heq, hpos⟩
          obtain rfl : t = q := Number.finite.inj (Value.number.inj heq)
          exact absurd hle (not_le.mpr hpos)
      · next hpos =>
          constructor
          · intro heq
            obtain rfl := Option.some.inj heq
            exact ⟨rfl, not_le.mp hpos⟩
          · rintro ⟨heq, -⟩
            rw [Number.finite.inj (Value.number.inj heq)]

/-- `posNum(v, name)`. -/
def posNum (p : Platform) (v : Value) (name : String) : Completion Bound :=
  match h : positiveFinite v with
  | some q => .ok ⟨q, ((positiveFinite_eq_some_iff v q).mp h).2⟩
  | none => v.throwShowing p.toRuntime (name ++ " must be a positive finite number, got ")

theorem posNum_eq_ok_iff (p : Platform) (v : Value) (name : String) (b : Bound) :
    posNum p v name = .ok b ↔ v = .number (.finite b.val) := by
  rw [posNum]
  split
  · next q h =>
      obtain ⟨rfl, hpos⟩ := (positiveFinite_eq_some_iff v q).mp h
      constructor
      · intro heq
        rw [← Except.ok.inj heq]
      · intro heq
        have hq : q = b.val := Number.finite.inj (Value.number.inj heq)
        exact congrArg Except.ok (Subtype.ext hq)
  · next h =>
      refine ⟨fun hc => absurd hc (Value.throwShowing_ne_ok _ _ _ _), fun heq => ?_⟩
      rw [(positiveFinite_eq_some_iff v b.val).mpr ⟨heq, b.property⟩] at h
      exact absurd h (by simp)

/-- The configuration of `createRateLimiter`. -/
structure RateLimit where
  limit : Bound
  windowMs : Bound

/-- A constructed gate: what its closure holds, and what `createGate` has established. -/
structure Gate where
  verifier : Value
  allowReplay : Bool
  basePath : Value
  maxBodyBytes : Bound
  maxBodyReadMs : Bound
  trustProxy : Value
  rateLimit : Option RateLimit
  replaySafe : allowReplay = false → verifier.get "requiresSingleUse" = .boolean true

/-- `DEFAULTS.rateLimit`. -/
def defaultRateLimit : Value :=
  .object [("limit", .ofNat 60), ("windowMs", .ofNat 60000)]

/-- `cfg && cfg.name`. -/
def guardedField (cfg : Value) (name : String) : Value :=
  if cfg.truthy then cfg.get name else cfg

/-- The limiter of a gate, with `none` for `rateLimit: false`. -/
def rateLimitOf (p : Platform) (opts : Value) : Completion (Option RateLimit) :=
  if (opts.get "rateLimit").strictEq (.boolean false) then .ok none
  else do
    let cfg := (opts.get "rateLimit").orElse defaultRateLimit
    let limit ← posNum p (guardedField cfg "limit") "rateLimit.limit"
    let windowMs ← posNum p (guardedField cfg "windowMs") "rateLimit.windowMs"
    .ok (some { limit, windowMs })

/-- `createGate(opts)`. -/
def createGate (p : Platform) (opts : Value) : Completion Gate :=
  let verifier := opts.get "verifier"
  if ¬opts.truthy ∨ ¬verifier.truthy ∨ ¬(verifier.get "check").isFunction ∨
      ¬(verifier.get "issueChallenge").isFunction then
    .error (.typeError "createGate needs a started verifier with issueChallenge() and check()")
  else
    let allowReplay := (opts.get "allowReplay").strictEq (.boolean true)
    if hsafe : ¬allowReplay ∧ ¬(verifier.get "requiresSingleUse").strictEq (.boolean true) then
      .error (.typeError ("createGate is replay-safe by default: pass a verifier started with " ++
        "requireSingleUse, or set allowReplay:true to deliberately wrap a replay-open verifier"))
    else do
      let maxBodyBytes ←
        posNum p ((opts.get "maxBodyBytes").orElse (.ofNat 1000000)) "maxBodyBytes"
      let maxBodyReadMs ←
        posNum p ((opts.get "maxBodyReadMs").orElse (.ofNat 10000)) "maxBodyReadMs"
      let rateLimit ← rateLimitOf p opts
      .ok {
        verifier
        allowReplay
        basePath := (opts.get "basePath").orElse (.string "/8een")
        maxBodyBytes
        maxBodyReadMs
        trustProxy := (opts.get "trustProxy").orElse (.boolean false)
        rateLimit
        replaySafe := fun h => by
          rw [not_and, not_not] at hsafe
          exact (Value.strictEq_boolean _ _).mp (hsafe (by simp [h])) }

/-- The options bound the rate, or switch its limit off. -/
def BoundsRate (opts : Value) : Prop :=
  opts.get "rateLimit" = .boolean false ∨
    (∃ limit : Bound, guardedField ((opts.get "rateLimit").orElse defaultRateLimit) "limit" =
      .number (.finite limit.val)) ∧
    ∃ windowMs : Bound, guardedField ((opts.get "rateLimit").orElse defaultRateLimit)
      "windowMs" = .number (.finite windowMs.val)

/-- The options bound the size of a body, the time to read it, and the rate. -/
structure Bounded (opts : Value) : Prop where
  bytes : ∃ b : Bound,
    (opts.get "maxBodyBytes").orElse (.ofNat 1000000) = .number (.finite b.val)
  readMs : ∃ b : Bound,
    (opts.get "maxBodyReadMs").orElse (.ofNat 10000) = .number (.finite b.val)
  rate : BoundsRate opts

/-- The limiter is configured exactly when its bounds can be used, or when it is switched off. -/
theorem rateLimitOf_isOk_iff (p : Platform) (opts : Value) :
    (∃ r, rateLimitOf p opts = .ok r) ↔ BoundsRate opts := by
  rw [rateLimitOf, BoundsRate, ← Value.strictEq_boolean]
  split
  · next hoff => exact iff_of_true ⟨none, rfl⟩ (Or.inl hoff)
  · next hon =>
      constructor
      · rintro ⟨r, h⟩
        obtain ⟨limit, hlimit, h⟩ := bind_eq_ok.mp h
        obtain ⟨windowMs, hwindow, -⟩ := bind_eq_ok.mp h
        exact Or.inr ⟨⟨limit, (posNum_eq_ok_iff _ _ _ _).mp hlimit⟩,
          ⟨windowMs, (posNum_eq_ok_iff _ _ _ _).mp hwindow⟩⟩
      · rintro (hoff | ⟨⟨limit, hlimit⟩, ⟨windowMs, hwindow⟩⟩)
        · exact absurd hoff hon
        · refine ⟨some { limit, windowMs }, bind_eq_ok.mpr ⟨limit, ?_, bind_eq_ok.mpr
            ⟨windowMs, ?_, rfl⟩⟩⟩
          · exact (posNum_eq_ok_iff _ _ _ _).mpr hlimit
          · exact (posNum_eq_ok_iff _ _ _ _).mpr hwindow

/-- The gate over the options that were admitted. -/
structure Gate.Over (g : Gate) (opts : Value) : Prop where
  verifier : g.verifier = opts.get "verifier"
  allowReplay : g.allowReplay = (opts.get "allowReplay").strictEq (.boolean true)
  basePath : g.basePath = (opts.get "basePath").orElse (.string "/8een")

/-- **What `createGate` admits**: a started verifier that enforces single use unless replay
is allowed, and bounds that bound. -/
theorem createGate_ok_iff (p : Platform) (opts : Value) :
    (∃ g, createGate p opts = .ok g) ↔
      (opts.truthy = true ∧ (opts.get "verifier").truthy = true ∧
        ((opts.get "verifier").get "check").isFunction = true ∧
        ((opts.get "verifier").get "issueChallenge").isFunction = true) ∧
      (opts.get "allowReplay" = .boolean true ∨
        (opts.get "verifier").get "requiresSingleUse" = .boolean true) ∧ Bounded opts := by
  rw [createGate, ← Value.strictEq_boolean, ← Value.strictEq_boolean]
  dsimp only
  split
  · next hmissing =>
      refine iff_of_false (by rintro ⟨g, h⟩; cases h) ?_
      rintro ⟨⟨hopts, hverifier, hcheck, hissue⟩, -⟩
      rcases hmissing with h | h | h | h
      · exact h hopts
      · exact h hverifier
      · exact h hcheck
      · exact h hissue
  next hpresent =>
  simp only [not_or, not_not] at hpresent
  split
  · next hopen =>
      refine iff_of_false (by rintro ⟨g, h⟩; cases h) ?_
      rintro ⟨-, hallow | hsafe, -⟩
      · exact hopen.1 hallow
      · exact hopen.2 hsafe
  next hclosed =>
  rw [not_and_or, not_not, not_not] at hclosed
  constructor
  · rintro ⟨g, h⟩
    obtain ⟨bytes, hbytes, h⟩ := bind_eq_ok.mp h
    obtain ⟨readMs, hreadMs, h⟩ := bind_eq_ok.mp h
    obtain ⟨rate, hrate, -⟩ := bind_eq_ok.mp h
    exact ⟨hpresent, hclosed, ⟨bytes, (posNum_eq_ok_iff _ _ _ _).mp hbytes⟩,
      ⟨readMs, (posNum_eq_ok_iff _ _ _ _).mp hreadMs⟩,
      (rateLimitOf_isOk_iff p opts).mp ⟨rate, hrate⟩⟩
  · rintro ⟨-, -, ⟨bytes, hbytes⟩, ⟨readMs, hreadMs⟩, hrate⟩
    obtain ⟨rate, hrate⟩ := (rateLimitOf_isOk_iff p opts).mpr hrate
    exact ⟨_, bind_eq_ok.mpr ⟨bytes, (posNum_eq_ok_iff _ _ _ _).mpr hbytes,
      bind_eq_ok.mpr ⟨readMs, (posNum_eq_ok_iff _ _ _ _).mpr hreadMs,
        bind_eq_ok.mpr ⟨rate, hrate, rfl⟩⟩⟩⟩

/-- A gate is a gate over its options. -/
theorem over_of_createGate {p : Platform} {opts : Value} {g : Gate}
    (h : createGate p opts = .ok g) : g.Over opts := by
  rw [createGate] at h
  dsimp only at h
  split at h
  · cases h
  split at h
  · cases h
  obtain ⟨bytes, -, h⟩ := bind_eq_ok.mp h
  obtain ⟨readMs, -, h⟩ := bind_eq_ok.mp h
  obtain ⟨rate, -, h⟩ := bind_eq_ok.mp h
  obtain rfl := Except.ok.inj h
  exact ⟨rfl, rfl, rfl⟩

end EightEen
