import EightEen.Gate
import EightEen.Service

/-!
# Starting a Gate

The way from options to a running gate: `Verifier.start` of `src/index.js` and `startGate`
of `src/gate.js`, over whatever becomes of the service in between. Both check what they can
before the child is spawned (`Verifier.prepare`, `requireReplayDefence`), wait for the
service, and construct the rest.

`startGate` turns single use on by a default that only a missing value takes, and tests the
result for truth; `createGate` and the constructor test it again, each in its own way.

## Main results

* `construct_isOk_iff`: the policies that the constructor of `Verifier` admits.
* `startGate_replaySafe_iff`: a started gate enforces single use or was opted out of it with
  `false`, unless the options opt out silently.
* `startGate_opted_out_by_empty_text`: an empty string opts out.
-/

open Js

namespace EightEen

/-! ### `Verifier.start` -/

/-- What a start finds around it: the provisioned binary, the bytes of the generator and the
clock. -/
structure Surroundings where
  provisioned : Completion Value
  random : RandomBytes
  clock : TimeValue

/-- The `threshold` of the options. -/
def requireThreshold (p : Platform) (opts : Value) : Completion ℚ :=
  match ((opts.get "threshold").orElse (.ofNat 18)).finite? with
  | some q =>
      if q.den = 1 ∧ 1 ≤ q then .ok q
      else (opts.get "threshold").throwShowing p.toRuntime
        "threshold must be a positive integer, got "
  | none => (opts.get "threshold").throwShowing p.toRuntime
      "threshold must be a positive integer, got "

/-- `typeof v !== 'string' || v.trim() === ''`. -/
def isBlank : Value → Bool
  | .string s => trim s.toList = []
  | _ => true

/-- An empty or blank `binary` is refused. -/
def requireBinary (p : Platform) (opts : Value) : Completion Unit :=
  let binary := opts.get "binary"
  if ¬binary.nullish ∧ isBlank binary then
    match p.jsonText binary with
    | .ok shown => .error (.typeError ("binary must be a non-empty path (got " ++ shown ++
        "); omit it entirely to use the binary from provisionBinary()"))
    | .error e => .error e
  else .ok ()

/-- What `Verifier.start` has in hand when it starts the service. -/
structure Prepared where
  service : ServiceOptions
  requiredClaim : Value

namespace Verifier

/-- `Verifier.start(opts)` up to `service.start()`. -/
def prepare (p : Platform) (provisioned : Completion Value) (opts : Value) :
    Completion Prepared := do
  let threshold ← requireThreshold p opts
  requireBinary p opts
  let binary ← if (opts.get "binary").nullish then provisioned else .ok (opts.get "binary")
  let service ← ServiceOptions.construct (opts.withField "binary" binary)
  .ok { service, requiredClaim := .string ("age_over_" ++ p.numberText (.finite threshold)) }

/-- The policy that `Verifier.start` takes out of its options. -/
def policyOf (opts : Value) : Policy where
  requireCurrentValidity := opts.get "requireCurrentValidity"
  toleranceMs := opts.get "toleranceMs"
  requireSingleUse := opts.get "requireSingleUse"
  challengeSecret := opts.get "challengeSecret"
  nonceStore := opts.get "nonceStore"
  challengeTtlMs := opts.get "challengeTtlMs"

/-- `Verifier.start(opts)`, where `service.start()` ends as `started` says. -/
def start (p : Platform) (env : Surroundings) (started : Completion Unit) (opts : Value) :
    Completion Verifier := do
  let prepared ← prepare p env.provisioned opts
  started
  construct p env.random env.clock prepared.requiredClaim (policyOf opts)

/-- What a property read finds on a `Verifier`. -/
def toValue (v : Verifier) : Value :=
  .object [("check", .function "check"), ("issueChallenge", .function "issueChallenge"),
    ("requiresSingleUse", v.requiresSingleUse)]

end Verifier

/-- The constructor has nothing to say against the policy. -/
structure Policy.Admitted (p : Platform) (env : Surroundings) (policy : Policy) : Prop where
  tolerance : ∃ tolerance,
    usableTolerance (policy.toleranceMs.orElse (.ofNat 300000)) = some tolerance
  ttl : ∃ ttl, positiveFinite (policy.challengeTtlMs.orElse (.ofNat 300000)) = some ttl
  equipment : (policy.requireSingleUse.orElse (.boolean false)).truthy = true →
    requireEquipment p env.random env.clock policy
      (policy.challengeTtlMs.orElse (.ofNat 300000)) = .ok ()

/-- **The policies that the constructor admits.** -/
theorem construct_isOk_iff (p : Platform) (env : Surroundings) (requiredClaim : Value)
    (policy : Policy) :
    (∃ v, Verifier.construct p env.random env.clock requiredClaim policy = .ok v) ↔
      policy.Admitted p env := by
  rw [Verifier.construct]
  dsimp only
  split
  · next hnone =>
      refine iff_of_false ?_ fun h => ?_
      · rintro ⟨v, h⟩
        exact Value.throwShowing_ne_ok _ _ _ _ h
      · obtain ⟨tolerance, hsome⟩ := h.tolerance
        rw [hnone] at hsome
        cases hsome
  next tolerance htolerance =>
  split
  · next hnone =>
      refine iff_of_false ?_ fun h => ?_
      · rintro ⟨v, h⟩
        exact Value.throwShowing_ne_ok _ _ _ _ h
      · obtain ⟨ttl, hsome⟩ := h.ttl
        rw [hnone] at hsome
        cases hsome
  next ttl httl =>
  split
  · next e hequip =>
      refine iff_of_false (by rintro ⟨v, h⟩; cases h) fun h => ?_
      split at hequip
      · next hsingle =>
          rw [h.equipment hsingle] at hequip
          cases hequip
      · cases hequip
  · next hequip =>
      refine iff_of_true ⟨_, rfl⟩ ⟨⟨tolerance, htolerance⟩, ⟨ttl, httl⟩, fun hsingle => ?_⟩
      rwa [if_pos hsingle] at hequip

/-! ### `startGate` -/

/-- A `new InMemoryNonceStore()`, as a property read finds it. -/
def memoryStore : Value :=
  .object [("spend", .function "spend")]

/-- What `startGate` asks of its options when single use is on. -/
def requireReplayDefence (challengeSecret nonceStore : Value) : Completion Unit :=
  if challengeSecret.nullish then
    .error (.typeError ("startGate is replay-safe by default and needs a challengeSecret (>= 16 " ++
      "bytes); pass requireSingleUse:false to deliberately run replay-open"))
  else if (challengeSecret.typeOf ≠ "string" ∧ (toBuffer challengeSecret).isNone) ∨
      secretLength challengeSecret < 16 then
    .error (.typeError ("startGate needs a challengeSecret of at least 16 bytes " ++
      "(Buffer/Uint8Array or string)"))
  else if nonceStore.nullish ∨ ¬(nonceStore.get "spend").isFunction then
    .error (.typeError ("startGate is replay-safe by default and needs a nonceStore with an " ++
      "atomic spend(key, ttlMs) (e.g. Redis SET NX PX), or store:\"memory\" for " ++
      "single-process dev; pass requireSingleUse:false to deliberately run replay-open"))
  else .ok ()

/-- `opts.requireSingleUse ?? true`. -/
def singleUseOf (opts : Value) : Value :=
  (opts.get "requireSingleUse").orElse (.boolean true)

/-- The explicit store, or the development shortcut. -/
def storeOf (opts : Value) : Value :=
  if (opts.get "nonceStore").nullish ∧ (opts.get "store").strictEq (.string "memory") then
    memoryStore
  else opts.get "nonceStore"

/-- The options that `startGate` passes on to `Verifier.start`. -/
def verifierOptions (opts : Value) : Value :=
  (opts.withField "requireSingleUse" (singleUseOf opts)).withField "nonceStore" (storeOf opts)

/-- The options that `startGate` passes on to `createGate`. -/
def gateOptions (opts : Value) (v : Verifier) : Value :=
  .object [("verifier", v.toValue), ("allowReplay", .boolean !(singleUseOf opts).truthy),
    ("basePath", opts.get "basePath"), ("maxBodyBytes", opts.get "maxBodyBytes"),
    ("maxBodyReadMs", opts.get "maxBodyReadMs"), ("rateLimit", opts.get "rateLimit"),
    ("trustProxy", opts.get "trustProxy")]

/-- `startGate(opts)` up to `Verifier.start`. -/
def prepareGate (opts : Value) : Completion Unit :=
  if ¬opts.isObject then
    .error (.typeError "startGate needs service options (binary, circuitDir, caCerts, ...)")
  else if (singleUseOf opts).truthy then
    requireReplayDefence (opts.get "challengeSecret") (storeOf opts)
  else .ok ()

/-- `startGate(opts)`, where `service.start()` ends as `started` says. -/
def startGate (p : Platform) (env : Surroundings) (started : Completion Unit) (opts : Value) :
    Completion (Gate × Verifier) := do
  prepareGate opts
  let verifier ← Verifier.start p env started (verifierOptions opts)
  let gate ← createGate p (gateOptions opts verifier)
  .ok (gate, verifier)

/-! ### Replay safety -/

/-- The verifier enforces single use, and has what it takes. -/
structure Enforces (v : Verifier) : Prop where
  required : v.requiresSingleUse = .boolean true
  secret : 16 ≤ (secretKey v.challengeSecret).length
  store : (v.nonceStore.get "spend").isFunction = true

/-- Single use is switched off by a value that is neither missing nor `false`: `0`, `-0`,
`0n`, `NaN` or the empty string. -/
def SilentOptOut (opts : Value) : Prop :=
  (opts.get "requireSingleUse").truthy = false ∧ (opts.get "requireSingleUse").nullish = false ∧
    opts.get "requireSingleUse" ≠ .boolean false

/-- Everything else that a start without single use asks for is in order. -/
structure OtherwiseInOrder (p : Platform) (env : Surroundings) (started : Completion Unit)
    (opts : Value) : Prop where
  object : opts.isObject = true
  prepared : ∃ prepared,
    Verifier.prepare p env.provisioned (verifierOptions opts) = .ok prepared
  started : started = .ok ()
  tolerance : ∃ tolerance,
    usableTolerance ((opts.get "toleranceMs").orElse (.ofNat 300000)) = some tolerance
  ttl : ∃ ttl, positiveFinite ((opts.get "challengeTtlMs").orElse (.ofNat 300000)) = some ttl
  bounded : Bounded opts

theorem nullish_singleUseOf (opts : Value) : (singleUseOf opts).nullish = false := by
  rw [singleUseOf, Value.orElse]
  split
  · rfl
  · next h => simpa using h

/-- A value that switches single use off was there. -/
theorem singleUseOf_of_falsy {opts : Value} (h : (singleUseOf opts).truthy = false) :
    singleUseOf opts = opts.get "requireSingleUse" := by
  rw [singleUseOf, Value.orElse] at h ⊢
  split at h
  · exact absurd h (by decide)
  · next hthere => rw [if_neg hthere]

theorem get_verifierOptions {opts : Value} {name : String} (hsingle : "requireSingleUse" ≠ name)
    (hstore : "nonceStore" ≠ name) : (verifierOptions opts).get name = opts.get name := by
  rw [verifierOptions, Value.get_withField_of_ne _ _ hstore, Value.get_withField_of_ne _ _ hsingle]

theorem policyOf_verifierOptions (opts : Value) :
    Verifier.policyOf (verifierOptions opts) =
      { Verifier.policyOf opts with
        requireSingleUse := singleUseOf opts
        nonceStore := storeOf opts } := by
  have hsingle : (verifierOptions opts).get "requireSingleUse" = singleUseOf opts := by
    rw [verifierOptions, Value.get_withField_of_ne _ _ (by decide), Value.get_withField_self]
  have hstore : (verifierOptions opts).get "nonceStore" = storeOf opts :=
    Value.get_withField_self _ _ _
  rw [Verifier.policyOf, Verifier.policyOf, hsingle, hstore,
    get_verifierOptions (by decide) (by decide), get_verifierOptions (by decide) (by decide),
    get_verifierOptions (by decide) (by decide), get_verifierOptions (by decide) (by decide)]

/-- A started verifier holds the defaulted flag. -/
theorem requiresSingleUse_of_start {p : Platform} {env : Surroundings}
    {started : Completion Unit} {opts : Value} {v : Verifier}
    (h : Verifier.start p env started (verifierOptions opts) = .ok v) :
    v.requiresSingleUse = singleUseOf opts := by
  obtain ⟨prepared, -, h⟩ := bind_eq_ok.mp h
  obtain ⟨-, -, h⟩ := bind_eq_ok.mp h
  rcases Verifier.construct_cases p env.random env.clock prepared.requiredClaim
    (Verifier.policyOf (verifierOptions opts)) with ⟨e, he⟩ | ⟨v', hv', -, hsingle, -, -⟩
  · rw [he] at h
    cases h
  · rw [hv'] at h
    obtain rfl := Except.ok.inj h
    rw [Verifier.requiresSingleUse, hsingle, policyOf_verifierOptions]
    exact Value.orElse_of_not_nullish (nullish_singleUseOf opts) _

/-- A verifier that reports single use enforces it. -/
theorem Verifier.enforces {v : Verifier} (h : v.requiresSingleUse = .boolean true) :
    Enforces v := by
  have hequipped := v.equipped (by rw [show v.requireSingleUse = .boolean true from h]; rfl)
  exact ⟨h, le_length_secretKey hequipped.secret, hequipped.store⟩

/-- **A gate that was started with single use on** has a verifier that enforces it. -/
theorem enforces_of_startGate {p : Platform} {env : Surroundings} {started : Completion Unit}
    {opts : Value} {g : Gate} {v : Verifier} (h : startGate p env started opts = .ok (g, v))
    (htruthy : (singleUseOf opts).truthy = true) : Enforces v := by
  obtain ⟨-, -, h⟩ := bind_eq_ok.mp h
  obtain ⟨verifier, hstart, h⟩ := bind_eq_ok.mp h
  obtain ⟨gate, hgate, h⟩ := bind_eq_ok.mp h
  obtain ⟨rfl, rfl⟩ := Prod.mk.inj (Except.ok.inj h)
  have hover := over_of_createGate hgate
  refine Verifier.enforces ?_
  have hclosed : gate.allowReplay = false := by
    rw [hover.allowReplay]
    change (Value.boolean !(singleUseOf opts).truthy).strictEq (.boolean true) = false
    rw [htruthy]
    rfl
  have hsafe := gate.replaySafe hclosed
  rw [hover.verifier] at hsafe
  exact hsafe

theorem bounded_gateOptions (opts : Value) (v : Verifier) :
    Bounded (gateOptions opts v) ↔ Bounded opts :=
  ⟨fun h => ⟨h.bytes, h.readMs, h.rate⟩, fun h => ⟨h.bytes, h.readMs, h.rate⟩⟩

/-- `createGate` takes a verifier that was started for it without single use, if the bounds
are in order. -/
theorem createGate_gateOptions_iff (p : Platform) {opts : Value} (v : Verifier)
    (hfalsy : (singleUseOf opts).truthy = false) :
    (∃ g, createGate p (gateOptions opts v) = .ok g) ↔ Bounded opts := by
  rw [createGate_ok_iff, bounded_gateOptions]
  have hallow : (gateOptions opts v).get "allowReplay" = .boolean true := by
    change Value.boolean (!(singleUseOf opts).truthy) = .boolean true
    rw [hfalsy]
    rfl
  exact ⟨fun h => h.2.2, fun h => ⟨⟨rfl, rfl, rfl, rfl⟩, Or.inl hallow, h⟩⟩

/-- **Without single use** a start succeeds exactly when everything else is in order. -/
theorem startGate_isOk_iff_of_falsy (p : Platform) (env : Surroundings)
    (started : Completion Unit) {opts : Value} (hfalsy : (singleUseOf opts).truthy = false) :
    (∃ r, startGate p env started opts = .ok r) ↔ OtherwiseInOrder p env started opts := by
  have hadmitted : ∀ prepared : Prepared,
      (∃ v, Verifier.construct p env.random env.clock prepared.requiredClaim
          (Verifier.policyOf (verifierOptions opts)) = .ok v) ↔
        (∃ tolerance, usableTolerance ((opts.get "toleranceMs").orElse (.ofNat 300000)) =
            some tolerance) ∧
          ∃ ttl, positiveFinite ((opts.get "challengeTtlMs").orElse (.ofNat 300000)) =
            some ttl := by
    intro prepared
    rw [construct_isOk_iff, policyOf_verifierOptions]
    refine ⟨fun h => ⟨h.tolerance, h.ttl⟩, fun h => ⟨h.1, h.2, fun hsingle => ?_⟩⟩
    rw [Value.orElse_of_not_nullish (nullish_singleUseOf opts), hfalsy] at hsingle
    exact absurd hsingle (by simp)
  constructor
  · rintro ⟨r, h⟩
    obtain ⟨⟨⟩, hprepare, h⟩ := bind_eq_ok.mp h
    obtain ⟨v, hstart, h⟩ := bind_eq_ok.mp h
    obtain ⟨g, hgate, -⟩ := bind_eq_ok.mp h
    obtain ⟨prepared, hprepared, hstart⟩ := bind_eq_ok.mp hstart
    obtain ⟨⟨⟩, hstarted, hconstruct⟩ := bind_eq_ok.mp hstart
    obtain ⟨htolerance, httl⟩ := (hadmitted prepared).mp ⟨v, hconstruct⟩
    refine ⟨?_, ⟨prepared, hprepared⟩, hstarted, htolerance, httl,
      (createGate_gateOptions_iff p v hfalsy).mp ⟨g, hgate⟩⟩
    by_contra hobject
    rw [prepareGate, if_pos hobject] at hprepare
    cases hprepare
  · rintro ⟨hobject, ⟨prepared, hprepared⟩, hstarted, htolerance, httl, hbounded⟩
    obtain ⟨v, hconstruct⟩ := (hadmitted prepared).mpr ⟨htolerance, httl⟩
    obtain ⟨g, hgate⟩ := (createGate_gateOptions_iff p v hfalsy).mpr hbounded
    have hprepare : prepareGate opts = .ok () := by
      rw [prepareGate, if_neg (by simp [hobject]), if_neg (by simp [hfalsy])]
    have hstart : Verifier.start p env started (verifierOptions opts) = .ok v :=
      bind_eq_ok.mpr ⟨prepared, hprepared, bind_eq_ok.mpr ⟨(), hstarted, hconstruct⟩⟩
    exact ⟨(g, v), bind_eq_ok.mpr ⟨(), hprepare, bind_eq_ok.mpr ⟨v, hstart,
      bind_eq_ok.mpr ⟨g, hgate, rfl⟩⟩⟩⟩

/-- **Replay-safe unless opted out aloud.** A gate that was started enforces single use or
was told `requireSingleUse: false`, and a gate over a verifier that does not report single
use was allowed replay with `true`, unless the options switch single use off silently and
are otherwise in order. -/
theorem startGate_replaySafe_iff (p : Platform) (env : Surroundings) (started : Completion Unit)
    (opts : Value) :
    ((∀ g v, startGate p env started opts = .ok (g, v) →
        Enforces v ∨ opts.get "requireSingleUse" = .boolean false) ∧
      ∀ gateOpts g, createGate p gateOpts = .ok g →
        (gateOpts.get "verifier").get "requiresSingleUse" = .boolean true ∨
          gateOpts.get "allowReplay" = .boolean true) ↔
      ¬(SilentOptOut opts ∧ OtherwiseInOrder p env started opts) := by
  constructor
  · rintro ⟨hsafe, -⟩ ⟨⟨hfalsy, hthere, hloud⟩, horder⟩
    have hsingle : singleUseOf opts = opts.get "requireSingleUse" :=
      Value.orElse_of_not_nullish hthere _
    obtain ⟨⟨g, v⟩, hstart⟩ :=
      (startGate_isOk_iff_of_falsy p env started (hsingle ▸ hfalsy)).mpr horder
    rcases hsafe g v hstart with henforces | hfalse
    · obtain ⟨-, -, h⟩ := bind_eq_ok.mp hstart
      obtain ⟨v', hv', h⟩ := bind_eq_ok.mp h
      obtain ⟨g', -, h⟩ := bind_eq_ok.mp h
      obtain ⟨-, rfl⟩ := Prod.mk.inj (Except.ok.inj h)
      rw [← hsingle, ← requiresSingleUse_of_start hv', henforces.required] at hfalsy
      exact absurd hfalsy (by decide)
    · exact hloud hfalse
  · intro hno
    refine ⟨fun g v hstart => ?_, fun gateOpts g hgate => ?_⟩
    · cases htruthy : (singleUseOf opts).truthy with
      | true => exact Or.inl (enforces_of_startGate hstart htruthy)
      | false =>
          refine Or.inr ?_
          by_contra hloud
          have hsingle := singleUseOf_of_falsy htruthy
          have hthere := nullish_singleUseOf opts
          rw [hsingle] at hthere
          exact hno ⟨⟨hsingle ▸ htruthy, hthere, hloud⟩,
            (startGate_isOk_iff_of_falsy p env started htruthy).mp ⟨_, hstart⟩⟩
    · obtain ⟨-, hallow | hreports, -⟩ := (createGate_ok_iff p gateOpts).mp ⟨g, hgate⟩
      · exact Or.inr hallow
      · exact Or.inl hreports

/-- The options of a start, with what they say of single use. -/
def sampleGateOptions (requireSingleUse : Value) : Value :=
  .object [("binary", .string "/opt/verifier"), ("circuitDir", .string "/opt/circuits"),
    ("caCerts", .string "/opt/certs.pem"), ("requireSingleUse", requireSingleUse)]

/-- Surroundings without a provisioned binary. -/
def sampleSurroundings : Surroundings where
  provisioned := .error (.error "no verifier binary")
  random := ⟨List.replicate 16 42, rfl⟩
  clock := sampleTime 0

/-- **An empty string opts out.** A `requireSingleUse` of `''`, which is what an unset
environment variable turns into, starts a gate without replay defence. -/
theorem startGate_opted_out_by_empty_text :
    ∃ g v, startGate .sample sampleSurroundings (.ok ()) (sampleGateOptions (.string "")) =
        .ok (g, v) ∧
      ¬Enforces v ∧ (sampleGateOptions (.string "")).get "requireSingleUse" ≠ .boolean false ∧
      v.requiresSingleUse = .string "" ∧ g.allowReplay = true := by
  refine ⟨_, _, rfl, fun h => ?_, fun h => ?_, rfl, rfl⟩
  · cases h.required
  · cases h

end EightEen
