import EightEen.Js.Bytes
import EightEen.Js.Double
import EightEen.Verdict
import Mathlib.Tactic.Linarith

/-!
# The Single-Use Challenge

This module models `src/challenge.js` up to its store: a challenge is issued as a nonce
that authenticates itself (`issueChallenge`), recognized again from the transcript a proof
is bound to (`inspectChallenge`), and spent once (`applySingleUse`).

`applySingleUse` waits for the adopter's store in the middle, so it has two halves:
`beginSingleUse` runs up to the call of `spend` and `endSingleUse` takes its answer. What
stands between them is a `CheckStage`. The sum that stamps a challenge is rounded to a
double; a difference of whole milliseconds is exact.

## Main results

* `inspectChallenge_eq_some_iff`: a transcript is recognized exactly when it is the frame
  of a payload and its tag.
* `inspectChallenge_issueChallenge`: what was issued is recognized, with the expiry that
  was reported.
* `inspectChallenge_nonceKey_inj`: two recognized transcripts with one key are the same
  bytes.
* `challenge_codec`: the decoder accepts the encoder's image and nothing else, and reads
  back what was issued.
* `beginSingleUse_cases`: everything that can happen before the store is asked.
-/

open Js

namespace EightEen

/-! ### The frame -/

/-- `RANDOM_LEN`. -/
def randomLen : ℕ := 16

/-- `EXPIRY_LEN`: a big-endian `uint64`, in milliseconds since the epoch. -/
def expiryLen : ℕ := 8

/-- `TAG_LEN`. -/
def tagLen : ℕ := 32

/-- `PAYLOAD_LEN`. -/
def payloadLen : ℕ := randomLen + expiryLen

/-- `NONCE_LEN`. -/
def nonceLen : ℕ := payloadLen + tagLen

/-- `FRAME_PREFIX`: the CBOR bytes of an array of three that starts with two nulls. -/
def framePrefix : List UInt8 := [0x83, 0xF6, 0xF6]

/-- `FRAME_LEN`. -/
def frameLen : ℕ := framePrefix.length + 2 + nonceLen

/-- `bstrHeader`: the CBOR byte-string header for `n` bytes. -/
def bstrHeader (n : ℕ) : Completion (List UInt8) :=
  if n < 24 then .ok [UInt8.ofNat (0x40 + n)]
  else if n < 256 then .ok [0x58, UInt8.ofNat n]
  else if n < 65536 then .ok [0x59, UInt8.ofNat (n / 256), UInt8.ofNat (n % 256)]
  else .error (.rangeError "nonce too long for a session transcript")

/-- The transcript that carries `nonce`, for a nonce of 56 bytes. -/
def frame (nonce : List UInt8) : List UInt8 :=
  framePrefix ++ [0x58, UInt8.ofNat nonceLen] ++ nonce

theorem frame_injective {m n : List UInt8} (h : frame m = frame n) : m = n :=
  List.append_cancel_left h

/-! ### The secret -/

/-- `toBuffer`: the bytes of a `Buffer` or a `Uint8Array`, and nothing for another
value. -/
def toBuffer : Value → Option (List UInt8)
  | .binary .buffer data => some data
  | .binary .uint8Array data => some data
  | _ => none

/-- `secret.length` of a value that `assertSecret` looks into. -/
def secretLength : Value → ℕ
  | .string s => utf16Length s
  | v => ((toBuffer v).getD []).length

/-- `assertSecret`: a short or absent secret fails loud. -/
def assertSecret (secret : Value) : Completion Unit :=
  if (toBuffer secret).isNone ∧ secret.typeOf ≠ "string" then
    .error (.typeError "challenge secret must be a Buffer/Uint8Array or string")
  else if secretLength secret < 16 then
    .error (.typeError "challenge secret must be at least 16 bytes of entropy")
  else .ok ()

/-- The key that `createHmac` takes from the secret: the UTF-8 bytes of a string. -/
def secretKey : Value → List UInt8
  | .string s => s.toList.flatMap String.utf8EncodeChar
  | v => (toBuffer v).getD []

/-- `hmac`. -/
def hmac (p : Platform) (secret : Value) (payload : List UInt8) : List UInt8 :=
  p.hmacSha256 (secretKey secret) payload

/-- The nonce with this payload: the payload and its tag. -/
def nonceOf (p : Platform) (secret : Value) (payload : List UInt8) : List UInt8 :=
  payload ++ hmac p secret payload

/-- An admitted secret is at least 16 bytes of key. -/
theorem le_length_secretKey {secret : Value} (h : assertSecret secret = .ok ()) :
    16 ≤ (secretKey secret).length := by
  rw [assertSecret] at h
  split at h
  · exact absurd h (by simp)
  · split at h
    · exact absurd h (by simp)
    · next hlong =>
        cases secret with
        | string s =>
            have hbytes : (secretKey (.string s)).length = utf8Length s := by
              simp [secretKey, utf8Length, List.length_flatMap]
            have hunits : 16 ≤ utf16Length s := not_lt.mp hlong
            rw [hbytes]
            exact hunits.trans (utf16Length_le_utf8Length s)
        | _ => exact not_lt.mp hlong

/-! ### Issuing -/

/-- What `randomBytes(RANDOM_LEN)` returns. -/
abbrev RandomBytes := {r : List UInt8 // r.length = randomLen}

/-- A challenge, as `issueChallenge` hands it out. -/
structure Challenge where
  nonce : List UInt8
  transcript : List UInt8
  expiresAt : ℕ
  deriving DecidableEq

/-- `issueChallenge({ secret, ttlMs, now })`, with the bytes the generator returns and the
clock that an absent `now` reads. -/
def issueChallenge (p : Platform) (random : RandomBytes) (clock : TimeValue)
    (secret ttlMs now : Value) : Completion Challenge := do
  assertSecret secret
  let ttlMs := ttlMs.orDefault (.ofNat 300000)
  let now := now.orDefault (.number (.finite clock.val))
  match ttlMs.finite? with
  | none => ttlMs.throwShowing p.toRuntime "ttlMs must be a positive finite number, got "
  | some ttl =>
      if ttl ≤ 0 then
        ttlMs.throwShowing p.toRuntime "ttlMs must be a positive finite number, got "
      else
        match now.finite? with
        | none => now.throwShowing p.toRuntime "now must be a finite number, got "
        | some t =>
            let expires := (addDouble t ttl).floor
            let expiresAt := toDouble expires.toNat
            -- `writeBigUInt64BE` refuses what does not fit in eight bytes.
            if expires < 0 ∨ 256 ^ expiryLen ≤ expiresAt then
              .error (.rangeError "The value of \"value\" is out of range.")
            else do
              let payload := random.val ++ writeBE expiryLen expiresAt
              let nonce := nonceOf p secret payload
              let header ← bstrHeader nonce.length
              .ok { nonce, transcript := framePrefix ++ header ++ nonce, expiresAt }

/-! ### Recognizing -/

/-- The answer of `inspectChallenge` about a challenge of ours. -/
structure Recognized where
  expired : Bool
  expiresAt : ℕ
  nonceKey : String
  deriving DecidableEq

/-- `now > expiresAt`, and expired as well on a clock that is not a finite number. -/
def isExpired (now : Value) (expiresAt : ℕ) : Bool :=
  match now.finite? with
  | some t => t > expiresAt
  | none => true

/-- `inspectChallenge`, with `none` for `recognized: false`. -/
def inspectChallenge (p : Platform) (transcript secret now : Value) : Option Recognized :=
  match assertSecret secret, toBuffer transcript with
  | .ok (), some buf =>
      if buf.length ≠ frameLen then none
      else if buf.take 3 ≠ framePrefix then none
      else if buf.getD 3 0 ≠ 0x58 ∨ buf.getD 4 0 ≠ UInt8.ofNat nonceLen then none
      else
        let nonce := buf.drop 5
        let payload := nonce.take payloadLen
        let mac := nonce.drop payloadLen
        let expect := hmac p secret payload
        if mac.length ≠ expect.length ∨ mac ≠ expect then none
        else
          let expiresAt := toDouble (readBE (payload.drop randomLen))
          some {
            expired := isExpired now expiresAt
            expiresAt
            nonceKey := String.ofList (base64Url nonce) }
  | _, _ => none

/-- What `inspectChallenge` says about the nonce of `payload`. -/
def recognizedOf (p : Platform) (secret now : Value) (payload : List UInt8) : Recognized where
  expired := isExpired now (toDouble (readBE (payload.drop randomLen)))
  expiresAt := toDouble (readBE (payload.drop randomLen))
  nonceKey := String.ofList (base64Url (nonceOf p secret payload))

theorem length_hmac (p : Platform) (secret : Value) (payload : List UInt8) :
    (hmac p secret payload).length = tagLen :=
  p.hmacSha256_length _ _

/-- The bytes that pass the shape tests are the frame of their own tail. -/
theorem eq_frame_iff (buf : List UInt8) :
    (buf.length = frameLen ∧ buf.take 3 = framePrefix ∧
      buf.getD 3 0 = 0x58 ∧ buf.getD 4 0 = UInt8.ofNat nonceLen) ↔
      ∃ nonce, nonce.length = nonceLen ∧ buf = frame nonce := by
  constructor
  · rintro ⟨hlen, hpre, h3, h4⟩
    match buf, hlen with
    | a :: b :: c :: d :: e :: nonce, hlen =>
        have hn : nonce.length = nonceLen := by
          simp only [List.length_cons, frameLen, framePrefix, List.length_nil] at hlen
          omega
        obtain rfl : d = 0x58 := h3
        obtain rfl : e = UInt8.ofNat nonceLen := h4
        obtain ⟨rfl, rfl, rfl⟩ : a = 0x83 ∧ b = 0xF6 ∧ c = 0xF6 := by
          simpa [framePrefix] using hpre
        exact ⟨nonce, hn, rfl⟩
  · rintro ⟨nonce, hn, rfl⟩
    refine ⟨?_, rfl, rfl, rfl⟩
    rw [frame, List.length_append, hn]
    rfl

/-- **The decoder accepts exactly the encoder's image.** -/
theorem inspectChallenge_eq_some_iff (p : Platform) (transcript secret now : Value)
    (r : Recognized) :
    inspectChallenge p transcript secret now = some r ↔
      assertSecret secret = .ok () ∧ ∃ payload, payload.length = payloadLen ∧
        toBuffer transcript = some (frame (nonceOf p secret payload)) ∧
        r = recognizedOf p secret now payload := by
  constructor
  · intro h
    rw [inspectChallenge] at h
    split at h
    swap
    · exact absurd h (by simp)
    next buf hsecret hbuf =>
    split at h
    · exact absurd h (by simp)
    next hlen =>
    split at h
    · exact absurd h (by simp)
    next hpre =>
    split at h
    · exact absurd h (by simp)
    next hheader =>
    rw [not_or, not_not, not_not] at hheader
    obtain ⟨nonce, hn, rfl⟩ :=
      (eq_frame_iff buf).mp ⟨not_not.mp hlen, not_not.mp hpre, hheader⟩
    have hdrop : (frame nonce).drop 5 = nonce := rfl
    simp only [hdrop] at h
    split at h
    · exact absurd h (by simp)
    next hmac =>
    rw [not_or, not_not, not_not] at hmac
    have hsplit : nonceOf p secret (nonce.take payloadLen) = nonce := by
      rw [nonceOf, ← hmac.2, List.take_append_drop]
    refine ⟨hsecret, nonce.take payloadLen, ?_, ?_, ?_⟩
    · rw [List.length_take, hn]
      rfl
    · rw [hsplit, hbuf]
    · rw [recognizedOf, hsplit]
      exact (Option.some.inj h).symm
  · rintro ⟨hsecret, payload, hlen, hbuf, rfl⟩
    have hn : (nonceOf p secret payload).length = nonceLen := by
      rw [nonceOf, List.length_append, hlen, length_hmac]
      rfl
    obtain ⟨h1, h2, h3, h4⟩ := (eq_frame_iff _).mpr ⟨_, hn, rfl⟩
    have hdrop : (frame (nonceOf p secret payload)).drop 5 = nonceOf p secret payload := rfl
    have htake : (nonceOf p secret payload).take payloadLen = payload := by
      rw [nonceOf, ← hlen, List.take_left]
    have htag : (nonceOf p secret payload).drop payloadLen = hmac p secret payload := by
      rw [nonceOf, ← hlen, List.drop_left]
    rw [inspectChallenge, hsecret, hbuf]
    simp only [h1, h2, h3, h4, ne_eq, not_true_eq_false, or_self, if_false, hdrop, htake, htag]
    rfl

/-- The key of a recognized transcript determines its bytes, so no two challenges share
an entry in a store. -/
theorem inspectChallenge_nonceKey_inj {p : Platform} {t₁ t₂ secret now₁ now₂ : Value}
    {r₁ r₂ : Recognized} (h₁ : inspectChallenge p t₁ secret now₁ = some r₁)
    (h₂ : inspectChallenge p t₂ secret now₂ = some r₂) (hkey : r₁.nonceKey = r₂.nonceKey) :
    toBuffer t₁ = toBuffer t₂ := by
  obtain ⟨-, payload₁, -, hbuf₁, rfl⟩ := (inspectChallenge_eq_some_iff _ _ _ _ _).mp h₁
  obtain ⟨-, payload₂, -, hbuf₂, rfl⟩ := (inspectChallenge_eq_some_iff _ _ _ _ _).mp h₂
  have hnonce : nonceOf p secret payload₁ = nonceOf p secret payload₂ :=
    base64Url_injective (String.ofList_injective hkey)
  rw [hbuf₁, hbuf₂, hnonce]

/-- The same bytes are recognized with the same key and the same expiry at every clock
reading. -/
theorem inspectChallenge_congr {p : Platform} {t₁ t₂ secret now₁ : Value} {r₁ : Recognized}
    (h : inspectChallenge p t₁ secret now₁ = some r₁) (hbuf : toBuffer t₁ = toBuffer t₂)
    (now₂ : Value) :
    inspectChallenge p t₂ secret now₂ =
      some { r₁ with expired := isExpired now₂ r₁.expiresAt } := by
  obtain ⟨hsecret, payload, hlen, hb, rfl⟩ := (inspectChallenge_eq_some_iff _ _ _ _ _).mp h
  exact (inspectChallenge_eq_some_iff _ _ _ _ _).mpr
    ⟨hsecret, payload, hlen, hbuf ▸ hb, rfl⟩

/-- A recognized challenge is expired by its own stamp. -/
theorem Recognized.expired_eq {p : Platform} {transcript secret now : Value} {r : Recognized}
    (h : inspectChallenge p transcript secret now = some r) :
    r.expired = isExpired now r.expiresAt := by
  obtain ⟨-, payload, -, -, rfl⟩ := (inspectChallenge_eq_some_iff _ _ _ _ _).mp h
  rfl

/-- **What was issued is recognized**, at any clock reading, with the expiry that was
reported and the key of the nonce that was reported. -/
theorem inspectChallenge_issueChallenge {p : Platform} {random : RandomBytes}
    {clock : TimeValue} {secret ttlMs now : Value} {c : Challenge}
    (h : issueChallenge p random clock secret ttlMs now = .ok c) {transcript : Value}
    (hbuf : toBuffer transcript = some c.transcript) (later : Value) :
    inspectChallenge p transcript secret later =
      some {
        expired := isExpired later c.expiresAt
        expiresAt := c.expiresAt
        nonceKey := String.ofList (base64Url c.nonce) } := by
  rw [issueChallenge, bind_eq_ok] at h
  obtain ⟨⟨⟩, hsecret, h⟩ := h
  dsimp only at h
  split at h
  · exact absurd h (Value.throwShowing_ne_ok _ _ _ _)
  split at h
  · exact absurd h (Value.throwShowing_ne_ok _ _ _ _)
  split at h
  · exact absurd h (Value.throwShowing_ne_ok _ _ _ _)
  next t _ =>
  split at h
  · exact absurd h (by simp)
  next hrange =>
  rw [not_or, not_le] at hrange
  obtain ⟨header, hheader, h⟩ := bind_eq_ok.mp h
  set expiresAt := toDouble (addDouble t _).floor.toNat with hexpires
  set payload := random.val ++ writeBE expiryLen expiresAt with hpayload
  have hlen : payload.length = payloadLen := by
    rw [hpayload, List.length_append, random.property, length_writeBE]
    rfl
  have hn : (nonceOf p secret payload).length = nonceLen := by
    rw [nonceOf, List.length_append, hlen, length_hmac]
    rfl
  obtain rfl : [0x58, UInt8.ofNat nonceLen] = header := by
    rw [hn] at hheader
    exact Except.ok.inj hheader
  obtain rfl := Except.ok.inj h
  have hread : toDouble (readBE (payload.drop randomLen)) = expiresAt := by
    rw [hpayload, List.drop_left' random.property, readBE_writeBE hrange.2, hexpires,
      toDouble_toDouble]
  rw [inspectChallenge_eq_some_iff]
  refine ⟨hsecret, payload, hlen, hbuf, ?_⟩
  rw [recognizedOf, hread]

/-- A secret that `assertSecret` admits, a positive lifetime and an expiry that a date can
have: a challenge is issued, and its stamp is the floor of the sum. -/
theorem issueChallenge_returns {p : Platform} (random : RandomBytes) (clock : TimeValue)
    {secret : Value} (hsecret : assertSecret secret = .ok ()) {t ttl : ℚ} (httl : 0 < ttl)
    (hnonneg : 0 ≤ t + ttl) (hlt : t + ttl < 2 ^ 53) :
    ∃ c, issueChallenge p random clock secret (.number (.finite ttl)) (.number (.finite t)) =
        .ok c ∧ (c.expiresAt : ℤ) = ⌊addDouble t ttl⌋ := by
  have hfloor : (addDouble t ttl).floor = ⌊addDouble t ttl⌋ := rfl
  have h0 : 0 ≤ ⌊addDouble t ttl⌋ := Int.floor_nonneg.mpr (roundDouble_nonneg hnonneg)
  have hle : ⌊addDouble t ttl⌋ ≤ 2 ^ 53 := by
    have hround := Int.floor_le_floor (roundDouble_le_two_pow hnonneg hlt)
    rw [← addDouble] at hround
    exact_mod_cast hround
  obtain ⟨n, hn⟩ := Int.eq_ofNat_of_zero_le h0
  have hstamp : toDouble n = n := by
    have hbound : n ≤ 2 ^ 53 := by omega
    simpa using toDouble_mul_two_pow 0 hbound
  have hnonce : (nonceOf p secret (random.val ++ writeBE expiryLen n)).length = nonceLen := by
    rw [nonceOf, List.length_append, List.length_append, random.property, length_writeBE,
      length_hmac]
    rfl
  have hrange : ¬((n : ℤ) < 0 ∨ 256 ^ expiryLen ≤ n) := by
    have hpow : (256 : ℕ) ^ expiryLen = 2 ^ 64 := by decide
    omega
  refine ⟨{
    nonce := nonceOf p secret (random.val ++ writeBE expiryLen n)
    transcript := frame (nonceOf p secret (random.val ++ writeBE expiryLen n))
    expiresAt := n }, ?_, hn.symm⟩
  rw [issueChallenge, hsecret]
  simp only [Value.orDefault, Value.finite?, not_le.mpr httl, if_false, hfloor, hn,
    Int.toNat_natCast, hstamp, hrange, hnonce]
  rfl

/-- **The decoder accepts exactly the encoder's image**: a byte string is recognized when
it is the header, sixteen bytes, eight bytes and the tag of these; recognized strings that
differ have different keys; and what is issued is recognized at every clock reading, with
the stamp and the nonce that were reported. -/
theorem challenge_codec (p : Platform) (secret : Value) (hsecret : assertSecret secret = .ok ()) :
    (∀ transcript b now, toBuffer transcript = some b →
      ((inspectChallenge p transcript secret now).isSome = true ↔
        ∃ r e : List UInt8, r.length = 16 ∧ e.length = 8 ∧
          b = [0x83, 0xF6, 0xF6, 0x58, 0x38] ++ r ++ e ++
            p.hmacSha256 (secretKey secret) (r ++ e))) ∧
    (∀ t₁ t₂ now₁ now₂ r₁ r₂, inspectChallenge p t₁ secret now₁ = some r₁ →
      inspectChallenge p t₂ secret now₂ = some r₂ → toBuffer t₁ ≠ toBuffer t₂ →
        r₁.nonceKey ≠ r₂.nonceKey) ∧
    ∀ random clock (t ttl : ℚ), 0 < ttl → 0 ≤ t + ttl → t + ttl < 2 ^ 53 →
      ∃ c, issueChallenge p random clock secret (.number (.finite ttl)) (.number (.finite t)) =
          .ok c ∧ (c.expiresAt : ℤ) = ⌊addDouble t ttl⌋ ∧
        ∀ transcript (later : ℚ), toBuffer transcript = some c.transcript →
          inspectChallenge p transcript secret (.number (.finite later)) = some {
            expired := decide (later > c.expiresAt)
            expiresAt := c.expiresAt
            nonceKey := String.ofList (base64Url c.nonce) } := by
  refine ⟨?_, ?_, ?_⟩
  · intro transcript b now hbuf
    have hframe : ∀ r e : List UInt8, [0x83, 0xF6, 0xF6, 0x58, 0x38] ++ r ++ e ++
        p.hmacSha256 (secretKey secret) (r ++ e) = frame (nonceOf p secret (r ++ e)) := by
      intro r e
      rw [frame, nonceOf, hmac, List.append_assoc, List.append_assoc, List.append_assoc,
        List.append_assoc]
      rfl
    rw [Option.isSome_iff_exists]
    simp only [inspectChallenge_eq_some_iff, hbuf, Option.some.injEq, hframe]
    constructor
    · rintro ⟨_, -, payload, hlen, hb, -⟩
      refine ⟨payload.take 16, payload.drop 16, ?_, ?_, ?_⟩
      · rw [List.length_take, hlen]
        rfl
      · rw [List.length_drop, hlen]
        rfl
      · rw [List.take_append_drop, hb]
    · rintro ⟨r, e, hr, he, hb⟩
      refine ⟨_, hsecret, r ++ e, ?_, hb, rfl⟩
      rw [List.length_append, hr, he]
      rfl
  · intro t₁ t₂ now₁ now₂ r₁ r₂ h₁ h₂ hne hkey
    exact hne (inspectChallenge_nonceKey_inj h₁ h₂ hkey)
  · intro random clock t ttl httl hnonneg hlt
    obtain ⟨c, hc, hexpires⟩ := issueChallenge_returns random clock hsecret httl hnonneg hlt
    refine ⟨c, hc, hexpires, fun transcript later hbuf => ?_⟩
    rw [inspectChallenge_issueChallenge hc hbuf]
    rfl

/-- A challenge of five minutes. -/
theorem challenge_codec_fiveMinutes :
    ∃ c, issueChallenge .sample ⟨List.replicate 16 7, rfl⟩ (sampleTime 0)
        (.string "0123456789abcdef") (.number (.finite 300000))
        (.number (.finite 1700000000000)) = .ok c ∧ c.expiresAt = 1700000300000 := by
  have hsecret : assertSecret (.string "0123456789abcdef") = .ok () := by rfl
  obtain ⟨c, hc, hexpires, -⟩ := (challenge_codec .sample _ hsecret).2.2
    ⟨List.replicate 16 7, rfl⟩ (sampleTime 0) 1700000000000 300000 (by norm_num) (by norm_num)
    (by norm_num)
  have hsum : ⌊addDouble 1700000000000 300000⌋ = 1700000300000 := by decide +kernel
  exact ⟨c, hc, by omega⟩

/-! ### Spending -/

/-- A call of the store's `spend(nonceKey, ttlMs)`. -/
structure SpendRequest where
  nonceKey : String
  ttlMs : ℤ
  deriving DecidableEq

/-- Where a check stands after the verifier service has replied: at its end, or waiting
for the store with the verdict it will return if the nonce is fresh. -/
inductive CheckStage where
  | settled (result : Completion Verdict)
  | spending (verdict : Verdict) (request : SpendRequest)

/-- `applySingleUse` up to the call of `spend`. -/
def beginSingleUse (p : Platform) (verdict : Verdict) (transcript secret : Value)
    (now : TimeValue) : CheckStage :=
  -- Only an accept is worth a nonce: garbage cannot exhaust a legitimate one.
  if ¬verdict.IsAccept then .settled (.ok verdict)
  else
    match inspectChallenge p transcript secret (.number (.finite now.val)) with
    | none => .settled (.ok (unanswerable .sessionUnknown
        (.string "the presentation is not bound to a challenge this verifier issued")))
    | some c =>
        if c.expired then .settled (do
          let shown ← isoString p c.expiresAt
          .ok (unanswerable .sessionUnknown
            (.string ("the issued challenge expired at " ++ shown))))
        else .spending verdict
          { nonceKey := c.nonceKey, ttlMs := max 0 ((c.expiresAt : ℤ) - now.val) }

/-- `applySingleUse` from the answer of `spend` on: a falsy answer is a replay, and what
the store throws goes through. -/
def endSingleUse (verdict : Verdict) (answer : Completion Value) : Completion Verdict := do
  let fresh ← answer
  if ¬fresh.truthy then
    .ok (unanswerable .replayDetected
      (.string "this presentation was already spent in its session (replay)"))
  else .ok verdict

/-- The rest of a check over a store that answers with `spend`, with the calls it makes. -/
def CheckStage.finish (stage : CheckStage) (spend : SpendRequest → Completion Value) :
    Completion Verdict × List SpendRequest :=
  match stage with
  | .settled result => (result, [])
  | .spending verdict request => (endSingleUse verdict (spend request), [request])

/-- `applySingleUse`, with the calls it makes of `spend`. -/
def applySingleUse (p : Platform) (verdict : Verdict) (transcript secret : Value)
    (now : TimeValue) (spend : SpendRequest → Completion Value) :
    Completion Verdict × List SpendRequest :=
  (beginSingleUse p verdict transcript secret now).finish spend

/-- At a clock reading a challenge is expired when the reading is past its stamp. -/
theorem isExpired_timeValue (now : TimeValue) (expiresAt : ℕ) :
    isExpired (.number (.finite now.val)) expiresAt = true ↔ (expiresAt : ℤ) < now.val := by
  have h : isExpired (.number (.finite now.val)) expiresAt =
      decide ((expiresAt : ℚ) < (now.val : ℚ)) := rfl
  rw [h, decide_eq_true_iff]
  exact_mod_cast Iff.rfl

/-- A transcript that is bound to a challenge of ours which `now` has not passed. -/
def LiveChallenge (p : Platform) (transcript secret : Value) (now : TimeValue)
    (c : Recognized) : Prop :=
  inspectChallenge p transcript secret (.number (.finite now.val)) = some c ∧
    now.val ≤ c.expiresAt

/-- **Everything that can happen before the store is asked**: the verdict is not an accept
and stands, there is no live challenge and the accept is withdrawn, or the challenge is
live and its nonce is spent for the rest of its life. -/
theorem beginSingleUse_cases (p : Platform) (verdict : Verdict) (transcript secret : Value)
    (now : TimeValue) :
    (¬verdict.IsAccept ∧
      beginSingleUse p verdict transcript secret now = .settled (.ok verdict)) ∨
    (verdict.IsAccept ∧ (∀ c, ¬LiveChallenge p transcript secret now c) ∧
      ∃ d, beginSingleUse p verdict transcript secret now =
        .settled (.ok (unanswerable .sessionUnknown d))) ∨
    (verdict.IsAccept ∧ ∃ c, LiveChallenge p transcript secret now c ∧
      beginSingleUse p verdict transcript secret now =
        .spending verdict { nonceKey := c.nonceKey, ttlMs := (c.expiresAt : ℤ) - now.val }) := by
  by_cases haccept : verdict.IsAccept
  swap
  · exact Or.inl ⟨haccept, by rw [beginSingleUse, if_pos haccept]⟩
  refine Or.inr ?_
  rw [beginSingleUse, if_neg (not_not.mpr haccept)]
  cases hc : inspectChallenge p transcript secret (.number (.finite now.val)) with
  | none =>
      refine Or.inl ⟨haccept, ?_, _, rfl⟩
      rintro c ⟨hsome, -⟩
      rw [hc] at hsome
      exact absurd hsome (by simp)
  | some c =>
      have hexpired : c.expired = true ↔ (c.expiresAt : ℤ) < now.val := by
        rw [Recognized.expired_eq hc, isExpired_timeValue]
      dsimp only
      by_cases hlate : (c.expiresAt : ℤ) < now.val
      · refine Or.inl ⟨haccept, ?_, ?_⟩
        · rintro c' ⟨hsome, hlive⟩
          obtain rfl := Option.some.inj (hc.symm.trans hsome)
          omega
        · rw [if_pos (hexpired.mpr hlate), isoString_of_le p (Int.natCast_nonneg _) hlate.le]
          exact ⟨_, rfl⟩
      · refine Or.inr ⟨haccept, c, ⟨hc, not_lt.mp hlate⟩, ?_⟩
        rw [if_neg (mt hexpired.mp hlate), max_eq_right (by omega)]

end EightEen
