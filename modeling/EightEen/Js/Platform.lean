import EightEen.Js.Value

/-!
# The Platform

The library functions of the runtime that a program calls and does not define, taken as
fixed functions with the one law each that its documentation states: date parsing and
printing, base64 decoding, HMAC-SHA256, JSON and URLs, the sum of a clock reading and a value
that is not a number, and what a timer throws about a delay it cannot use. A `TimeValue` is
what `Date.now()` returns, an integral number of milliseconds in the range of a date, so that
`isoString` of a time no later than a clock reading cannot throw (`isoString_of_le`).
-/

namespace Js

/-- The fixed functions of the platform. -/
structure Platform extends Runtime where
  /-- `Date.parse`, with `none` for NaN. -/
  dateParse : String → Option ℤ
  /-- `new Date(t).toISOString()` for a time in range. -/
  isoText : ℤ → String
  /-- `Buffer.from(s, 'base64')`. -/
  base64Decode : String → List UInt8
  base64Decode_empty : base64Decode "" = []
  /-- `createHmac('sha256', key).update(payload).digest()`. -/
  hmacSha256 : List UInt8 → List UInt8 → List UInt8
  hmacSha256_length : ∀ key payload, (hmacSha256 key payload).length = 32
  /-- `${JSON.stringify(v)}`, which throws on a BigInt. -/
  jsonText : Value → Completion String
  jsonText_flat : ∀ v : Value, v.isFlat = true → ∃ text, jsonText v = .ok text
  /-- `JSON.parse(raw.toString('utf8'))`, with `none` where it throws. -/
  jsonParse : List UInt8 → Option Value
  /-- `new URL(url, 'http://localhost').pathname`, with `none` where it throws. -/
  urlPathname : String → Option String
  /-- `t + v` for a text or an object `v`, as the number that a comparison makes of it. -/
  textSum : ℤ → Value → Completion Number
  /-- What `AbortSignal.timeout(v)` throws when `v` is not an unsigned integer of 32 bits. -/
  delayError : Value → Thrown

/-- The largest time a date holds, in milliseconds on either side of the epoch. -/
def maxTime : ℤ := 8640000000000000

/-- A reading of `Date.now()`. -/
abbrev TimeValue := {t : ℤ // -maxTime ≤ t ∧ t ≤ maxTime}

/-- `new Date(t).toISOString()`, which throws outside the range of a date. -/
def isoString (p : Platform) (t : ℤ) : Completion String :=
  if -maxTime ≤ t ∧ t ≤ maxTime then .ok (p.isoText t)
  else .error (.rangeError "Invalid time value")

/-- A time that is not negative and lies before a clock reading has a printed form. -/
theorem isoString_of_le (p : Platform) {t : ℤ} {now : TimeValue} (h0 : 0 ≤ t)
    (h : t ≤ now.val) : isoString p t = .ok (p.isoText t) := by
  have hmax : (0 : ℤ) ≤ maxTime := by decide
  have hnow := now.property
  rw [isoString, if_pos ⟨by omega, by omega⟩]

/-- `Math.round(q)`: halves round up. -/
def mathRound (q : ℚ) : ℤ :=
  (q + 1 / 2).floor

/-- `Date.now() + v`, as the number that a comparison makes of it. -/
def clockSum (p : Platform) (clock : ℤ) : Value → Completion Number
  | .undefined => .ok .nan
  | .null => .ok (.finite clock)
  | .boolean b => .ok (.finite (clock + if b then 1 else 0))
  | .number (.finite q) => .ok (.finite (clock + q))
  | .number x => .ok x
  | .bigint _ => .error (.typeError
      "Cannot mix BigInt and other types, use explicit conversions")
  | .symbol _ => .error (.typeError "Cannot convert a Symbol value to a number")
  | v => p.textSum clock v

/-- `clock < x`. -/
def clockBefore (clock : ℤ) : Number → Bool
  | .nan | .negInf => false
  | .posInf => true
  | .finite q => (clock : ℚ) < q

/-- A delay that `AbortSignal.timeout` takes: an unsigned integer of 32 bits. -/
def isDelay (v : Value) : Bool :=
  match v.finite? with
  | some q => q.den = 1 ∧ 0 ≤ q ∧ q < 2 ^ 32
  | none => false

/-! ### A platform to evaluate with -/

/-- The key of the worked examples. -/
def sampleKey : List UInt8 := List.replicate 32 7

/-- A random part of sixteen equal bytes, and the stamp 1 700 000 300 000. -/
def samplePayload : List UInt8 :=
  List.replicate 16 42 ++ [0, 0, 1, 139, 207, 233, 251, 224]

/-- HMAC-SHA256 of `samplePayload` under `sampleKey`. -/
def sampleTag : List UInt8 :=
  [180, 40, 144, 82, 254, 2, 99, 134, 33, 100, 176, 109, 70, 35, 163, 115, 53, 42, 71, 7, 197, 6,
    170, 180, 219, 129, 60, 141, 166, 31, 96, 104]

/-- The JSON text of a scalar that needs no escapes, with its whole numbers. -/
def sampleScalarText : Value → String
  | .boolean b => if b then "true" else "false"
  | .number (.finite q) => toString q.num
  | .string s => "\"" ++ s ++ "\""
  | _ => "null"

/-- The JSON text of a flat record. -/
def sampleJsonText (props : List (String × Value)) : String :=
  "\x7b" ++ ",".intercalate (props.map fun p => "\"" ++ p.1 ++ "\":" ++ sampleScalarText p.2) ++
    "\x7d"

/-- A request body. -/
def sampleBody : List UInt8 :=
  "\x7b\"transcript\":\"9Q==\",\"deviceResponse\":\"9A==\"\x7d".toList.flatMap
    String.utf8EncodeChar

/-- A platform that answers as the real one does on the inputs of the worked examples:
whole numbers, one date, the two CBOR booleans, one tag, flat records, one request body, and
URLs that are plain paths. -/
def Platform.sample : Platform where
  numberText
    | .nan => "NaN"
    | .posInf => "Infinity"
    | .negInf => "-Infinity"
    | .finite q => toString q.num
  binaryText _ _ := ""
  methodText _ := .ok ""
  dateParse s := if s = "2023-11-14T22:13:20Z" then some 1700000000000 else none
  isoText _ := "2023-11-14T22:18:20.000Z"
  base64Decode s := if s = "9Q==" then [0xF5] else if s = "9A==" then [0xF4] else []
  base64Decode_empty := by decide
  hmacSha256 key payload :=
    if key = sampleKey ∧ payload = samplePayload then sampleTag else List.replicate 32 0
  hmacSha256_length key payload := by split <;> rfl
  jsonText
    | .object props => .ok (sampleJsonText props)
    | v => .ok (sampleScalarText v)
  jsonText_flat v _ := by cases v <;> exact ⟨_, rfl⟩
  jsonParse raw :=
    if raw = sampleBody then
      some (.object [("transcript", .string "9Q=="), ("deviceResponse", .string "9A==")])
    else none
  urlPathname url := if url.startsWith "/" then some url else none
  textSum _ _ := .ok .nan
  delayError _ := .typeError "The \"delay\" argument must be of type number."

/-- A clock reading `ms` milliseconds after 1 700 000 000 000, for less than a day. -/
def sampleTime (ms : ℕ) : TimeValue :=
  ⟨1700000000000 + (ms % 86400000 : ℕ), by
    have hday : ms % 86400000 < 86400000 := Nat.mod_lt _ (by decide)
    unfold maxTime
    omega⟩

end Js
