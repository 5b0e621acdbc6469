import EightEen.Cbor

/-!
# Minting

This module models `tools/mkfixture/mint.go`, which puts together the mobile document of a
fixture byte by byte: the helpers that encode strings and lengths, the builders of the signed
parts, `credentialWith`, which is what an issuer hands out, and `Credential.present`, which
shows it against one session transcript.

A Go call ends with a value, with an error, or in a panic (`Failure`). SHA-256 is any function
with digests of 32 bytes, and a signature is whatever `ecdsa.Sign` returns, an error included.
The package variables `docType` and `namespace` are the fields of a `Domain`.

## Main results

* `cat_cons_eq_ok`: a concatenation is evaluated from left to right, and succeeds when all its
  parts do.
* `tstr_eq_ok_iff`, `bstr_eq_ok_iff`: what the string helpers return.
-/

open Js

namespace EightEen

namespace Mint

/-! ### Go calls -/

/-- How a call fails: it panics, or returns an error. -/
inductive Failure where
  | panic (message : String)
  | err (message : String)

/-- The end of a call. -/
abbrev Go (α : Type) := Except Failure α

/-- A sequence of two calls returns when both do. -/
theorem go_eq_ok {α β : Type} {x : Go α} {f : α → Go β} {b : β} :
    x >>= f = .ok b ↔ ∃ a, x = .ok a ∧ f a = .ok b := by
  cases x with
  | ok a => simp [bind, Except.bind]
  | error e => simp [bind, Except.bind]

/-- The bytes of a string constant. -/
def ascii (s : String) : List UInt8 :=
  s.toList.flatMap String.utf8EncodeChar

/-- The text of a string that is shown in a message. -/
def shown (s : List UInt8) : String :=
  String.ofList (s.map fun b => Char.ofNat b.toNat)

/-! ### Helpers -/

/-- `tstr(s)`, a CBOR text string. -/
def tstr (s : List UInt8) : Go (List UInt8) :=
  let n := s.length
  if n < 24 then .ok (UInt8.ofNat (0x60 ||| n) :: s)
  else if n < 256 then .ok (0x78 :: UInt8.ofNat n :: s)
  else .error (.panic "tstr too long")

/-- `bstrLen(n)`, the length header of a CBOR byte string. -/
def bstrLen (n : ℕ) : Go (List UInt8) :=
  if n < 24 then .ok [UInt8.ofNat (0x40 ||| n)]
  else if n < 256 then .ok [0x58, UInt8.ofNat n]
  else if n < 65536 then .ok [0x59, UInt8.ofNat (n / 256), UInt8.ofNat n]
  else .error (.panic "bstr too long")

/-- `bstr(b)`, a CBOR byte string. -/
def bstr (b : List UInt8) : Go (List UInt8) := do
  let header ← bstrLen b.length
  .ok (header ++ b)

/-- `cborUint(n)`, which refuses what does not fit the immediate form. -/
def cborUint (n : ℤ) : Go (List UInt8) :=
  if n < 0 ∨ 24 ≤ n then
    .error (.panic ("cborUint: " ++ toString n ++
      " out of range [0,24); a multi-byte uint would shift the circuit's byte offsets"))
  else .ok [UInt8.ofNat n.toNat]

/-- `be16(n)`. -/
def be16 (n : ℕ) : List UInt8 :=
  [UInt8.ofNat (n / 256), UInt8.ofNat n]

/-- `cat(parts...)`: the arguments are evaluated from left to right, and a panic in one of them
is the end. -/
def cat : List (Go (List UInt8)) → Go (List UInt8)
  | [] => .ok []
  | part :: parts => do
      let front ← part
      let back ← cat parts
      .ok (front ++ back)

/-- `x.FillBytes(b)`, for a `b` of `width` bytes. -/
def fillBytes (width x : ℕ) : Go (List UInt8) :=
  if x < 256 ^ width then .ok (writeBE width x)
  else .error (.panic "math/big: buffer too small to fit value")

/-- `coord32(x)`. -/
def coord32 (x : ℕ) : Go (List UInt8) :=
  fillBytes 32 x

/-- A hexadecimal digit. -/
def hexDigit (n : ℕ) : Char :=
  "0123456789abcdef".toList.getD n '0'

/-- `pkString(x)`. -/
def pkString (x : ℕ) : Go String := do
  let bytes ← coord32 x
  .ok ("0x" ++ String.ofList (bytes.flatMap fun b =>
    [hexDigit (b.toNat / 16), hexDigit (b.toNat % 16)]))

/-! ### Keys, digests and signatures -/

/-- A P-256 key: the coordinates of its public point, and its secret. -/
structure PrivateKey where
  x : ℕ
  y : ℕ
  d : ℕ

/-- `sha256.Sum256`. -/
structure Sha256 where
  sum256 : List UInt8 → List UInt8
  length_sum256 : ∀ bytes, (sum256 bytes).length = 32

/-- What `ecdsa.Sign(rand.Reader, priv, digest)` returns in one call. -/
abbrev Sign := PrivateKey → List UInt8 → Except String (ℕ × ℕ)

/-- `rawSig(priv, digest)`. -/
def rawSig (sign : Sign) (priv : PrivateKey) (digest : List UInt8) : Go (List UInt8) :=
  match sign priv digest with
  | .error message => .error (.err message)
  | .ok (r, s) => do
      let front ← fillBytes 32 r
      let back ← fillBytes 32 s
      .ok (front ++ back)

/-! ### Domain constants -/

/-- The package variables `docType` and `namespace`. -/
structure Domain where
  docType : List UInt8
  nameSpace : List UInt8

/-- The defaults of `docType` and `namespace`. -/
def defaultDomain : Domain where
  docType := ascii "org.iso.18013.5.1.mDL"
  nameSpace := ascii "org.iso.18013.5.1"

/-- `elemID`. -/
def elemID : List UInt8 :=
  ascii "age_over_18"

/-- `credClock`. -/
structure CredClock where
  validFrom : List UInt8
  validUntil : List UInt8
  now : List UInt8

/-- `frozenClock`. -/
def frozenClock : CredClock where
  validFrom := ascii "2020-01-01T00:00:00Z"
  validUntil := ascii "2030-01-01T00:00:00Z"
  now := ascii "2026-07-13T00:00:00Z"

/-- `defaultTranscript`. -/
def defaultTranscript : List UInt8 :=
  [0x83, 0xF6, 0xF6, 0xF6]

/-- `sessionTranscript(nonce)`. -/
def sessionTranscript (nonce : List UInt8) : Go (List UInt8) :=
  cat [.ok [0x83, 0xF6, 0xF6], bstr nonce]

/-- `kCose1Prefix`. -/
def kCose1Prefix : List UInt8 :=
  [0x84, 0x6A, 0x53, 0x69, 0x67, 0x6E, 0x61, 0x74, 0x75, 0x72, 0x65, 0x31, 0x43, 0xA1, 0x01, 0x26,
    0x40, 0x59]

/-! ### Builders -/

/-- `buildCOSEKey(x, y)`. -/
def buildCOSEKey (x y : List UInt8) : Go (List UInt8) :=
  cat [.ok [0xA4, 0x01, 0x02, 0x20, 0x01, 0x21, 0x58, 0x20], .ok x, .ok [0x22, 0x58, 0x20], .ok y]

/-- `buildTDate(s)`. -/
def buildTDate (s : List UInt8) : Go (List UInt8) :=
  if s.length ≠ 20 then .error (.panic ("tdate must be exactly 20 chars: " ++ shown s))
  else cat [.ok [0xC0, 0x74], .ok s]

/-- `buildIssuerSignedItemMap(digestID, salt, id, elemValue)`. -/
def buildIssuerSignedItemMap (digestID : ℤ) (salt id elemValue : List UInt8) : Go (List UInt8) :=
  cat [.ok [0xA4],
    tstr (ascii "digestID"), cborUint digestID,
    tstr (ascii "random"), bstr salt,
    tstr (ascii "elementIdentifier"), tstr id,
    tstr (ascii "elementValue"), .ok elemValue]

/-- `wrapTag24(b)`. -/
def wrapTag24 (b : List UInt8) : Go (List UInt8) :=
  cat [.ok [0xD8, 0x18], bstr b]

/-- `buildValidityInfo(ck)`. -/
def buildValidityInfo (ck : CredClock) : Go (List UInt8) :=
  cat [.ok [0xA2],
    tstr (ascii "validFrom"), buildTDate ck.validFrom,
    tstr (ascii "validUntil"), buildTDate ck.validUntil]

/-- `buildDeviceKeyInfo(coseKey)`. -/
def buildDeviceKeyInfo (coseKey : List UInt8) : Go (List UInt8) :=
  cat [.ok [0xA1], tstr (ascii "deviceKey"), .ok coseKey]

/-- `buildValueDigests(digestID, itemDigest)`. -/
def buildValueDigests (dom : Domain) (digestID : ℤ) (itemDigest : List UInt8) :
    Go (List UInt8) := do
  let inner ← cat [.ok [0xA1], cborUint digestID,
    if itemDigest.length < 32 then .error (.panic "slice bounds out of range")
    else bstr (itemDigest.take 32)]
  cat [.ok [0xA1], tstr dom.nameSpace, .ok inner]

/-- `buildMSO(itemDigest, coseKey, ck)`. -/
def buildMSO (dom : Domain) (itemDigest coseKey : List UInt8) (ck : CredClock) :
    Go (List UInt8) :=
  cat [.ok [0xA6],
    tstr (ascii "version"), tstr (ascii "1.0"),
    tstr (ascii "digestAlgorithm"), tstr (ascii "SHA-256"),
    tstr (ascii "docType"), tstr dom.docType,
    tstr (ascii "valueDigests"), buildValueDigests dom 0 itemDigest,
    tstr (ascii "deviceKeyInfo"), buildDeviceKeyInfo coseKey,
    tstr (ascii "validityInfo"), buildValidityInfo ck]

/-! ### The credential -/

/-- `Credential`. -/
structure Credential where
  issuerKey : PrivateKey
  docType : List UInt8
  issuerPkX : String
  issuerPkY : String
  device : PrivateKey
  issuerSigned : List UInt8
  clock : CredClock

/-- `taggedMsoBytes`: what the issuer signs, for the content of the tagged MSO. -/
def taggedMsoBytes (tmsoContent : List UInt8) : List UInt8 :=
  kCose1Prefix ++ be16 tmsoContent.length ++ tmsoContent

/-- `issuerAuth`: protected header, unprotected header, payload and signature. -/
def issuerAuth (payload issuerSig : List UInt8) : Go (List UInt8) :=
  cat [.ok [0x84], bstr [0xA1, 0x01, 0x26], .ok [0xA0], .ok payload, bstr issuerSig]

/-- `issuerSigned`: the name spaces with the one tagged item, and the issuer's signature. -/
def issuerSigned (dom : Domain) (taggedItem issuerAuth : List UInt8) : Go (List UInt8) := do
  let nameSpaces ← cat [.ok [0xA1], tstr dom.nameSpace, cat [.ok [0x81], .ok taggedItem]]
  cat [.ok [0xA2], tstr (ascii "nameSpaces"), .ok nameSpaces,
    tstr (ascii "issuerAuth"), .ok issuerAuth]

/-- `credentialWith(issuer, device, salt, elemValue, ck)`. -/
def credentialWith (dom : Domain) (sha : Sha256) (sign : Sign) (issuer device : PrivateKey)
    (salt elemValue : List UInt8) (ck : CredClock) : Go Credential := do
  let itemMap ← buildIssuerSignedItemMap 0 salt elemID elemValue
  let taggedItem ← wrapTag24 itemMap
  let itemDigest := sha.sum256 taggedItem
  let x ← coord32 device.x
  let y ← coord32 device.y
  let coseKey ← buildCOSEKey x y
  let mso ← buildMSO dom itemDigest coseKey ck
  if mso.length < 256 then
    .error (.err ("MSO only " ++ toString mso.length ++
      " bytes, need >= 256 (would break the 0x59 invariant)"))
  else if 65536 ≤ mso.length then
    .error (.err ("MSO too big: " ++ toString mso.length ++ " bytes"))
  else do
    let tmsoContent ← wrapTag24 mso
    let issuerDigest := sha.sum256 (taggedMsoBytes tmsoContent)
    let issuerSig ← rawSig sign issuer issuerDigest
    let payload ← bstr tmsoContent
    let auth ← issuerAuth payload issuerSig
    let signed ← issuerSigned dom taggedItem auth
    let issuerPkX ← pkString issuer.x
    let issuerPkY ← pkString issuer.y
    .ok {
      issuerKey := issuer
      docType := dom.docType
      issuerPkX
      issuerPkY
      device
      issuerSigned := signed
      clock := ck }

/-! ### The presentation -/

/-- `MintResult`. -/
structure MintResult where
  deviceResponse : List UInt8
  transcript : List UInt8
  issuerPkX : String
  issuerPkY : String
  docType : List UInt8
  issuerKey : PrivateKey
  clock : CredClock

/-- `deviceAuthCose1(transcript)`. -/
def deviceAuthCose1 (dom : Domain) (transcript : List UInt8) : Go (List UInt8) := do
  let deviceAuthentication := [0x84, 0x74] ++ ascii "DeviceAuthentication"
  let da ← cat [.ok deviceAuthentication, .ok transcript, tstr dom.docType,
    .ok [0xD8, 0x18, 0x41, 0xA0]]
  let l1 := da.length
  if l1 < 24 then
    .error (.err ("DeviceAuthentication is " ++ toString l1 ++
      " bytes; under 24 upstream's l2 formula (mdoc_witness.h:475) leaves canonical CBOR"))
  else
    let l2 := if 256 ≤ l1 then l1 + 5 else l1 + 4
    cat [.ok [0x84, 0x6A, 0x53, 0x69, 0x67, 0x6E, 0x61, 0x74, 0x75, 0x72, 0x65, 0x31, 0x43, 0xA1,
        0x01, 0x26, 0x40],
      bstrLen l2, .ok [0xD8, 0x18], bstrLen l1, .ok da]

/-- `deviceSignature(device, transcript)`. -/
def deviceSignature (dom : Domain) (sha : Sha256) (sign : Sign) (device : PrivateKey)
    (transcript : List UInt8) : Go (List UInt8) := do
  let cose1 ← deviceAuthCose1 dom transcript
  rawSig sign device (sha.sum256 cose1)

/-- `deviceSigned`: the empty name spaces, and the signature of the device. -/
def deviceSigned (deviceSig : List UInt8) : Go (List UInt8) := do
  let deviceSigCose ← cat [.ok [0x84], bstr [0xA1, 0x01, 0x26], .ok [0xA0], .ok [0xF6],
    bstr deviceSig]
  let deviceAuth ← cat [.ok [0xA1], tstr (ascii "deviceSignature"), .ok deviceSigCose]
  cat [.ok [0xA2], tstr (ascii "nameSpaces"), .ok [0xD8, 0x18, 0x41, 0xA0],
    tstr (ascii "deviceAuth"), .ok deviceAuth]

/-- `deviceResponse`: the one document, in its response. -/
def deviceResponse (dom : Domain) (issuerSigned deviceSigned : List UInt8) :
    Go (List UInt8) := do
  let document ← cat [.ok [0xA3], tstr (ascii "docType"), tstr dom.docType,
    tstr (ascii "issuerSigned"), .ok issuerSigned, tstr (ascii "deviceSigned"), .ok deviceSigned]
  cat [.ok [0xA3], tstr (ascii "version"), tstr (ascii "1.0"),
    tstr (ascii "documents"), cat [.ok [0x81], .ok document],
    tstr (ascii "status"), .ok [0x00]]

/-- `c.Present(transcript)`. -/
def Credential.present (dom : Domain) (sha : Sha256) (sign : Sign) (c : Credential)
    (transcript : List UInt8) : Go MintResult := do
  let deviceSig ← deviceSignature dom sha sign c.device transcript
  let signed ← deviceSigned deviceSig
  let response ← deviceResponse dom c.issuerSigned signed
  .ok {
    deviceResponse := response
    transcript
    issuerPkX := c.issuerPkX
    issuerPkY := c.issuerPkY
    docType := c.docType
    issuerKey := c.issuerKey
    clock := c.clock }

/-! ### What the helpers return -/

/-- The first byte of a head: a literal with its low five bits free, and a small number. -/
theorem ofNat_or {n : ℕ} (h : n < 24) :
    UInt8.ofNat (0x60 ||| n) = UInt8.ofNat (32 * 3 + n) ∧
      UInt8.ofNat (0x40 ||| n) = UInt8.ofNat (32 * 2 + n) := by
  revert n
  decide

/-- The header of a text string. -/
def textHeader (n : ℕ) : List UInt8 :=
  if n < 24 then [UInt8.ofNat (0x60 ||| n)] else [0x78, UInt8.ofNat n]

/-- `tstr` writes a text of up to 255 bytes behind its header, and panics over any other. -/
theorem tstr_eq_ok_iff {s c : List UInt8} :
    tstr s = .ok c ↔ s.length < 256 ∧ c = textHeader s.length ++ s := by
  rw [tstr, textHeader]
  by_cases hshort : s.length < 24
  · simp only [if_pos hshort, Except.ok.injEq]
    exact ⟨fun h => ⟨by omega, h.symm⟩, fun h => h.2.symm⟩
  by_cases hlong : s.length < 256
  · simp only [if_neg hshort, if_pos hlong, Except.ok.injEq]
    exact ⟨fun h => ⟨hlong, h.symm⟩, fun h => h.2.symm⟩
  · simp only [if_neg hshort, if_neg hlong]
    exact ⟨nofun, fun h => absurd h.1 hlong⟩

/-- The header of a byte string. -/
def byteHeader (n : ℕ) : List UInt8 :=
  if n < 24 then [UInt8.ofNat (0x40 ||| n)]
  else if n < 256 then [0x58, UInt8.ofNat n]
  else 0x59 :: be16 n

/-- The header of a byte string is written up to a length of 65535, and beyond it `bstrLen`
panics. -/
theorem bstrLen_eq_ok_iff {n : ℕ} {c : List UInt8} :
    bstrLen n = .ok c ↔ n < 65536 ∧ c = byteHeader n := by
  rw [bstrLen, byteHeader]
  by_cases hshort : n < 24
  · simp only [if_pos hshort, Except.ok.injEq]
    exact ⟨fun h => ⟨by omega, h.symm⟩, fun h => h.2.symm⟩
  by_cases hbyte : n < 256
  · simp only [if_neg hshort, if_pos hbyte, Except.ok.injEq]
    exact ⟨fun h => ⟨by omega, h.symm⟩, fun h => h.2.symm⟩
  by_cases hword : n < 65536
  · simp only [if_neg hshort, if_neg hbyte, if_pos hword, Except.ok.injEq]
    exact ⟨fun h => ⟨hword, h.symm⟩, fun h => h.2.symm⟩
  · simp only [if_neg hshort, if_neg hbyte, if_neg hword]
    exact ⟨nofun, fun h => absurd h.1 hword⟩

/-- So `bstr` writes a string of up to 65535 bytes behind its header. -/
theorem bstr_eq_ok_iff {b c : List UInt8} :
    bstr b = .ok c ↔ b.length < 65536 ∧ c = byteHeader b.length ++ b := by
  rw [bstr, go_eq_ok]
  constructor
  · rintro ⟨header, hheader, h⟩
    obtain ⟨hlen, rfl⟩ := bstrLen_eq_ok_iff.mp hheader
    exact ⟨hlen, (Except.ok.inj h).symm⟩
  · rintro ⟨hlen, rfl⟩
    exact ⟨_, bstrLen_eq_ok_iff.mpr ⟨hlen, rfl⟩, rfl⟩

/-- A concatenation succeeds when its first part and the others do. -/
theorem cat_cons_eq_ok {part : Go (List UInt8)} {parts : List (Go (List UInt8))}
    {c : List UInt8} :
    cat (part :: parts) = .ok c ↔
      ∃ front back, part = .ok front ∧ cat parts = .ok back ∧ c = front ++ back := by
  rw [cat, go_eq_ok]
  constructor
  · rintro ⟨front, hfront, h⟩
    obtain ⟨back, hback, h⟩ := go_eq_ok.mp h
    exact ⟨front, back, hfront, hback, (Except.ok.inj h).symm⟩
  · rintro ⟨front, back, hfront, hback, rfl⟩
    exact ⟨front, hfront, go_eq_ok.mpr ⟨back, hback, rfl⟩⟩

/-- `FillBytes` writes the whole width. -/
theorem length_of_fillBytes {width x : ℕ} {b : List UInt8} (h : fillBytes width x = .ok b) :
    b.length = width := by
  rw [fillBytes] at h
  split at h <;> cases h
  exact length_writeBE width x

/-- A raw signature is two numbers of 32 bytes each. -/
theorem length_of_rawSig {sign : Sign} {priv : PrivateKey} {digest sig : List UInt8}
    (h : rawSig sign priv digest = .ok sig) : sig.length = 64 := by
  rw [rawSig] at h
  split at h
  · cases h
  obtain ⟨front, hfront, h⟩ := go_eq_ok.mp h
  obtain ⟨back, hback, h⟩ := go_eq_ok.mp h
  obtain rfl := Except.ok.inj h
  rw [List.length_append, length_of_fillBytes hfront, length_of_fillBytes hback]

end Mint

end EightEen
