import EightEen.Clocks
import EightEen.Minted

/-!
# Scenarios

`scenario` and `unlinkabilitySet` of `tools/mkfixture/fixture.go`, and what they call: a
credential is minted, presented and proved, certificates are issued, the proof is given to the
verifier, and only then is a fixture put together. Random bytes and the clock are a state that
the calls draw on, and the packages that are not in the repository are in `Tools`.

## Main results

* `scenario_shipped`: what `scenario` hands back has been checked, byte for byte, and deviates
  from an honest presentation where its options say so and nowhere else.
-/

open Js

namespace EightEen

namespace Fixtures

open Mint Scripts

/-! ### Certificates -/

/-- The public key of a certificate: on a curve, or of another Go type. -/
inductive PublicKey where
  | ecdsa (curve : String) (x y : ℕ)
  | other (type : String)
  deriving DecidableEq

/-- `&priv.PublicKey`. -/
def publicKey (priv : PrivateKey) : PublicKey :=
  .ecdsa "P-256" priv.x priv.y

/-- `x509.Certificate`, as far as it is read. -/
structure Certificate where
  raw : List UInt8
  publicKey : PublicKey

/-- `x509.KeyUsage`. -/
inductive KeyUsage where
  | certSign
  | crlSign
  | digitalSignature

/-- `x509.Certificate`, as a template. -/
structure Template where
  serialNumber : ℕ
  organization : String
  commonName : String
  notBefore : ℤ
  notAfter : ℤ
  keyUsage : List KeyUsage
  extKeyUsageAny : Bool := false
  basicConstraintsValid : Bool := false
  isCA : Bool := false

/-! ### The prover and the verifier -/

/-- `RequestedAttribute`. -/
structure RequestedAttribute where
  namespaceId : List UInt8
  id : List UInt8
  cborValue : List UInt8
  namespaceLen : ℕ
  idLen : ℕ
  cborValueLen : ℕ

/-- `C.CString(s)`, up to its end. -/
def cString (s : List UInt8) : List UInt8 :=
  s.takeWhile (· ≠ 0)

/-- `set_attribute(attrs, 0, namespace_id, id, cborvalue, cborvaluelen)`. -/
def setAttribute (namespaceId id cborvalue : List UInt8) : RequestedAttribute where
  namespaceId := namespaceId.take 64
  id := id.take 32
  cborValue := cborvalue.take 64
  namespaceLen := namespaceId.length
  idLen := id.length
  cborValueLen := min cborvalue.length 64

/-- `buildAttrs(requestedValue)`. -/
def buildAttrs (dom : Domain) (requestedValue : List UInt8) : RequestedAttribute :=
  setAttribute (cString dom.nameSpace) (cString elemID) requestedValue

/-- The arguments of `run_mdoc_prover`. -/
structure ProverCall where
  circuit : List UInt8
  mdoc : List UInt8
  pkx : String
  pky : String
  transcript : List UInt8
  attrs : RequestedAttribute
  now : List UInt8

/-- The arguments of `run_mdoc_verifier`. -/
structure VerifierCall where
  circuit : List UInt8
  pkx : String
  pky : String
  transcript : List UInt8
  attrs : RequestedAttribute
  now : List UInt8
  proof : List UInt8
  docType : List UInt8

/-! ### The wire -/

/-- `zkSignedItem`. -/
structure ZkSignedItem where
  elementIdentifier : List UInt8
  elementValue : List UInt8

/-- `zkDocumentDataIso`. The map has one key. -/
structure ZkDocumentDataIso where
  docType : List UInt8
  zkSystemId : String
  issuerSigned : List UInt8 × List ZkSignedItem
  msoX5chain : List UInt8
  timestamp : List UInt8

/-- `zkDocumentIso`. -/
structure ZkDocumentIso where
  documentData : List UInt8
  proof : List UInt8

/-- `zkDeviceResponseIso`. -/
structure ZkDeviceResponseIso where
  version : String
  zkDocuments : List ZkDocumentIso
  status : ℕ

/-! ### Other packages -/

/-- A call that draws on the random bytes and the clock. -/
abbrev Draw (E α : Type) := EStateM Failure E α

/-- What the generator calls of other packages: `crypto`, `time`, `cbor` and longfellow. A
verifier gives one answer to the same arguments. -/
structure Tools (E : Type) where
  sha : Sha256
  location : Location
  now : E → ℤ × E
  read : ℕ → Draw E (List UInt8)
  int : Draw E ℕ
  generateKey : Draw E PrivateKey
  sign : E → Sign × E
  createCertificate : Template → Option Certificate → PublicKey → PrivateKey → Draw E (List UInt8)
  parseCertificate : List UInt8 → Except String Certificate
  checkSignatureFrom : Certificate → Certificate → Except String Unit
  runMdocProver : ProverCall → E → (ℤ × List UInt8) × E
  runMdocVerifier : VerifierCall → ℤ
  marshalDocumentData : ZkDocumentDataIso → Except String (List UInt8)
  marshalDeviceResponse : ZkDeviceResponseIso → Except String (List UInt8)

variable {E α : Type} (tools : Tools E) (dom : Domain)

/-- `fmt.Errorf(text + "%w", err)`. A panic goes on as it is. -/
def wrapped (text : String) (call : Draw E α) : Draw E α := fun e =>
  match call e with
  | .error (.err message) e' => .error (.err (text ++ message)) e'
  | result => result

/-- An error that is wrapped is an error, so a wrapped call succeeds as the call does. -/
theorem wrapped_eq_ok_iff {text : String} {call : Draw E α} {e e' : E} {a : α} :
    (wrapped text call).run e = .ok a e' ↔ call.run e = .ok a e' := by
  show wrapped text call e = .ok a e' ↔ call e = .ok a e'
  rw [wrapped]
  split
  · next message e'' h => simp [h]
  · exact Iff.rfl

/-- The error of a call that draws on nothing. -/
def erring (text : String) (call : Except String α) : Go α :=
  call.mapError fun message => .err (text ++ message)

/-- So it is with a call that draws nothing. -/
theorem erring_eq_ok_iff {text : String} {call : Except String α} {a : α} :
    erring text call = .ok a ↔ call = .ok a := by
  cases call with
  | ok b => rw [erring, Except.mapError, Except.ok.injEq, Except.ok.injEq]
  | error message => exact ⟨nofun, nofun⟩

/-! ### Keys, clocks and transcripts -/

/-- `realTimeClock()`. -/
def drawClock : Draw E CredClock := do
  let now ← modifyGet tools.now
  pure (realTimeClock tools.location now)

/-- `newSessionTranscript()`. -/
def newSessionTranscript : Draw E (List UInt8) := do
  let nonce ← wrapped "session nonce: " (tools.read 16)
  lift (sessionTranscript nonce)

/-- `MintCredentialUnderClock(issuer, elemValue, ck)`. -/
def mintCredentialUnderClock (issuer : PrivateKey) (elemValue : List UInt8) (ck : CredClock) :
    Draw E Credential := do
  let device ← tools.generateKey
  let salt ← tools.read 16
  let sign ← modifyGet tools.sign
  lift (credentialWith dom tools.sha sign issuer device salt elemValue ck)

/-- `MintCredentialClock(elemValue, ck)`. -/
def mintCredentialClock (elemValue : List UInt8) (ck : CredClock) : Draw E Credential := do
  let issuer ← tools.generateKey
  mintCredentialUnderClock tools dom issuer elemValue ck

/-- `c.Present(transcript)`. -/
def present (c : Credential) (transcript : List UInt8) : Draw E MintResult := do
  let sign ← modifyGet tools.sign
  lift (c.present dom tools.sha sign transcript)

/-- `certWindow()`. -/
def certWindow : Draw E (ℤ × ℤ) := do
  let now ← modifyGet tools.now
  pure (addDate tools.location now (-1), addDate tools.location now 1)

/-- `serial()`. -/
def serial : Draw E ℕ :=
  wrapped "serial number: " tools.int

/-- `makeCA(org, nb, na)`. -/
def makeCA (org : String) (nb na : ℤ) : Draw E (Certificate × PrivateKey) := do
  let priv ← tools.generateKey
  let sn ← serial tools
  let der ← tools.createCertificate {
    serialNumber := sn, organization := org, commonName := org, notBefore := nb, notAfter := na,
    keyUsage := [.certSign, .crlSign], extKeyUsageAny := true, basicConstraintsValid := true,
    isCA := true } none (publicKey priv) priv
  let cert ← lift (erring "" (tools.parseCertificate der))
  pure (cert, priv)

/-- `makeLeaf(ca, caKey, subjectPub, nb, na)`. -/
def makeLeaf (ca : Certificate) (caKey : PrivateKey) (subjectPub : PublicKey) (nb na : ℤ) :
    Draw E Certificate := do
  let sn ← serial tools
  let der ← tools.createCertificate {
    serialNumber := sn, organization := "8een M2 Document Signer", commonName := "8een-test-ds",
    notBefore := nb, notAfter := na, keyUsage := [.digitalSignature] } (some ca) subjectPub caKey
  lift (erring "" (tools.parseCertificate der))

/-! ### Proofs -/

/-- `proverErrNames`. -/
def proverErrNames : List String :=
  ["MDOC_PROVER_SUCCESS", "MDOC_PROVER_NULL_INPUT", "MDOC_PROVER_INVALID_INPUT",
    "MDOC_PROVER_CIRCUIT_PARSING_FAILURE", "MDOC_PROVER_HASH_PARSING_FAILURE",
    "MDOC_PROVER_WITNESS_CREATION_FAILURE", "MDOC_PROVER_GENERAL_FAILURE",
    "MDOC_PROVER_MEMORY_ALLOCATION_FAILURE", "MDOC_PROVER_INVALID_ZK_SPEC_VERSION",
    "MDOC_PROVER_ROOT_DECODING_FAILURE", "MDOC_PROVER_DOCUMENTS_MISSING",
    "MDOC_PROVER_DOCUMENT_0_MISSING", "MDOC_PROVER_DOCTYPE_MISSING",
    "MDOC_PROVER_ISSUER_SIGNED_MISSING", "MDOC_PROVER_ISSUER_AUTH_MISSING",
    "MDOC_PROVER_MSO_MISSING", "MDOC_PROVER_NSIG_MISSING", "MDOC_PROVER_NAMESPACES_MISSING",
    "MDOC_PROVER_DEVICE_SIGNED_MISSING", "MDOC_PROVER_DEVICE_AUTH_MISSING",
    "MDOC_PROVER_DEVICE_SIGNATURE_MISSING", "MDOC_PROVER_DEVICE_KEY_MISSING",
    "MDOC_PROVER_MSO_DECODING_FAILURE", "MDOC_PROVER_VALIDITY_INFO_MISSING",
    "MDOC_PROVER_DEVICE_KEY_INFO_MISSING", "MDOC_PROVER_ATTRIBUTE_DECODE_FAILURE",
    "MDOC_PROVER_ATTRIBUTE_EI_MISSING", "MDOC_PROVER_ATTRIBUTE_EV_MISSING",
    "MDOC_PROVER_ATTRIBUTE_DID_MISSING", "MDOC_PROVER_SIGNATURE_FAILURE",
    "MDOC_PROVER_DEVICE_SIGNATURE_FAILURE", "MDOC_PROVER_ATTRIBUTE_NOT_FOUND",
    "MDOC_PROVER_ATTRIBUTE_TOO_LONG", "MDOC_PROVER_TAGGED_MSO_TOO_BIG",
    "MDOC_PROVER_VERSION_NOT_SUPPORTED", "MDOC_PROVER_ATTRIBUTE_RANDOM_MISSING"]

/-- `verifierErrNames`. -/
def verifierErrNames : List String :=
  ["MDOC_VERIFIER_SUCCESS", "MDOC_VERIFIER_CIRCUIT_PARSING_FAILURE",
    "MDOC_VERIFIER_PROOF_TOO_SMALL", "MDOC_VERIFIER_HASH_PARSING_FAILURE",
    "MDOC_VERIFIER_SIGNATURE_PARSING_FAILURE", "MDOC_VERIFIER_GENERAL_FAILURE",
    "MDOC_VERIFIER_NULL_INPUT", "MDOC_VERIFIER_INVALID_INPUT",
    "MDOC_VERIFIER_ARGUMENTS_TOO_SMALL", "MDOC_VERIFIER_ATTRIBUTE_NUMBER_MISMATCH",
    "MDOC_VERIFIER_INVALID_ZK_SPEC_VERSION", "MDOC_VERIFIER_INVALID_CBOR"]

/-- `proverName(c)` and `verifierName(c)`, by their tables. -/
def codeName (names : List String) (c : ℤ) : String :=
  match if 0 ≤ c then names[c.toNat]? else none with
  | some n => n
  | none => "UNKNOWN(" ++ toString c ++ ")"

/-- `RunProver(circuit, m, requestedValue)`. -/
def runProver (circuit : List UInt8) (m : MintResult) (requestedValue : List UInt8) :
    Draw E (List UInt8 × String × ℤ) := do
  let (code, proof) ← modifyGet (tools.runMdocProver {
    circuit, mdoc := m.deviceResponse, pkx := m.issuerPkX, pky := m.issuerPkY,
    transcript := m.transcript, attrs := buildAttrs dom requestedValue,
    now := cString m.clock.now })
  pure (if code ≠ 0 then [] else proof, codeName proverErrNames code, code)

/-- `RunVerifier(circuit, m, proof, requestedValue)`. -/
def runVerifier (circuit : List UInt8) (m : MintResult) (proof requestedValue : List UInt8) :
    String × ℤ :=
  let code := tools.runMdocVerifier {
    circuit, pkx := m.issuerPkX, pky := m.issuerPkY, transcript := m.transcript,
    attrs := buildAttrs dom requestedValue, now := cString m.clock.now, proof,
    docType := cString m.docType }
  (codeName verifierErrNames code, code)

/-- `b[i] ^= 0xFF`. -/
def flipAt (b : List UInt8) (i : ℤ) : Go (List UInt8) :=
  if i < 0 then .error (.panic ("runtime error: index out of range [" ++ toString i ++ "]"))
  else if i < b.length then .ok (b.modify i.toNat (· ^^^ 0xFF))
  else .error (.panic ("runtime error: index out of range [" ++ toString i ++ "] with length " ++
    toString b.length))

/-- `assertFixtureVerifies(circuit, m, proof, leaf, requested, want)`. -/
def assertFixtureVerifies (circuit : List UInt8) (m : MintResult) (proof : List UInt8)
    (leaf : Certificate) (requested : List UInt8) (want : Expectation) : Go String :=
  match leaf.publicKey with
  | .other type => .error (.err ("leaf public key is " ++ type ++ ", want *ecdsa.PublicKey"))
  | .ecdsa curve x y =>
      if PublicKey.ecdsa curve x y ≠ publicKey m.issuerKey then
        .error (.err ("leaf cert does not carry the MSO-signing key: the chain would validate, " ++
          "the service would extract the WRONG (pkx,pky), and every proof would fail with a " ++
          "valid chain"))
      else
        let (vName, vCode) := runVerifier tools dom circuit m proof requested
        match want with
        | .expectAccept =>
            if vCode ≠ 0 then
              .error (.err ("proof must verify, but longfellow rejected it: " ++ vName))
            else .ok vName
        | .expectReject =>
            if vCode = 0 then
              .error (.err ("proof must NOT verify, but longfellow ACCEPTED it — this negative " ++
                "fixture would silently pass"))
            else .ok vName

/-- `mangleLeaf(leaf, ca)`. -/
def mangleLeaf (leaf ca : Certificate) : Go Certificate := do
  let der ← flipAt leaf.raw (leaf.raw.length - 1)
  match tools.parseCertificate der with
  | .error e => .error (.err ("mangled leaf no longer parses (" ++ e ++
      ") — wanted a parseable cert with a bad signature"))
  | .ok mangled =>
      match tools.checkSignatureFrom mangled ca with
      | .ok () => .error (.err ("the byte-flip left the leaf signature VALID — this fixture " ++
          "would chain successfully and the mangled-chain test would silently pass"))
      | .error _ => .ok mangled

/-- What the verifier is shown of a document, next to the proof. -/
def documentData (m : MintResult) (leaf ca : Certificate) (wireValue : List UInt8) :
    ZkDocumentDataIso where
  docType := m.docType
  zkSystemId := circuitHash0
  issuerSigned := (dom.nameSpace, [⟨elemID, wireValue⟩])
  msoX5chain := leaf.raw ++ ca.raw
  timestamp := m.clock.now

/-- The text of `base64.StdEncoding.EncodeToString(bytes)`. -/
def encodeToString (bytes : List UInt8) : List UInt8 :=
  (base64 bytes).flatMap String.utf8EncodeChar

/-- `json.MarshalIndent` of the two texts of a fixture. -/
def marshalIndent (transcript zkDeviceResponse : List UInt8) : List UInt8 :=
  ascii "\x7b\n  \"Transcript\": \"" ++ encodeToString transcript ++
    ascii "\",\n  \"ZKDeviceResponseCBOR\": \"" ++ encodeToString zkDeviceResponse ++
    ascii "\"\n\x7d"

/-- `packageFixture(m, proof, leaf, ca, wireValue)`. -/
def packageFixture (m : MintResult) (proof : List UInt8) (leaf ca : Certificate)
    (wireValue : List UInt8) : Go (List UInt8) := do
  let ddBytes ← erring "marshal DocumentData: "
    (tools.marshalDocumentData (documentData dom m leaf ca wireValue))
  let respBytes ← erring "marshal DeviceResponse: " (tools.marshalDeviceResponse {
    version := "1.0", zkDocuments := [⟨ddBytes, proof⟩], status := 0 })
  .ok (marshalIndent m.transcript respBytes)

/-! ### Scenarios -/

/-- `o.clock == (credClock{})`. -/
def isZeroClock (ck : CredClock) : Bool :=
  ck.validFrom.isEmpty && ck.validUntil.isEmpty && ck.now.isEmpty

/-- The clock of a scenario. -/
def scenarioClock (o : ScenarioOpts) : Draw E CredClock :=
  if isZeroClock o.clock then drawClock tools else pure o.clock

/-- The transcript of a scenario: one over the nonce that the caller supplies, or a fresh one. -/
def scenarioTranscript (o : ScenarioOpts) : Draw E (List UInt8) :=
  match o.sessionNonce with
  | some nonce => lift (sessionTranscript nonce)
  | none => wrapped (o.name ++ ": ") (newSessionTranscript tools)

/-- The proof of a scenario, with a byte flipped if it is to be tampered with. -/
def tampered (o : ScenarioOpts) (proof : List UInt8) : Go (List UInt8) :=
  if o.tamperProof then flipAt proof (proof.length / 2) else .ok proof

/-- The presentation of a scenario, shown under another transcript if it is to be stale. -/
def staled (o : ScenarioOpts) (m : MintResult) : Draw E MintResult :=
  if o.staleNonce then do
    let stale ← wrapped (o.name ++ ": ") (newSessionTranscript tools)
    if stale = m.transcript then
      throw (.err (o.name ++ ": stale nonce equals the fresh one"))
    else pure { m with transcript := stale }
  else pure m

/-- The leaf of a scenario as it is shipped. -/
def shipped (o : ScenarioOpts) (leaf ca : Certificate) : Draw E Certificate :=
  if o.mangleCert then wrapped (o.name ++ ": ") (lift (mangleLeaf tools leaf ca)) else pure leaf

/-- `scenario(circuit, o)`: the fixture, and the DER of the CA. -/
def drawScenario (circuit : List UInt8) (o : ScenarioOpts) :
    Draw E (List UInt8 × List UInt8) := do
  let ck ← scenarioClock tools o
  let cred ← wrapped (o.name ++ ": mint: ") (mintCredentialClock tools dom o.credValue ck)
  let transcript ← scenarioTranscript tools o
  let m ← wrapped (o.name ++ ": present: ") (present tools dom cred transcript)
  let (proof, pName, pCode) ← runProver tools dom circuit m o.credValue
  if pCode ≠ 0 then
    throw (.err (o.name ++ ": prover failed: " ++ pName))
  else do
    let proof ← lift (tampered o proof)
    let m ← staled tools o m
    let (nb, na) ← certWindow tools
    let (ca, caKey) ← wrapped (o.name ++ ": CA: ")
      (makeCA tools "8een M2 Test Issuer CA" nb na)
    let leaf ← wrapped (o.name ++ ": leaf: ")
      (makeLeaf tools ca caKey (publicKey m.issuerKey) nb na)
    let _ ← wrapped (o.name ++ ": ")
      (lift (assertFixtureVerifies tools dom circuit m proof leaf o.wireValue o.want))
    let shipLeaf ← shipped tools o leaf ca
    let fixture ← lift (packageFixture tools dom m proof shipLeaf ca o.wireValue)
    pure (fixture, ca.raw)

/-! ### What is shipped -/

/-- What a fixture is put together from: the credential, its presentation, the proof, and the
certificates, each as it was made and as it is shipped. -/
structure Shipment where
  cred : Credential
  made : MintResult
  shown : MintResult
  proof : List UInt8
  carried : List UInt8
  ca : Certificate
  leaf : Certificate
  shipLeaf : Certificate

/-- The presentation is one of a credential that was minted with the value and the clock of the
options, under the nonce of the options if they have one. -/
structure Presented (tools : Tools E) (dom : Domain) (o : ScenarioOpts) (cred : Credential)
    (m : MintResult) : Prop where
  minted : ∃ issuer device salt sign ck,
    credentialWith dom tools.sha sign issuer device salt o.credValue ck = .ok cred ∧
      if isZeroClock o.clock then ∃ now, ck = realTimeClock tools.location now else ck = o.clock
  presented : ∃ sign transcript, cred.present dom tools.sha sign transcript = .ok m ∧
    ∀ nonce, o.sessionNonce = some nonce → sessionTranscript nonce = .ok transcript

/-- The fixture has been checked, and deviates from an honest presentation where the options say
so and nowhere else. -/
structure Shipment.Meets (tools : Tools E) (dom : Domain) (circuit : List UInt8)
    (o : ScenarioOpts) (x : Shipment) : Prop where
  presented : Presented tools dom o x.cred x.made
  proved : ∃ e e' name, (runProver tools dom circuit x.made o.credValue).run e =
    .ok (x.proof, name, 0) e'
  tampered : tampered o x.proof = .ok x.carried
  staled : if o.staleNonce then
      x.shown = { x.made with transcript := x.shown.transcript } ∧
        x.shown.transcript ≠ x.made.transcript
    else x.shown = x.made
  mangled : if o.mangleCert then mangleLeaf tools x.leaf x.ca = .ok x.shipLeaf
    else x.shipLeaf = x.leaf
  signer : x.leaf.publicKey = publicKey x.shown.issuerKey
  verdict : (runVerifier tools dom circuit x.shown x.carried o.wireValue).2 = 0 ↔
    o.want = .expectAccept

variable {tools dom}

/-- What the guard of the generator has found when it lets a fixture pass. -/
theorem assertFixtureVerifies_eq_ok {circuit : List UInt8} {m : MintResult}
    {proof requested : List UInt8} {leaf : Certificate} {want : Expectation} {name : String}
    (h : assertFixtureVerifies tools dom circuit m proof leaf requested want = .ok name) :
    leaf.publicKey = publicKey m.issuerKey ∧
      ((runVerifier tools dom circuit m proof requested).2 = 0 ↔ want = .expectAccept) := by
  rw [assertFixtureVerifies] at h
  split at h
  · cases h
  · next curve x y hkey =>
      split at h
      · cases h
      · next hsigner =>
          refine ⟨hkey.trans (not_not.mp hsigner), ?_⟩
          cases want with
          | expectAccept =>
              dsimp only at h
              split at h
              · cases h
              · next hcode => exact iff_of_true (not_not.mp hcode) rfl
          | expectReject =>
              dsimp only at h
              split at h
              · cases h
              · next hcode => exact iff_of_false hcode nofun

/-- **The clock of a scenario** is the one of its options, and where that is not set, the real
time of some instant in the location of the machine. -/
theorem scenarioClock_eq_ok {o : ScenarioOpts} {e e' : E} {ck : CredClock}
    (h : (scenarioClock tools o).run e = .ok ck e') :
    if isZeroClock o.clock then ∃ now, ck = realTimeClock tools.location now else ck = o.clock := by
  rw [scenarioClock] at h
  split at h
  · next hzero =>
      rw [if_pos hzero]
      rw [drawClock] at h
      obtain ⟨now, _, -, h⟩ := bind_eq_ok_iff.mp h
      exact ⟨now, (pure_eq_ok_iff.mp h).1⟩
  · next hzero =>
      rw [if_neg hzero]
      exact (pure_eq_ok_iff.mp h).1

/-- **A credential under a clock** is one of a device key, a salt and a signature that were drawn,
for the given issuer and the given clock. -/
theorem mintCredentialUnderClock_eq_ok {issuer : PrivateKey} {elemValue : List UInt8}
    {ck : CredClock} {e e' : E} {cred : Credential}
    (h : (mintCredentialUnderClock tools dom issuer elemValue ck).run e = .ok cred e') :
    ∃ device salt sign,
      credentialWith dom tools.sha sign issuer device salt elemValue ck = .ok cred := by
  rw [mintCredentialUnderClock] at h
  obtain ⟨device, _, -, h⟩ := bind_eq_ok_iff.mp h
  obtain ⟨salt, _, -, h⟩ := bind_eq_ok_iff.mp h
  obtain ⟨sign, _, -, h⟩ := bind_eq_ok_iff.mp h
  exact ⟨device, salt, sign, (lift_eq_ok_iff.mp h).1⟩

/-- **A presentation** is one of the credential it is given, over the transcript it is given, with
some signature of the device. -/
theorem present_eq_ok {c : Credential} {transcript : List UInt8} {e e' : E} {m : MintResult}
    (h : (present tools dom c transcript).run e = .ok m e') :
    ∃ sign, c.present dom tools.sha sign transcript = .ok m := by
  rw [present] at h
  obtain ⟨sign, _, -, h⟩ := bind_eq_ok_iff.mp h
  exact ⟨sign, (lift_eq_ok_iff.mp h).1⟩

/-- **A scenario with a stale nonce** shows the same presentation beside another transcript; any
other one shows it as it was minted. -/
theorem staled_eq_ok {o : ScenarioOpts} {m shown : MintResult} {e e' : E}
    (h : (staled tools o m).run e = .ok shown e') :
    if o.staleNonce then
      shown = { m with transcript := shown.transcript } ∧ shown.transcript ≠ m.transcript
    else shown = m := by
  rw [staled] at h
  split at h
  · next hstale =>
      rw [if_pos hstale]
      obtain ⟨stale, e₁, -, h⟩ := bind_eq_ok_iff.mp h
      split at h
      · cases h
      · next hne =>
          obtain ⟨rfl, -⟩ := pure_eq_ok_iff.mp h
          exact ⟨rfl, hne⟩
  · next hstale =>
      rw [if_neg hstale]
      exact (pure_eq_ok_iff.mp h).1

/-- **A scenario with a mangled certificate** ships what `mangleLeaf` makes of the leaf, and any
other one the leaf itself. -/
theorem shipped_eq_ok {o : ScenarioOpts} {leaf ca shipLeaf : Certificate} {e e' : E}
    (h : (shipped tools o leaf ca).run e = .ok shipLeaf e') :
    if o.mangleCert then mangleLeaf tools leaf ca = .ok shipLeaf else shipLeaf = leaf := by
  rw [shipped] at h
  split at h
  · next hmangle =>
      rw [if_pos hmangle]
      exact (lift_eq_ok_iff.mp (wrapped_eq_ok_iff.mp h)).1
  · next hmangle =>
      rw [if_neg hmangle]
      exact (pure_eq_ok_iff.mp h).1

/-- **What `scenario` hands back has been checked.** -/
theorem scenario_shipped {circuit : List UInt8} {o : ScenarioOpts} {fixture caDER : List UInt8}
    {e e' : E} (h : (drawScenario tools dom circuit o).run e = .ok (fixture, caDER) e') :
    ∃ x : Shipment, x.Meets tools dom circuit o ∧ x.ca.raw = caDER ∧
      packageFixture tools dom x.shown x.carried x.shipLeaf x.ca o.wireValue = .ok fixture := by
  rw [drawScenario] at h
  obtain ⟨ck, _, hclock, h⟩ := bind_eq_ok_iff.mp h
  obtain ⟨cred, _, hmint, h⟩ := bind_eq_ok_iff.mp h
  obtain ⟨transcript, _, htranscript, h⟩ := bind_eq_ok_iff.mp h
  obtain ⟨m, e₁, hpresent, h⟩ := bind_eq_ok_iff.mp h
  obtain ⟨⟨proof, name, code⟩, e₂, hprove, h⟩ := bind_eq_ok_iff.mp h
  dsimp only at h
  split at h
  · cases h
  next hcode =>
  obtain ⟨carried, _, htampered, h⟩ := bind_eq_ok_iff.mp h
  obtain ⟨shown, _, hstaled, h⟩ := bind_eq_ok_iff.mp h
  obtain ⟨⟨nb, na⟩, _, -, h⟩ := bind_eq_ok_iff.mp h
  obtain ⟨⟨ca, caKey⟩, _, -, h⟩ := bind_eq_ok_iff.mp h
  obtain ⟨leaf, _, -, h⟩ := bind_eq_ok_iff.mp h
  obtain ⟨vName, _, hassert, h⟩ := bind_eq_ok_iff.mp h
  obtain ⟨shipLeaf, _, hshipped, h⟩ := bind_eq_ok_iff.mp h
  obtain ⟨fixture', _, hpackage, h⟩ := bind_eq_ok_iff.mp h
  obtain ⟨heq, -⟩ := pure_eq_ok_iff.mp h
  obtain ⟨rfl, rfl⟩ := Prod.mk.inj heq
  rw [wrapped_eq_ok_iff, mintCredentialClock] at hmint
  obtain ⟨issuer, _, -, hmint⟩ := bind_eq_ok_iff.mp hmint
  obtain ⟨device, salt, sign, hcred⟩ := mintCredentialUnderClock_eq_ok hmint
  obtain ⟨sign', hm⟩ := present_eq_ok (wrapped_eq_ok_iff.mp hpresent)
  obtain ⟨hsigner, hverdict⟩ :=
    assertFixtureVerifies_eq_ok (lift_eq_ok_iff.mp (wrapped_eq_ok_iff.mp hassert)).1
  refine ⟨⟨cred, m, shown, proof, carried, ca, leaf, shipLeaf⟩, ⟨⟨?_, ?_⟩, ?_,
    (lift_eq_ok_iff.mp htampered).1, staled_eq_ok hstaled, shipped_eq_ok hshipped, hsigner,
    hverdict⟩, rfl, (lift_eq_ok_iff.mp hpackage).1⟩
  · exact ⟨issuer, device, salt, sign, ck, hcred, scenarioClock_eq_ok hclock⟩
  · refine ⟨sign', transcript, hm, fun nonce hnonce => ?_⟩
    rw [scenarioTranscript, hnonce] at htranscript
    exact (lift_eq_ok_iff.mp htranscript).1
  · rw [not_not.mp hcode] at hprove
    exact ⟨e₁, e₂, name, hprove⟩

/-! ### Tools to evaluate with -/

/-- The encoding of a structure as a map of its fields. -/
def sampleMap (entries : List (List UInt8 × Go (List UInt8))) : Go (List UInt8) := do
  let body ← cat (entries.flatMap fun entry => [tstr entry.1, entry.2])
  pure (UInt8.ofNat (0xA0 + entries.length) :: body)

/-- The end of a call as one that returns an error. -/
def sampleEnd {α : Type} : Go α → Except String α
  | .ok a => .ok a
  | .error (.err message) => .error message
  | .error (.panic message) => .error message

/-- Random bytes that are counted up, one key, and a proof system whose proofs are what they
prove. A certificate is its serial number and a byte that stands for its signature. -/
def sampleTools : Tools ℕ where
  sha := sampleSha
  location := sampleLocation
  now e := (1709208000, e)
  read n e := .ok (List.replicate n (UInt8.ofNat e)) (e + 1)
  int e := .ok e (e + 1)
  generateKey := pure sampleDevice
  sign e := (sampleSign, e)
  createCertificate template _ _ _ := pure [UInt8.ofNat template.serialNumber, 0x30]
  parseCertificate der := .ok ⟨der, publicKey sampleDevice⟩
  checkSignatureFrom c _ :=
    if c.raw.getLast? = some 0x30 then .ok () else .error "x509: ECDSA verification failure"
  runMdocProver call e := ((0, call.transcript ++ call.attrs.cborValue), e)
  runMdocVerifier call := if call.proof = call.transcript ++ call.attrs.cborValue then 0 else 5
  marshalDocumentData d := sampleEnd (sampleMap [
    (ascii "DocType", tstr d.docType), (ascii "ZkSystemId", tstr (ascii d.zkSystemId)),
    (ascii "IssuerSigned", sampleMap [(d.issuerSigned.1, do
      let items ← cat (d.issuerSigned.2.map fun item => sampleMap [
        (ascii "ElementIdentifier", tstr item.elementIdentifier),
        (ascii "ElementValue", .ok item.elementValue)])
      .ok (UInt8.ofNat (0x80 + d.issuerSigned.2.length) :: items))]),
    (ascii "MsoX5chain", bstr d.msoX5chain), (ascii "Timestamp", tstr d.timestamp)])
  marshalDeviceResponse r := sampleEnd (sampleMap [
    (ascii "Version", tstr (ascii r.version)), (ascii "ZKDocuments", do
      let documents ← cat (r.zkDocuments.map fun document => sampleMap [
        (ascii "DocumentData", bstr document.documentData),
        (ascii "Proof", bstr document.proof)])
      .ok (UInt8.ofNat (0x80 + r.zkDocuments.length) :: documents)),
    (ascii "Status", cborUint r.status)])

end Fixtures

end EightEen
