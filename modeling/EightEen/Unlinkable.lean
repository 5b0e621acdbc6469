import EightEen.Scenario

/-!
# The Unlinkability Set

`unlinkabilitySet` of `tools/mkfixture/fixture.go`: one issuer with one CA and one leaf, two
credentials, and three presentations, of which two are of the same credential. The check on them
asks that whatever a verifier can see of two presentations of one credential is shared by the
third, and so is the issuer's and not the holder's.

## Main results

* `drawPresentation_presents`: what a presentation has been made and checked against.
* `unlinkabilitySet_shares`: the three presentations are of two credentials of one issuer, the
  verifier has accepted them, and all that it was shown of them besides the transcript and the
  proof is the same.
-/

open Js

namespace EightEen

namespace Fixtures

open Mint Scripts

variable {E : Type} (tools : Tools E) (dom : Domain)

/-- What the presentations share: the certificates, the clock, and the two credentials. -/
structure Issuer where
  ca : Certificate
  leaf : Certificate
  credA : Credential
  credB : Credential

/-- `unlinkabilitySet`, up to the first presentation. -/
def drawIssuer : Draw E Issuer := do
  let issuer ← wrapped "unlinkable: issuer key: " tools.generateKey
  let (nb, na) ← certWindow tools
  let (ca, caKey) ← wrapped "unlinkable: CA: "
    (makeCA tools "8een M2 Unlinkability Issuer CA" nb na)
  let leaf ← wrapped "unlinkable: leaf: " (makeLeaf tools ca caKey (publicKey issuer) nb na)
  let ck ← drawClock tools
  let credA ← wrapped "unlinkable: credential A: "
    (mintCredentialUnderClock tools dom issuer [0xF5] ck)
  let credB ← wrapped "unlinkable: credential B: "
    (mintCredentialUnderClock tools dom issuer [0xF5] ck)
  pure ⟨ca, leaf, credA, credB⟩

/-- `present(name, c)`. -/
def drawPresentation (circuit : List UInt8) (x : Issuer) (name : String) (c : Credential) :
    Draw E (List UInt8) := do
  let transcript ← wrapped ("unlinkable " ++ name ++ ": ") (newSessionTranscript tools)
  let m ← wrapped ("unlinkable " ++ name ++ ": present: ") (present tools dom c transcript)
  let (proof, pName, pCode) ← runProver tools dom circuit m [0xF5]
  if pCode ≠ 0 then
    throw (.err ("unlinkable " ++ name ++ ": prover failed: " ++ pName))
  else do
    let _ ← wrapped ("unlinkable " ++ name ++ ": ")
      (lift (assertFixtureVerifies tools dom circuit m proof x.leaf [0xF5] .expectAccept))
    lift (packageFixture tools dom m proof x.leaf x.ca [0xF5])

/-- `unlinkabilitySet(circuit)`: the fixtures by name, and the DER of the CA. -/
def drawUnlinkabilitySet (circuit : List UInt8) :
    Draw E (List (String × List UInt8) × List UInt8) := do
  let x ← drawIssuer tools dom
  let a1 ← drawPresentation tools dom circuit x "a1" x.credA
  let a2 ← drawPresentation tools dom circuit x "a2" x.credA
  let b1 ← drawPresentation tools dom circuit x "b1" x.credB
  if a1 = a2 then
    throw (.err ("unlinkable: a1 and a2 are byte-identical — the two presentations did not " ++
      "actually differ"))
  else
    pure ([("unlinkable-a1", a1), ("unlinkable-a2", a2), ("unlinkable-b1", b1)], x.ca.raw)

variable {tools dom}

/-! ### What a presentation has of its issuer -/

/-- The credential that `present(name, c)` is called with under this name. -/
def Issuer.credential (x : Issuer) (name : String) : Credential :=
  if name = "b1" then x.credB else x.credA

/-- The two credentials were minted with the value `true`, under the key of one issuer and on
the clock of one moment. -/
structure Issuer.Minted (tools : Tools E) (dom : Domain) (issuer : PrivateKey) (now : ℤ)
    (x : Issuer) : Prop where
  credA : ∃ device salt sign, credentialWith dom tools.sha sign issuer device salt [0xF5]
    (realTimeClock tools.location now) = .ok x.credA
  credB : ∃ device salt sign, credentialWith dom tools.sha sign issuer device salt [0xF5]
    (realTimeClock tools.location now) = .ok x.credB

/-- The fixture is a presentation of the credential of this name, proved and accepted, under a
leaf that carries the key that the credential was signed with. -/
structure Presents (tools : Tools E) (dom : Domain) (circuit : List UInt8) (x : Issuer)
    (name : String) (m : MintResult) (proof fixture : List UInt8) : Prop where
  presented : ∃ sign transcript,
    (x.credential name).present dom tools.sha sign transcript = .ok m
  proved : ∃ e e' pName, (runProver tools dom circuit m [0xF5]).run e = .ok (proof, pName, 0) e'
  signer : x.leaf.publicKey = publicKey (x.credential name).issuerKey
  accepted : (runVerifier tools dom circuit m proof [0xF5]).2 = 0
  packaged : packageFixture tools dom m proof x.leaf x.ca [0xF5] = .ok fixture

/-- The credential is one of the issuer, on the clock. -/
structure IssuedBy (dom : Domain) (issuer : PrivateKey) (ck : CredClock) (c : Credential) :
    Prop where
  docType : c.docType = dom.docType
  issuerKey : c.issuerKey = issuer
  issuerPkX : pkString issuer.x = .ok c.issuerPkX
  issuerPkY : pkString issuer.y = .ok c.issuerPkY
  clock : c.clock = ck

theorem issuedBy_of_credentialWith {sha : Sha256} {sign : Sign} {issuer device : PrivateKey}
    {salt elemValue : List UInt8} {ck : CredClock} {c : Credential}
    (h : credentialWith dom sha sign issuer device salt elemValue ck = .ok c) :
    IssuedBy dom issuer ck c := by
  rw [credentialWith] at h
  obtain ⟨itemMap, -, h⟩ := go_eq_ok.mp h
  obtain ⟨taggedItem, -, h⟩ := go_eq_ok.mp h
  obtain ⟨x, -, h⟩ := go_eq_ok.mp h
  obtain ⟨y, -, h⟩ := go_eq_ok.mp h
  obtain ⟨coseKey, -, h⟩ := go_eq_ok.mp h
  obtain ⟨mso, -, h⟩ := go_eq_ok.mp h
  split at h
  · cases h
  split at h
  · cases h
  obtain ⟨tmsoContent, -, h⟩ := go_eq_ok.mp h
  obtain ⟨issuerSig, -, h⟩ := go_eq_ok.mp h
  obtain ⟨payload, -, h⟩ := go_eq_ok.mp h
  obtain ⟨auth, -, h⟩ := go_eq_ok.mp h
  obtain ⟨signed, -, h⟩ := go_eq_ok.mp h
  obtain ⟨pkX, hpkX, h⟩ := go_eq_ok.mp h
  obtain ⟨pkY, hpkY, h⟩ := go_eq_ok.mp h
  obtain rfl := Except.ok.inj h
  exact ⟨rfl, rfl, hpkX, hpkY, rfl⟩

/-- A presentation is of its credential. -/
theorem present_fields {sha : Sha256} {sign : Sign} {c : Credential} {transcript : List UInt8}
    {m : MintResult} (h : c.present dom sha sign transcript = .ok m) :
    m.issuerPkX = c.issuerPkX ∧ m.issuerPkY = c.issuerPkY ∧ m.docType = c.docType ∧
      m.issuerKey = c.issuerKey ∧ m.clock = c.clock := by
  rw [Credential.present] at h
  obtain ⟨deviceSig, -, h⟩ := go_eq_ok.mp h
  obtain ⟨signed, -, h⟩ := go_eq_ok.mp h
  obtain ⟨response, -, h⟩ := go_eq_ok.mp h
  obtain rfl := Except.ok.inj h
  exact ⟨rfl, rfl, rfl, rfl, rfl⟩

/-! ### What the verifier is shown -/

/-- What is the same for every presentation under an issuer: the arguments of the verifier but
for the transcript and the proof, and the data of the document. -/
structure Common where
  issuerPkX : String
  issuerPkY : String
  leaf : Certificate
  ca : Certificate
  clock : CredClock

/-- The call that the verifier gets for a presentation. -/
def Common.call (dom : Domain) (circuit : List UInt8) (shared : Common)
    (transcript proof : List UInt8) : VerifierCall where
  circuit := circuit
  pkx := shared.issuerPkX
  pky := shared.issuerPkY
  transcript := transcript
  attrs := buildAttrs dom [0xF5]
  now := cString shared.clock.now
  proof := proof
  docType := cString dom.docType

/-- The data of the document of a presentation. -/
def Common.data (dom : Domain) (shared : Common) : ZkDocumentDataIso where
  docType := dom.docType
  zkSystemId := circuitHash0
  issuerSigned := (dom.nameSpace, [⟨elemID, [0xF5]⟩])
  msoX5chain := shared.leaf.raw ++ shared.ca.raw
  timestamp := shared.clock.now

/-- The fixture shows the verifier this transcript and this proof, and nothing else that is not
shared. -/
structure Shows (tools : Tools E) (dom : Domain) (circuit : List UInt8) (shared : Common)
    (fixture transcript proof : List UInt8) : Prop where
  accepted : tools.runMdocVerifier (shared.call dom circuit transcript proof) = 0
  packaged : ∃ ddBytes respBytes, tools.marshalDocumentData (shared.data dom) = .ok ddBytes ∧
    tools.marshalDeviceResponse ⟨"1.0", [⟨ddBytes, proof⟩], 0⟩ = .ok respBytes ∧
    fixture = marshalIndent transcript respBytes

/-- Fixtures that show the same are the same. -/
theorem Shows.eq {circuit fixture fixture' transcript proof : List UInt8} {shared : Common}
    (h : Shows tools dom circuit shared fixture transcript proof)
    (h' : Shows tools dom circuit shared fixture' transcript proof) : fixture = fixture' := by
  obtain ⟨dd, resp, hdd, hresp, rfl⟩ := h.packaged
  obtain ⟨dd', resp', hdd', hresp', rfl⟩ := h'.packaged
  obtain rfl := Except.ok.inj (hdd.symm.trans hdd')
  rw [Except.ok.inj (hresp.symm.trans hresp')]

/-- What `present(name, c)` hands back has been made of the credential, proved, and accepted. -/
theorem drawPresentation_presents {circuit : List UInt8} {x : Issuer} {name : String} {e e' : E}
    {fixture : List UInt8}
    (h : (drawPresentation tools dom circuit x name (x.credential name)).run e =
      .ok fixture e') : ∃ m proof, Presents tools dom circuit x name m proof fixture := by
  rw [drawPresentation] at h
  obtain ⟨transcript, _, -, h⟩ := bind_eq_ok_iff.mp h
  obtain ⟨m, e₁, hpresent, h⟩ := bind_eq_ok_iff.mp h
  obtain ⟨⟨proof, pName, pCode⟩, e₂, hprove, h⟩ := bind_eq_ok_iff.mp h
  dsimp only at h
  split at h
  · cases h
  next hcode =>
  rw [not_not.mp hcode] at hprove
  obtain ⟨vName, _, hassert, h⟩ := bind_eq_ok_iff.mp h
  obtain ⟨sign, hm⟩ := present_eq_ok (wrapped_eq_ok_iff.mp hpresent)
  obtain ⟨-, -, -, hkey, -⟩ := present_fields hm
  obtain ⟨hsigner, hverdict⟩ :=
    assertFixtureVerifies_eq_ok (lift_eq_ok_iff.mp (wrapped_eq_ok_iff.mp hassert)).1
  exact ⟨m, proof, {
    presented := ⟨sign, transcript, hm⟩
    proved := ⟨e₁, e₂, pName, hprove⟩
    signer := hkey ▸ hsigner
    accepted := hverdict.mpr rfl
    packaged := (lift_eq_ok_iff.mp h).1 }⟩

/-- **A presentation** shows nothing of its credential but what the issuer gave to both. -/
theorem Presents.shows {circuit : List UInt8} {x : Issuer} {name : String} {m : MintResult}
    {proof fixture : List UInt8} (h : Presents tools dom circuit x name m proof fixture)
    {issuer : PrivateKey} {ck : CredClock} (hissued : IssuedBy dom issuer ck (x.credential name)) :
    Shows tools dom circuit
      ⟨(x.credential name).issuerPkX, (x.credential name).issuerPkY, x.leaf, x.ca, ck⟩
      fixture m.transcript proof := by
  obtain ⟨sign, transcript, hm⟩ := h.presented
  obtain ⟨hpkX, hpkY, hdoc, -, hclock⟩ := present_fields hm
  have hpackage := h.packaged
  rw [packageFixture] at hpackage
  obtain ⟨ddBytes, hdd, hpackage⟩ := go_eq_ok.mp hpackage
  obtain ⟨respBytes, hresp, hpackage⟩ := go_eq_ok.mp hpackage
  have haccepted := h.accepted
  rw [erring_eq_ok_iff, documentData, hdoc, hissued.docType, hclock, hissued.clock] at hdd
  rw [erring_eq_ok_iff] at hresp
  rw [runVerifier, hpkX, hpkY, hdoc, hissued.docType, hclock, hissued.clock] at haccepted
  exact ⟨haccepted, ddBytes, respBytes, hdd, hresp, (Except.ok.inj hpackage).symm⟩

/-- The credentials of the set are of one issuer, on one clock. -/
theorem drawIssuer_eq_ok {e e' : E} {x : Issuer}
    (h : (drawIssuer tools dom).run e = .ok x e') :
    ∃ issuer now, x.Minted tools dom issuer now := by
  rw [drawIssuer] at h
  obtain ⟨issuer, _, -, h⟩ := bind_eq_ok_iff.mp h
  obtain ⟨⟨nb, na⟩, _, -, h⟩ := bind_eq_ok_iff.mp h
  obtain ⟨⟨ca, caKey⟩, _, -, h⟩ := bind_eq_ok_iff.mp h
  obtain ⟨leaf, _, -, h⟩ := bind_eq_ok_iff.mp h
  obtain ⟨ck, _, hclock, h⟩ := bind_eq_ok_iff.mp h
  obtain ⟨credA, _, hA, h⟩ := bind_eq_ok_iff.mp h
  obtain ⟨credB, _, hB, h⟩ := bind_eq_ok_iff.mp h
  obtain ⟨rfl, -⟩ := pure_eq_ok_iff.mp h
  rw [drawClock] at hclock
  obtain ⟨now, _, -, hclock⟩ := bind_eq_ok_iff.mp hclock
  obtain ⟨rfl, -⟩ := pure_eq_ok_iff.mp hclock
  exact ⟨issuer, now, mintCredentialUnderClock_eq_ok (wrapped_eq_ok_iff.mp hA),
    mintCredentialUnderClock_eq_ok (wrapped_eq_ok_iff.mp hB)⟩

/-- Either credential is one of the issuer. -/
theorem Issuer.Minted.issuedBy {issuer : PrivateKey} {now : ℤ} {x : Issuer}
    (h : x.Minted tools dom issuer now) (name : String) :
    IssuedBy dom issuer (realTimeClock tools.location now) (x.credential name) := by
  rw [Issuer.credential]
  split
  · obtain ⟨_, _, _, hB⟩ := h.credB
    exact issuedBy_of_credentialWith hB
  · obtain ⟨_, _, _, hA⟩ := h.credA
    exact issuedBy_of_credentialWith hA

/-- What is shown of any presentation besides the transcript and the proof. -/
def Issuer.common (tools : Tools E) (now : ℤ) (x : Issuer) : Common where
  issuerPkX := x.credA.issuerPkX
  issuerPkY := x.credA.issuerPkY
  leaf := x.leaf
  ca := x.ca
  clock := realTimeClock tools.location now

/-- The presentations of both credentials show the same, since both carry the issuer's key. -/
theorem Presents.shows_common {circuit : List UInt8} {x : Issuer} {name : String}
    {m : MintResult} {proof fixture : List UInt8}
    (h : Presents tools dom circuit x name m proof fixture) {issuer : PrivateKey} {now : ℤ}
    (hminted : x.Minted tools dom issuer now) :
    Shows tools dom circuit (x.common tools now) fixture m.transcript proof := by
  have hissued := hminted.issuedBy name
  obtain ⟨_, _, _, hA⟩ := hminted.credA
  have hissuedA := issuedBy_of_credentialWith hA
  have hshows := h.shows hissued
  rwa [Except.ok.inj (hissued.issuerPkX.symm.trans hissuedA.issuerPkX),
    Except.ok.inj (hissued.issuerPkY.symm.trans hissuedA.issuerPkY)] at hshows

/-- **All that tells the presentations of the set apart is the transcript and the proof.** Two
are of one credential and the third is of another, and one issuer has minted both. The verifier
has accepted the three of them under arguments that are the same but for these two, the data of
the document is the same in the three fixtures, and the two presentations of one credential
differ. -/
theorem unlinkabilitySet_shares {circuit caDER : List UInt8} {e e' : E}
    {fixtures : List (String × List UInt8)}
    (h : (drawUnlinkabilitySet tools dom circuit).run e = .ok (fixtures, caDER) e') :
    ∃ (x : Issuer) (issuer : PrivateKey) (now : ℤ) (shared : Common)
        (shown : String → MintResult × List UInt8) (fixture : String → List UInt8),
      x.Minted tools dom issuer now ∧ x.ca.raw = caDER ∧ shared.leaf = x.leaf ∧
      shared.ca = x.ca ∧
      fixtures = ["a1", "a2", "b1"].map (fun name => ("unlinkable-" ++ name, fixture name)) ∧
      (∀ name ∈ ["a1", "a2", "b1"],
        Presents tools dom circuit x name (shown name).1 (shown name).2 (fixture name) ∧
        Shows tools dom circuit shared (fixture name) (shown name).1.transcript
          (shown name).2) ∧
      ((shown "a1").1.transcript, (shown "a1").2) ≠
        ((shown "a2").1.transcript, (shown "a2").2) := by
  rw [drawUnlinkabilitySet] at h
  obtain ⟨x, _, hx, h⟩ := bind_eq_ok_iff.mp h
  obtain ⟨fixture1, _, ha1, h⟩ := bind_eq_ok_iff.mp h
  obtain ⟨fixture2, _, ha2, h⟩ := bind_eq_ok_iff.mp h
  obtain ⟨fixture3, _, hb1, h⟩ := bind_eq_ok_iff.mp h
  split at h
  · cases h
  next hne =>
  obtain ⟨heq, -⟩ := pure_eq_ok_iff.mp h
  obtain ⟨rfl, rfl⟩ := Prod.mk.inj heq
  obtain ⟨issuer, now, hminted⟩ := drawIssuer_eq_ok hx
  obtain ⟨m1, p1, h1⟩ : ∃ m p, Presents tools dom circuit x "a1" m p fixture1 :=
    drawPresentation_presents ha1
  obtain ⟨m2, p2, h2⟩ : ∃ m p, Presents tools dom circuit x "a2" m p fixture2 :=
    drawPresentation_presents ha2
  obtain ⟨m3, p3, h3⟩ : ∃ m p, Presents tools dom circuit x "b1" m p fixture3 :=
    drawPresentation_presents hb1
  refine ⟨x, issuer, now, x.common tools now,
    fun name => if name = "a1" then (m1, p1) else if name = "a2" then (m2, p2) else (m3, p3),
    fun name => if name = "a1" then fixture1 else if name = "a2" then fixture2 else fixture3,
    hminted, rfl, rfl, rfl, rfl, ?_, ?_⟩
  · simp only [List.forall_mem_cons]
    exact ⟨⟨h1, h1.shows_common hminted⟩, ⟨h2, h2.shows_common hminted⟩,
      ⟨h3, h3.shows_common hminted⟩, by simp⟩
  · intro hsame
    obtain ⟨htranscript, hproof⟩ := Prod.mk.inj hsame
    change m1.transcript = m2.transcript at htranscript
    change p1 = p2 at hproof
    have hshows := h2.shows_common hminted
    rw [← htranscript, ← hproof] at hshows
    exact hne ((h1.shows_common hminted).eq hshows)

/-- The set that the sample tools make is such a set. -/
theorem unlinkabilitySet_shares_sampleTools :
    ∃ fixtures caDER e, (drawUnlinkabilitySet sampleTools defaultDomain []).run 0 =
        .ok (fixtures, caDER) e ∧
      ∃ (x : Issuer) (issuer : PrivateKey) (now : ℤ) (shared : Common)
          (shown : String → MintResult × List UInt8) (fixture : String → List UInt8),
        x.Minted sampleTools defaultDomain issuer now ∧ x.ca.raw = caDER ∧ shared.leaf = x.leaf ∧
        shared.ca = x.ca ∧
        fixtures = ["a1", "a2", "b1"].map (fun name => ("unlinkable-" ++ name, fixture name)) ∧
        (∀ name ∈ ["a1", "a2", "b1"],
          Presents sampleTools defaultDomain [] x name (shown name).1 (shown name).2
            (fixture name) ∧
          Shows sampleTools defaultDomain [] shared (fixture name) (shown name).1.transcript
            (shown name).2) ∧
        ((shown "a1").1.transcript, (shown "a1").2) ≠
          ((shown "a2").1.transcript, (shown "a2").2) := by
  have hreturns : (match (drawUnlinkabilitySet sampleTools defaultDomain []).run 0 with
      | .ok _ _ => true
      | .error _ _ => false) = true := by decide +kernel
  cases hrun : (drawUnlinkabilitySet sampleTools defaultDomain []).run 0 with
  | error failure e =>
      rw [hrun] at hreturns
      cases hreturns
  | ok result e => exact ⟨result.1, result.2, e, rfl, unlinkabilitySet_shares hrun⟩

end Fixtures

end EightEen
