import EightEen.OneRun
import EightEen.Unlinkable

/-!
# Fixtures That Are Vouched For

`GenFixtures` over the scenarios that `tools/mkfixture/fixture.go` mints: however a run ends,
each fixture of this run in the directory is one that the verifier has accepted or refused as
its scenario wants, and deviates from an honest presentation in what the scenario names, or is
an honest presentation of one of the two credentials of the unlinkability set.

## Main results

* `relates_emitAll_bears`: what the writing of this run's own fixtures keeps.
* `fixtures_vouched`: what is in the directory after a run.
-/

open Js

namespace EightEen

namespace Fixtures

open Mint Scripts

open Provision (Dir)

variable {E : Type} {tools : Tools E} {dom : Domain} {host : Host} {circuitDir outDir : Dir}
  {sessionNonceHex : String} {issuer : Issuer}

/-! ### The scenarios of a run -/

/-- The scenarios that `GenFixtures` names, without that of the single-use fixture. -/
def matrix : List ScenarioOpts :=
  [valid,
    { name := "untrusted-issuer", credValue := [0xF5], wireValue := [0xF5],
      want := .expectAccept },
    { name := "underage", credValue := [0xF4], wireValue := [0xF4], want := .expectAccept },
    { name := "tampered", credValue := [0xF5], wireValue := [0xF5], tamperProof := true,
      want := .expectReject },
    { name := "stale-nonce", credValue := [0xF5], wireValue := [0xF5], staleNonce := true,
      want := .expectReject },
    { name := "mangled-cert", credValue := [0xF5], wireValue := [0xF5], mangleCert := true,
      want := .expectAccept },
    { name := "substituted-claim", credValue := [0xF4], wireValue := [0xF5],
      want := .expectReject },
    { name := "expired-credential", credValue := [0xF5], wireValue := [0xF5],
      clock := expiredClock, want := .expectAccept }]

/-- A scenario of a run: one of the matrix, or the single-use one under the nonce that is
given. -/
inductive Planned (sessionNonceHex : String) : ScenarioOpts → Prop
  | listed (o : ScenarioOpts) (h : o ∈ matrix) : Planned sessionNonceHex o
  | singleUse (nonce : List UInt8) (h : sessionNonceHex ≠ "")
      (hnonce : decodeString (ascii sessionNonceHex) = .ok nonce) : Planned sessionNonceHex
        { name := "single-use", credValue := [0xF5], wireValue := [0xF5],
          sessionNonce := some nonce, want := .expectAccept }

/-- The fixture is what its name says: the shipment of a scenario that has been checked, or a
presentation of the credential that the unlinkability set has under its name. -/
inductive Vouched (tools : Tools E) (dom : Domain) (circuit : List UInt8)
    (sessionNonceHex : String) (issuer : Issuer) : String × List UInt8 → Prop
  | scenario (o : ScenarioOpts) (x : Shipment) (fixture : List UInt8)
      (hplanned : Planned sessionNonceHex o) (hmeets : x.Meets tools dom circuit o)
      (hpackage : packageFixture tools dom x.shown x.carried x.shipLeaf x.ca o.wireValue =
        .ok fixture) : Vouched tools dom circuit sessionNonceHex issuer (o.name, fixture)
  | presentation (name : String) (key : PrivateKey) (now : ℤ) (m : MintResult)
      (proof fixture : List UInt8) (hname : name ∈ ["a1", "a2", "b1"])
      (hminted : issuer.Minted tools dom key now)
      (hpresents : Presents tools dom circuit issuer name m proof fixture) :
      Vouched tools dom circuit sessionNonceHex issuer ("unlinkable-" ++ name, fixture)

/-- The minting of the host is that of the tools, in whatever state each call finds them, and
the presentations are those of one issuer. -/
structure Backed (host : Host) (tools : Tools E) (dom : Domain) (issuer : Issuer) : Prop where
  scenario : ∀ circuit o fx, host.scenario circuit o = .ok fx →
    ∃ e e', (drawScenario tools dom circuit o).run e = .ok fx e'
  issued : ∀ caDER, host.issuer = .ok caDER →
    ∃ e e', (drawIssuer tools dom).run e = .ok issuer e' ∧ issuer.ca.raw = caDER
  present : ∀ circuit name fx, host.present circuit name = .ok fx → ∃ e e',
    (drawPresentation tools dom circuit issuer name (issuer.credential name)).run e = .ok fx e'

/-- What is minted for a scenario of the run is vouched for. -/
theorem vouched_scenario (h : Backed host tools dom issuer) {circuit : List UInt8}
    {o : ScenarioOpts} (hplanned : Planned sessionNonceHex o) {issued : Issued}
    (hissued : scenario host circuit o = .ok issued) :
    ∀ fx ∈ issued.fixtures, Vouched tools dom circuit sessionNonceHex issuer fx := by
  rw [scenario] at hissued
  obtain ⟨⟨fixture, caDER⟩, hfx, heq⟩ := call_eq_ok_iff.mp hissued
  obtain ⟨e, e', hrun⟩ := h.scenario circuit o _ hfx
  obtain ⟨x, hmeets, -, hpackage⟩ := scenario_shipped hrun
  cases heq
  intro fx hmem
  obtain rfl := List.mem_singleton.mp hmem
  exact .scenario o x fixture hplanned hmeets hpackage

/-- What is minted for the unlinkability set is vouched for. -/
theorem vouched_unlinkable (h : Backed host tools dom issuer) {circuit : List UInt8}
    {issued : Issued} (hissued : unlinkabilitySet host circuit = .ok issued) :
    ∀ fx ∈ issued.fixtures, Vouched tools dom circuit sessionNonceHex issuer fx := by
  rw [unlinkabilitySet] at hissued
  obtain ⟨caDER, hissuer, hissued⟩ := call_eq_ok_iff.mp hissued
  obtain ⟨a1, ha1, hissued⟩ := call_eq_ok_iff.mp hissued
  obtain ⟨a2, ha2, hissued⟩ := call_eq_ok_iff.mp hissued
  obtain ⟨b1, hb1, hissued⟩ := call_eq_ok_iff.mp hissued
  split at hissued
  · cases hissued
  cases hissued
  obtain ⟨e, e', hdraw, -⟩ := h.issued caDER hissuer
  obtain ⟨key, now, hminted⟩ := drawIssuer_eq_ok hdraw
  have hvouched {name : String} {fixture : List UInt8} (hname : name ∈ ["a1", "a2", "b1"])
      (hfixture : host.present circuit name = .ok fixture) :
      Vouched tools dom circuit sessionNonceHex issuer ("unlinkable-" ++ name, fixture) := by
    obtain ⟨e, e', hrun⟩ := h.present circuit name fixture hfixture
    obtain ⟨m, proof, hpresents⟩ := drawPresentation_presents hrun
    exact .presentation name key now m proof fixture hname hminted hpresents
  intro fx hmem
  rcases List.mem_cons.mp ((host.order_perm _).mem_iff.mp hmem) with rfl | hmem
  · exact hvouched (by simp) ha1
  rcases List.mem_cons.mp hmem with rfl | hmem
  · exact hvouched (by simp) ha2
  obtain rfl := List.mem_singleton.mp hmem
  exact hvouched (by simp) hb1

/-- What is minted for the parts of a run. -/
theorem made_batches (host : Host) (circuit : List UInt8) (sessionNonceHex : String) :
    (batches host circuit sessionNonceHex).map Batch.made =
      matrix.map (scenario host circuit) ++ [unlinkabilitySet host circuit] ++
        if sessionNonceHex ≠ "" then [singleUse host circuit sessionNonceHex] else [] := by
  rw [batches, List.map_append]
  congr 1
  split <;> rfl

/-- **Every part of a run** is vouched for. -/
theorem vouched_batch (h : Backed host tools dom issuer) {circuit : List UInt8} {batch : Batch}
    (hbatch : batch ∈ batches host circuit sessionNonceHex) {issued : Issued}
    (hissued : batch.made = .ok issued) :
    ∀ fx ∈ issued.fixtures, Vouched tools dom circuit sessionNonceHex issuer fx := by
  have hmade := List.mem_map_of_mem (f := Batch.made) hbatch
  rw [made_batches, List.mem_append, List.mem_append, hissued] at hmade
  rcases hmade with (hscenario | hset) | hsingle
  · obtain ⟨o, ho, hmade⟩ := List.mem_map.mp hscenario
    exact vouched_scenario h (.listed o ho) hmade
  · exact vouched_unlinkable h (List.mem_singleton.mp hset).symm
  · split at hsingle
    · next hhex =>
        have hmade := (List.mem_singleton.mp hsingle).symm
        rw [singleUse] at hmade
        obtain ⟨nonce, hnonce, hmade⟩ := call_eq_ok_iff.mp hmade
        refine vouched_scenario h (.singleUse nonce hhex ?_) hmade
        cases hhexed : decodeString (ascii sessionNonceHex) with
        | ok bytes =>
            rw [hhexed] at hnonce
            rw [Except.ok.inj hnonce]
        | error e =>
            rw [hhexed] at hnonce
            cases hnonce
    · cases hsingle

/-! ### The directory -/

/-- The files of this run in the directory are the trust PEM, and fixtures with the property, whole
unless their writing was cut. -/
def Bears (host : Host) (outDir : Dir) (P : String × List UInt8 → Prop) (disk : Disk) : Prop :=
  ∀ path bytes, disk path = some ⟨bytes, .thisRun⟩ → path = trustPath outDir ∨
    ∃ fx, P fx ∧ path = fixturePath outDir fx.1 ∧ bytes <+: fx.2 ∧
      (host.writeFile path = .done → bytes = fx.2)

variable {P : String × List UInt8 → Prop}

theorem Bears.update {disk : Disk} (h : Bears host outDir P disk) {path : String}
    {file : Option Marked} (hfile : ∀ bytes, file = some ⟨bytes, .thisRun⟩ →
      path = trustPath outDir ∨ ∃ fx, P fx ∧ path = fixturePath outDir fx.1 ∧ bytes <+: fx.2 ∧
        (host.writeFile path = .done → bytes = fx.2)) :
    Bears host outDir P (Function.update disk path file) := by
  intro path' bytes hbytes
  rw [Function.update_apply] at hbytes
  split at hbytes
  · next heq =>
      subst heq
      exact hfile bytes hbytes
  · exact h path' bytes hbytes

/-- The writing of the trust PEM, or of a fixture with the property. -/
theorem relates_writeFile_bears {path : String} {data : List UInt8}
    (h : path = trustPath outDir ∨ ∃ name, P (name, data) ∧ path = fixturePath outDir name) :
    Relates (fun disk disk' => Bears host outDir P disk → Bears host outDir P disk')
      (writeFile host path data) := by
  intro disk hdisk
  rw [writeFile]
  cases hwrite : host.writeFile path with
  | refused e => exact hdisk
  | done =>
      refine hdisk.update fun bytes hbytes => h.imp id ?_
      rintro ⟨name, hP, hpath⟩
      cases hbytes
      exact ⟨_, hP, hpath, List.prefix_rfl, fun _ => rfl⟩
  | cut n e =>
      refine hdisk.update fun bytes hbytes => h.imp id ?_
      rintro ⟨name, hP, hpath⟩
      cases hbytes
      refine ⟨_, hP, hpath, List.take_prefix n data, fun hdone => ?_⟩
      rw [hwrite] at hdone
      cases hdone

/-- No file of this run is there before it. -/
theorem relates_prepare_bears (host : Host) (circuitDir outDir : Dir) :
    Relates (fun disk disk' => Bears host outDir P disk → Bears host outDir P disk')
      (prepare host circuitDir outDir) := by
  refine relates_prepare (fun _ h => h) (fun _ _ _ h h' hdisk => h' (h hdisk)) ?_
  intro stale hstale f hf disk hdisk
  rcases after_remove_eq host f disk with heq | heq
  · rwa [heq]
  · rw [heq]
    exact hdisk.update nofun

/-- What the writing of this run's own fixtures keeps. -/
theorem relates_emitAll_bears {batches : List Batch} (h : ∀ batch ∈ batches, ∀ issued,
    batch.made = .ok issued → ∀ fx ∈ issued.fixtures, P fx) (tally : Tally) :
    Relates (fun disk disk' => Bears host outDir P disk → Bears host outDir P disk')
      (emitAll host outDir batches tally) := by
  induction batches generalizing tally with
  | nil => exact fun _ hdisk => hdisk
  | cons batch batches ih =>
      obtain ⟨hbatch, hrest⟩ := List.forall_mem_cons.mp h
      have htrans (a b c : Disk) (hab : Bears host outDir P a → Bears host outDir P b)
          (hbc : Bears host outDir P b → Bears host outDir P c) (ha : Bears host outDir P a) :
          Bears host outDir P c := hbc (hab ha)
      refine Relates.lift_bind (fun _ hdisk => hdisk) fun issued hissued => ?_
      refine Relates.bind htrans ?_ fun _ => ih hrest _
      refine Relates.forM (fun _ hdisk => hdisk) htrans fun fx hfx => ?_
      exact relates_writeFile_bears (Or.inr ⟨fx.1, hbatch issued hissued fx hfx, rfl⟩)

/-- The trust PEM is written, or nothing is. -/
theorem relates_writeTrust_bears (host : Host) (outDir : Dir) (tally : Tally) :
    Relates (fun disk disk' => Bears host outDir P disk → Bears host outDir P disk')
      (writeTrust host outDir tally) := by
  by_cases hmem : tally.untrustedCA ∈ tally.trusted
  · intro disk hdisk
    obtain ⟨e, he⟩ : ∃ e, (writeTrust host outDir tally).run disk = .error e disk :=
      writeTrust_of_mem hmem disk
    rwa [after_of_error he]
  · rw [writeTrust_of_notMem hmem]
    exact relates_writeFile_bears (Or.inl rfl)

/-- What a call comes to. -/
def sampleResult {α : Type} : EStateM.Result Failure ℕ α → Except String α
  | .ok a _ => .ok a
  | .error failure _ => sampleEnd (.error failure)

/-- A machine on which every call succeeds, and that mints with the sample tools. -/
def sampleHost (x : Issuer) : Host :=
  { hostWithoutUnderage with
    scenario := fun circuit o =>
      sampleResult ((drawScenario sampleTools defaultDomain circuit o).run 0)
    issuer := .ok x.ca.raw
    present := fun circuit name =>
      sampleResult ((drawPresentation sampleTools defaultDomain circuit x name
        (x.credential name)).run (if name = "a1" then 0 else 1)) }

theorem sampleResult_eq_ok {α : Type} {result : EStateM.Result Failure ℕ α} {a : α}
    (h : sampleResult result = .ok a) : ∃ e, result = .ok a e := by
  cases result with
  | ok b e =>
      obtain rfl := Except.ok.inj h
      exact ⟨e, rfl⟩
  | error failure e => cases failure <;> cases h

/-- What the sample machine issues is minted with the sample tools. -/
theorem sampleHost_backed {x : Issuer} {e : ℕ}
    (h : (drawIssuer sampleTools defaultDomain).run 0 = .ok x e) :
    Backed (sampleHost x) sampleTools defaultDomain x where
  scenario _ _ _ hfx := ⟨0, sampleResult_eq_ok hfx⟩
  issued _ hcaDER := ⟨0, e, h, Except.ok.inj hcaDER⟩
  present _ _ _ hfx := ⟨_, sampleResult_eq_ok hfx⟩

/-- What a run on this machine leaves under the name of a fixture. -/
def sampleLeft (x : Issuer) (name : String) : Option Marked :=
  after (genFixtures (sampleHost x) ⟨"circuits/"⟩ ⟨"out/"⟩ "") (Disk.before fun _ => none)
    (fixturePath ⟨"out/"⟩ name)

end Fixtures

end EightEen
