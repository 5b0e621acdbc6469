import EightEen.Js.Bytes
import EightEen.Mint
import EightEen.Provision
import EightEen.Scripts
import Mathlib.Data.List.Nodup
import Mathlib.Data.List.Perm.Basic

/-!
# Generating Fixtures

`GenFixtures` of `tools/mkfixture`: it clears the fixtures that an earlier run has left in the
output directory, mints this run's fixtures one after the other, and writes the bundle of the
trusted CAs last. Every operation on the directory and every minting may fail, and the run ends
there.

A file in the directory is marked with the run that opened it for writing. What the
operating system, the minting and the order of a map come to is in `Host`.

## Main results

* `prepare_eq_ok_iff`, `emitAll_eq_ok_iff`: when the directory is cleared and the fixtures are
  written, and what they leave.
* `relates_prepare`, `relates_emitAll`: what they keep wherever they stop.
-/

open Js

namespace EightEen

namespace Fixtures

open Mint Scripts

open Provision (Dir)

/-! ### The directory -/

/-- The run that opened a file for writing. -/
inductive Origin where
  | earlier
  | thisRun
  deriving DecidableEq

/-- A file, and the run it is of. -/
structure Marked where
  bytes : List UInt8
  origin : Origin
  deriving DecidableEq

/-- The files, by path. -/
abbrev Disk := String → Option Marked

/-- The files that are there before the run. -/
def Disk.before (files : String → Option (List UInt8)) : Disk :=
  fun path => (files path).map fun bytes => ⟨bytes, .earlier⟩

/-- What the calls on files do here. They fail with an error that is a text. -/
abbrev Script (α : Type) := EStateM String Disk α

/-- How `os.WriteFile` ends. It may fail to open the file, or after `n` of the bytes. -/
inductive Wrote where
  | done
  | refused (e : String)
  | cut (n : ℕ) (e : String)

/-! ### Fixtures -/

/-- `expectation`. -/
inductive Expectation where
  | expectAccept
  | expectReject

/-- `scenarioOpts`. -/
structure ScenarioOpts where
  name : String
  credValue : List UInt8
  wireValue : List UInt8
  tamperProof : Bool := false
  staleNonce : Bool := false
  mangleCert : Bool := false
  sessionNonce : Option (List UInt8) := none
  clock : CredClock := ⟨[], [], []⟩
  want : Expectation

/-- `expiredClock()`. -/
def expiredClock : CredClock where
  validFrom := ascii "2020-01-01T00:00:00Z"
  validUntil := ascii "2021-01-01T00:00:00Z"
  now := ascii "2020-06-01T00:00:00Z"

/-- What one issuer stands behind: fixtures, by name, and the DER of the CA. -/
structure Issued where
  fixtures : List (String × List UInt8)
  caDER : List UInt8

/-- What the calls of `GenFixtures` come to. `remove` and `writeFile` are `os.Remove` and
`os.WriteFile`, by path, `names` is what the reading of a directory gives of the names in it (an
error of it goes unnoticed), and `matching` is `filepath.Glob` of the path of a directory.
`issuer` and `present` are the parts of `unlinkabilitySet`: the issuer with its two credentials,
and one presentation. A map is iterated over in some order. -/
structure Host where
  mkdirAll : String → Except String Unit
  readFile : String → Except String (List UInt8)
  circuitID : List UInt8 → Except String String
  matching : String → Except String (List String)
  names : String → List String
  remove : String → Except String Unit
  writeFile : String → Wrote
  scenario : List UInt8 → ScenarioOpts → Except String (List UInt8 × List UInt8)
  issuer : Except String (List UInt8)
  present : List UInt8 → String → Except String (List UInt8)
  order : List (String × List UInt8) → List (String × List UInt8)
  order_perm : ∀ entries, (order entries).Perm entries

/-- `circuitHash0`. -/
def circuitHash0 : String :=
  "8d079211715200ff06c5109639245502bfe94aa869908d31176aae4016182121"

variable (host : Host)

/-! ### The directory is cleared -/

/-- A name that the last part of the pattern matches. -/
def isJson (name : String) : Bool :=
  ".json".toList.isSuffixOf name.toList

/-- The path holds a character of a pattern. -/
def hasMeta (path : String) : Bool :=
  path.toList.any fun c => c ∈ "*?[\\".toList

/-- The directories that the rest of the pattern stands for. -/
def globDirs (path : String) : Except String (List String) :=
  if hasMeta path then host.matching path else pure [path]

/-- `filepath.Glob(filepath.Join(outDir, "*.json"))`. -/
def glob (outDir : Dir) : Except String (List String) := do
  let dirs ← globDirs host outDir.base
  pure (dirs.flatMap fun dir => ((host.names dir).filter isJson).map (Dir.join ⟨dir⟩))

/-- `os.Remove(f)`, as `GenFixtures` calls it. -/
def remove (f : String) : Script PUnit :=
  match host.remove f with
  | .ok _ => modify fun disk => Function.update disk f none
  | .error e => throw ("clearing stale fixture " ++ f ++ ": " ++ e)

/-- `os.WriteFile(path, data, 0o644)`. -/
def writeFile (path : String) (data : List UInt8) : Script PUnit :=
  match host.writeFile path with
  | .done => modify fun disk => Function.update disk path (some ⟨data, .thisRun⟩)
  | .refused e => throw e
  | .cut n e => do
      modify fun disk => Function.update disk path (some ⟨data.take n, .thisRun⟩)
      throw e

/-- The circuit that `GenFixtures` reads, and verifies by its id. -/
def loadCircuit (circuitDir : Dir) : Except String (List UInt8) := do
  let circuitPath := circuitDir.join circuitHash0
  let circuit ← (host.readFile circuitPath).mapError fun e =>
    "read circuit " ++ circuitPath ++ ": " ++ e
  let gotID ← (host.circuitID circuit).mapError fun e => "circuit " ++ circuitPath ++ ": " ++ e
  if gotID ≠ circuitHash0 then
    throw ("circuit id mismatch: " ++ circuitPath ++ " holds a circuit whose id is " ++ gotID ++
      ", not " ++ circuitHash0 ++ " — refusing to generate fixtures against an unknown circuit")
  pure circuit

/-- `GenFixtures`, up to the first fixture. -/
def prepare (circuitDir outDir : Dir) : Script (List UInt8) := do
  lift (host.mkdirAll outDir.base)
  let circuit ← lift (loadCircuit host circuitDir)
  let stale ← lift (glob host outDir)
  forM stale (remove host)
  pure circuit

/-! ### The fixtures of a run -/

/-- A part of the run: the fixtures of one issuer, all of which are minted before the first is
written, and whether the CA goes into the trust PEM. -/
structure Batch where
  names : List String
  trusted : Bool
  made : Except String Issued
  named : ∀ issued, made = .ok issued → (issued.fixtures.map Prod.fst).Perm names

/-- `hex.DecodeString`: the value of a digit. -/
def hexValue (b : UInt8) : Option UInt8 :=
  if 0x30 ≤ b ∧ b ≤ 0x39 then some (b - 0x30)
  else if 0x61 ≤ b ∧ b ≤ 0x66 then some (b - 0x57)
  else if 0x41 ≤ b ∧ b ≤ 0x46 then some (b - 0x37)
  else none

/-- A byte in the error of `hex.DecodeString`, as `%#U` formats it. -/
def formatU (b : UInt8) : String :=
  "U+00" ++ (String.ofList [hexDigit (b.toNat / 16), hexDigit (b.toNat % 16)]).toUpper ++
    if (0x20 ≤ b ∧ b ≤ 0x7E) ∨ (0xA1 ≤ b ∧ b ≠ 0xAD) then " '" ++ shown [b] ++ "'" else ""

/-- The digit, or the error of `hex.DecodeString` that names the byte. -/
def hexNibble (b : UInt8) : Except String UInt8 :=
  match hexValue b with
  | some v => .ok v
  | none => .error ("encoding/hex: invalid byte: " ++ formatU b)

/-- `hex.DecodeString`. -/
def decodeString : List UInt8 → Except String (List UInt8)
  | [] => .ok []
  | [p] => do
      let _ ← hexNibble p
      throw "encoding/hex: odd length hex string"
  | p :: q :: rest => do
      let a ← hexNibble p
      let b ← hexNibble q
      let bytes ← decodeString rest
      pure ((a <<< 4 ||| b) :: bytes)

/-- A call of `scenario`. -/
def scenario (circuit : List UInt8) (o : ScenarioOpts) : Except String Issued := do
  let (fixture, caDER) ← host.scenario circuit o
  pure ⟨[(o.name, fixture)], caDER⟩

/-- `unlinkabilitySet(circuit)`, with its map in the order in which it is iterated over. -/
def unlinkabilitySet (circuit : List UInt8) : Except String Issued := do
  let caDER ← host.issuer
  let a1 ← host.present circuit "a1"
  let a2 ← host.present circuit "a2"
  let b1 ← host.present circuit "b1"
  if a1 = a2 then
    throw ("unlinkable: a1 and a2 are byte-identical — the two presentations did not actually" ++
      " differ")
  pure ⟨host.order [("unlinkable-a1", a1), ("unlinkable-a2", a2), ("unlinkable-b1", b1)], caDER⟩

/-- The single-use fixture, under the nonce of `-session-nonce`. -/
def singleUse (circuit : List UInt8) (sessionNonceHex : String) : Except String Issued := do
  let nonce ← (decodeString (ascii sessionNonceHex)).mapError fun e =>
    "single-use: -session-nonce is not valid hex: " ++ e
  scenario host circuit {
    name := "single-use", credValue := [0xF5], wireValue := [0xF5],
    sessionNonce := some nonce, want := .expectAccept }

/-- A scenario issues one fixture, under the name in its options. -/
theorem scenario_named {circuit : List UInt8} {o : ScenarioOpts} {issued : Issued}
    (h : scenario host circuit o = .ok issued) :
    (issued.fixtures.map Prod.fst).Perm [o.name] := by
  rw [scenario] at h
  cases hfx : host.scenario circuit o with
  | error e =>
      rw [hfx] at h
      cases h
  | ok fx =>
      rw [hfx] at h
      cases h
      exact List.Perm.refl _

/-- The unlinkability set issues three fixtures: two presentations of one credential, and one of
another. -/
theorem unlinkabilitySet_named {circuit : List UInt8} {issued : Issued}
    (h : unlinkabilitySet host circuit = .ok issued) :
    (issued.fixtures.map Prod.fst).Perm ["unlinkable-a1", "unlinkable-a2", "unlinkable-b1"] := by
  obtain ⟨caDER, -, h⟩ := call_eq_ok_iff.mp h
  obtain ⟨a1, -, h⟩ := call_eq_ok_iff.mp h
  obtain ⟨a2, -, h⟩ := call_eq_ok_iff.mp h
  obtain ⟨b1, -, h⟩ := call_eq_ok_iff.mp h
  split at h
  · cases h
  · cases h
    exact (host.order_perm _).map Prod.fst

/-- The single-use scenario issues one fixture, under a name of its own. -/
theorem singleUse_named {circuit : List UInt8} {sessionNonceHex : String} {issued : Issued}
    (h : singleUse host circuit sessionNonceHex = .ok issued) :
    (issued.fixtures.map Prod.fst).Perm ["single-use"] := by
  obtain ⟨nonce, -, h⟩ := call_eq_ok_iff.mp h
  exact scenario_named host h

/-- The fixture of one scenario. -/
def Batch.of (circuit : List UInt8) (o : ScenarioOpts) (trusted : Bool) : Batch where
  names := [o.name]
  trusted := trusted
  made := scenario host circuit o
  named _ := scenario_named host

/-- 1. valid. -/
def valid : ScenarioOpts where
  name := "valid"
  credValue := [0xF5]
  wireValue := [0xF5]
  want := .expectAccept

/-- The parts of the run, in order. The single-use fixture is one only when a nonce is given. -/
def batches (circuit : List UInt8) (sessionNonceHex : String) : List Batch :=
  [.of host circuit valid true,
    .of host circuit {
      name := "untrusted-issuer", credValue := [0xF5], wireValue := [0xF5],
      want := .expectAccept } false,
    .of host circuit {
      name := "underage", credValue := [0xF4], wireValue := [0xF4], want := .expectAccept } true,
    .of host circuit {
      name := "tampered", credValue := [0xF5], wireValue := [0xF5], tamperProof := true,
      want := .expectReject } true,
    .of host circuit {
      name := "stale-nonce", credValue := [0xF5], wireValue := [0xF5], staleNonce := true,
      want := .expectReject } true,
    .of host circuit {
      name := "mangled-cert", credValue := [0xF5], wireValue := [0xF5], mangleCert := true,
      want := .expectAccept } true,
    .of host circuit {
      name := "substituted-claim", credValue := [0xF4], wireValue := [0xF5],
      want := .expectReject } true,
    .of host circuit {
      name := "expired-credential", credValue := [0xF5], wireValue := [0xF5],
      clock := expiredClock, want := .expectAccept } true,
    { names := ["unlinkable-a1", "unlinkable-a2", "unlinkable-b1"]
      trusted := true
      made := unlinkabilitySet host circuit
      named _ := unlinkabilitySet_named host }] ++
  if sessionNonceHex ≠ "" then
    [{ names := ["single-use"]
       trusted := true
       made := singleUse host circuit sessionNonceHex
       named _ := singleUse_named host }]
  else []

/-- The variables of the run: the CA DERs that go into the trust PEM, the one that is withheld, and
the names that have been written. -/
structure Tally where
  trusted : List (List UInt8) := []
  untrustedCA : List UInt8 := []
  written : List String := []

/-- The variables when a part of the run is written. -/
def Tally.add (tally : Tally) (batch : Batch) (issued : Issued) : Tally where
  trusted := if batch.trusted then tally.trusted ++ [issued.caDER] else tally.trusted
  untrustedCA := if batch.trusted then tally.untrustedCA else issued.caDER
  written := tally.written ++ issued.fixtures.map Prod.fst

/-- What `main` trusts grows by the CA of a batch that is to be trusted, and by no other. -/
@[simp] theorem Tally.add_trusted (tally : Tally) (batch : Batch) (issued : Issued) :
    (tally.add batch issued).trusted =
      if batch.trusted then tally.trusted ++ [issued.caDER] else tally.trusted := rfl

/-- The untrusted CA is that of the last batch that is not to be trusted. -/
@[simp] theorem Tally.add_untrustedCA (tally : Tally) (batch : Batch) (issued : Issued) :
    (tally.add batch issued).untrustedCA =
      if batch.trusted then tally.untrustedCA else issued.caDER := rfl

/-- The names of a batch are put behind those that have been written before it. -/
@[simp] theorem Tally.add_written (tally : Tally) (batch : Batch) (issued : Issued) :
    (tally.add batch issued).written = tally.written ++ issued.fixtures.map Prod.fst := rfl

/-- The path of a fixture. -/
def fixturePath (outDir : Dir) (name : String) : String :=
  outDir.join (name ++ ".json")

/-- `write(name, fx)`. -/
def write (outDir : Dir) (fx : String × List UInt8) : Script PUnit :=
  writeFile host (fixturePath outDir fx.1) fx.2

/-- The parts of the run, one after the other. -/
def emitAll (outDir : Dir) : List Batch → Tally → Script Tally
  | [], tally => pure tally
  | batch :: rest, tally => do
      let issued ← lift batch.made
      forM issued.fixtures (write host outDir)
      emitAll outDir rest (tally.add batch issued)

/-! ### The trust PEM -/

/-- `pem.EncodeToMemory(&pem.Block{Type: "CERTIFICATE", Bytes: der})`. -/
def encodeToMemory (der : List UInt8) : List UInt8 :=
  ascii "-----BEGIN CERTIFICATE-----\n" ++
    ((base64 der).toChunks 64).flatMap (fun line => ascii (String.ofList line ++ "\n")) ++
    ascii "-----END CERTIFICATE-----\n"

/-- The path of the trust PEM. -/
def trustPath (outDir : Dir) : String :=
  outDir.join "caCerts.pem"

/-- `GenFixtures`, from the check on: the trust PEM is written unless the withheld CA is in it. -/
def writeTrust (outDir : Dir) (tally : Tally) : Script PUnit := do
  if tally.untrustedCA ∈ tally.trusted then
    throw ("untrusted-issuer's CA leaked into the trust PEM — its fixture would be ACCEPTED and" ++
      " the trust-boundary test would silently pass")
  writeFile host (trustPath outDir) (tally.trusted.flatMap encodeToMemory)

/-- `GenFixtures(circuitDir, outDir)`, under the `-session-nonce` that is given. It returns what
its last line reports. -/
def genFixtures (circuitDir outDir : Dir) (sessionNonceHex : String) : Script Tally := do
  let circuit ← prepare host circuitDir outDir
  let tally ← emitAll host outDir (batches host circuit sessionNonceHex) {}
  writeTrust host outDir tally
  pure tally

/-! ### What the operations do -/

variable {host}
variable {circuitDir outDir : Dir}

/-- The disk when a fixture has been written. -/
def put (outDir : Dir) (disk : Disk) (fx : String × List UInt8) : Disk :=
  Function.update disk (fixturePath outDir fx.1) (some ⟨fx.2, .thisRun⟩)

/-- **`os.Remove` that succeeds** takes away the file, and leaves every other one as it was. -/
theorem remove_eq_ok_iff {f : String} {disk disk' : Disk} :
    (remove host f).run disk = .ok ⟨⟩ disk' ↔
      host.remove f = .ok () ∧ disk' = Function.update disk f none := by
  rw [remove]
  cases host.remove f with
  | ok u =>
      constructor
      · intro h
        cases h
        exact ⟨rfl, rfl⟩
      · rintro ⟨-, rfl⟩
        rfl
  | error e =>
      constructor
      · intro h
        cases h
      · rintro ⟨h, -⟩
        cases h

/-- **`os.WriteFile` that succeeds** leaves the file with the data, marked as of this run, and
every other one as it was. -/
theorem writeFile_eq_ok_iff {path : String} {data : List UInt8} {disk disk' : Disk} :
    (writeFile host path data).run disk = .ok ⟨⟩ disk' ↔
      host.writeFile path = .done ∧
        disk' = Function.update disk path (some ⟨data, .thisRun⟩) := by
  rw [writeFile]
  cases host.writeFile path with
  | done =>
      constructor
      · intro h
        cases h
        exact ⟨rfl, rfl⟩
      · rintro ⟨-, rfl⟩
        rfl
  | refused e =>
      constructor
      · intro h
        cases h
      · rintro ⟨h, -⟩
        cases h
  | cut n e =>
      constructor
      · intro h
        cases h
      · rintro ⟨h, -⟩
        cases h

/-- A file that could not be opened is as it was. -/
theorem after_writeFile_of_refused {path e : String} (h : host.writeFile path = .refused e)
    (data : List UInt8) (disk : Disk) : after (writeFile host path data) disk = disk := by
  rw [writeFile, h]
  rfl

/-- A file that was opened is of this run, written in full or not. -/
theorem after_writeFile_self {path : String} (h : ∀ e, host.writeFile path ≠ .refused e)
    (data : List UInt8) (disk : Disk) :
    ∃ bytes, after (writeFile host path data) disk path = some ⟨bytes, .thisRun⟩ := by
  rw [writeFile]
  cases hw : host.writeFile path with
  | done => exact ⟨data, Function.update_self path _ disk⟩
  | refused e => exact absurd hw (h e)
  | cut n e => exact ⟨data.take n, Function.update_self path _ disk⟩

/-! ### What a script keeps -/

/-- The file at the path is of this run. -/
def Ours (disk : Disk) (path : String) : Prop :=
  ∃ bytes, disk path = some ⟨bytes, .thisRun⟩

/-- The path has the file that it had. -/
def Keeps (path : String) (disk disk' : Disk) : Prop :=
  disk' path = disk path

/-- The files of this run are still of this run. -/
def Stay (disk disk' : Disk) : Prop :=
  ∀ path, Ours disk path → Ours disk' path

/-- No file of this run is new. -/
def Adds (disk disk' : Disk) : Prop :=
  ∀ path, Ours disk' path → Ours disk path

/-- A disk keeps the file at every path of itself. -/
theorem Keeps.refl (path : String) (disk : Disk) : Keeps path disk disk := rfl

/-- What is kept from a first disk to a second, and from that to a third, is kept altogether. -/
theorem Keeps.trans (path : String) (a b c : Disk) (h : Keeps path a b) (h' : Keeps path b c) :
    Keeps path a c :=
  Eq.trans h' h

/-- Every file of this run stays on the disk that it is on. -/
theorem Stay.refl (disk : Disk) : Stay disk disk := fun _ h => h

/-- Files of this run that stay through two stretches stay through both. -/
theorem Stay.trans (a b c : Disk) (h : Stay a b) (h' : Stay b c) : Stay a c :=
  fun path hours => h' path (h path hours)

/-- Of the files on a disk none of this run is new to it. -/
theorem Adds.refl (disk : Disk) : Adds disk disk := fun _ h => h

/-- Two stretches that bring no new file of this run bring none together. -/
theorem Adds.trans (a b c : Disk) (h : Adds a b) (h' : Adds b c) : Adds a c :=
  fun path hours => h path (h' path hours)

/-- A call that writes one path leaves there what it leaves anywhere. -/
theorem after_writeFile_eq (host : Host) (path : String) (data : List UInt8) (disk : Disk) :
    after (writeFile host path data) disk = disk ∨
      ∃ bytes, after (writeFile host path data) disk =
        Function.update disk path (some ⟨bytes, .thisRun⟩) := by
  rw [writeFile]
  cases host.writeFile path with
  | done => exact .inr ⟨data, rfl⟩
  | refused e => exact .inl rfl
  | cut n e => exact .inr ⟨data.take n, rfl⟩

/-- Whatever `os.Remove` returns, the disk is what it was, or lacks the file. -/
theorem after_remove_eq (host : Host) (f : String) (disk : Disk) :
    after (remove host f) disk = disk ∨
      after (remove host f) disk = Function.update disk f none := by
  rw [remove]
  cases host.remove f with
  | ok u => exact .inr rfl
  | error e => exact .inl rfl

/-- A write to one path keeps the file at every other path, whether it succeeds or leaves half a
file behind. -/
theorem keeps_writeFile {path other : String} (h : path ≠ other) (data : List UInt8) :
    Relates (Keeps path) (writeFile host other data) := by
  intro disk
  rcases after_writeFile_eq host other data disk with heq | ⟨bytes, heq⟩
  · rw [heq]
    exact Keeps.refl path disk
  · rw [heq]
    exact Function.update_of_ne h _ disk

/-- A write takes nothing away: what this run has written stays a file of this run. -/
theorem stay_writeFile (path : String) (data : List UInt8) :
    Relates Stay (writeFile host path data) := by
  intro disk other hours
  rcases after_writeFile_eq host path data disk with heq | ⟨bytes, heq⟩
  · rwa [heq]
  · rw [heq]
    obtain rfl | hne := eq_or_ne other path
    · exact ⟨bytes, Function.update_self other _ disk⟩
    · rwa [Ours, Function.update_of_ne hne]

/-- Removing the file at one path keeps the file at every other path. -/
theorem keeps_remove {path other : String} (h : path ≠ other) :
    Relates (Keeps path) (remove host other) := by
  intro disk
  rcases after_remove_eq host other disk with heq | heq
  · rw [heq]
    exact Keeps.refl path disk
  · rw [heq]
    exact Function.update_of_ne h _ disk

/-- Removing a file, or failing to, brings no file of this run. -/
theorem adds_remove (f : String) : Relates Adds (remove host f) := by
  intro disk path hours
  rcases after_remove_eq host f disk with heq | heq
  · rwa [heq] at hours
  · rw [heq] at hours
    obtain ⟨bytes, hbytes⟩ := hours
    obtain rfl | hne := eq_or_ne path f
    · rw [Function.update_self] at hbytes
      cases hbytes
    · rw [Function.update_of_ne hne] at hbytes
      exact ⟨bytes, hbytes⟩

/-! ### Names -/

/-- The name under which a fixture is written is one that the sweep would take. -/
theorem isJson_append (name : String) : isJson (name ++ ".json") = true := by
  rw [isJson, String.toList_append, List.isSuffixOf_iff_suffix]
  exact List.suffix_append _ _

/-- The trust PEM is not among the files that are cleared, nor among the fixtures. -/
theorem join_ne_trustPath {name : String} (h : isJson name = true) (dir : Dir) :
    trustPath outDir ≠ dir.join name := by
  intro heq
  have hlast := congrArg (fun path => path.toList.getLast?) heq
  rw [isJson, List.isSuffixOf_iff_suffix] at h
  obtain ⟨front, hfront⟩ := h
  simp only [trustPath, Dir.join, String.toList_append, ← hfront] at hlast
  rw [← List.append_assoc, List.getLast?_append_of_ne_nil _ (by decide),
    List.getLast?_append_of_ne_nil _ (by decide)] at hlast
  exact absurd hlast (by decide)

/-- What is cleared is a `*.json`. -/
theorem ne_trustPath_of_mem_glob {stale : List String} (h : glob host outDir = .ok stale)
    {f : String} (hf : f ∈ stale) : trustPath outDir ≠ f := by
  rw [glob] at h
  obtain ⟨dirs, -, hstale⟩ := call_eq_ok_iff.mp h
  cases hstale
  obtain ⟨dir, -, hdir⟩ := List.mem_flatMap.mp hf
  obtain ⟨name, hname, rfl⟩ := List.mem_map.mp hdir
  exact join_ne_trustPath (List.mem_filter.mp hname).2 _

/-- **Fixtures of different names are different files**: the path tells the name. -/
theorem fixturePath_injective {name name' : String}
    (h : fixturePath outDir name = fixturePath outDir name') : name = name' := by
  have hnames := Provision.join_injective h
  have hchars := congrArg String.toList hnames
  simp only [String.toList_append, List.append_left_inj] at hchars
  exact String.toList_injective hchars

/-! ### Up to the first fixture -/

/-- Everything before the first fixture succeeds. -/
structure Prepared (host : Host) (circuitDir outDir : Dir) (circuit : List UInt8)
    (stale : List String) : Prop where
  mkdir : host.mkdirAll outDir.base = .ok ()
  loaded : loadCircuit host circuitDir = .ok circuit
  listed : glob host outDir = .ok stale
  removed : ∀ f ∈ stale, host.remove f = .ok ()

/-- The disk when the files are removed. -/
def clear (stale : List String) (disk : Disk) : Disk :=
  stale.foldl (fun disk f => Function.update disk f none) disk

/-- After the sweep the stale paths hold nothing, and every other path holds what it held. -/
theorem clear_apply (stale : List String) (disk : Disk) (path : String) :
    clear stale disk path = if path ∈ stale then none else disk path := by
  induction stale generalizing disk with
  | nil => simp [clear]
  | cons f stale ih =>
      rw [clear, List.foldl_cons]
      refine (ih _).trans ?_
      obtain rfl | hne := eq_or_ne path f
      · simp
      · simp [hne]

/-- The loop that clears the directory. -/
theorem removeAll_eq_ok_iff {stale : List String} {disk disk' : Disk} :
    (forM stale (remove host)).run disk = .ok ⟨⟩ disk' ↔
      (∀ f ∈ stale, host.remove f = .ok ()) ∧ disk' = clear stale disk :=
  forM_eq_ok_iff fun _ _ _ => remove_eq_ok_iff

/-- **The first part of `main` succeeds** exactly when the circuit can be read, the directory made
and listed, and every stale file removed; then it leaves the directory swept. -/
theorem prepare_eq_ok_iff {circuit : List UInt8} {disk disk' : Disk} :
    (prepare host circuitDir outDir).run disk = .ok circuit disk' ↔
      ∃ stale, Prepared host circuitDir outDir circuit stale ∧ disk' = clear stale disk := by
  simp only [prepare, bind_eq_ok_iff, lift_eq_ok_iff, pure_eq_ok_iff]
  constructor
  · rintro ⟨⟨⟩, d, ⟨hmkdir, rfl⟩, circuit', d', ⟨hloaded, rfl⟩, stale, d'', ⟨hlisted, rfl⟩, ⟨⟩, e,
      hloop, rfl, rfl⟩
    obtain ⟨hremoved, rfl⟩ := removeAll_eq_ok_iff.mp hloop
    exact ⟨stale, ⟨hmkdir, hloaded, hlisted, hremoved⟩, rfl⟩
  · rintro ⟨stale, ⟨hmkdir, hloaded, hlisted, hremoved⟩, rfl⟩
    exact ⟨⟨⟩, disk, ⟨hmkdir, rfl⟩, circuit, disk, ⟨hloaded, rfl⟩, stale, disk, ⟨hlisted, rfl⟩, ⟨⟩,
      clear stale disk, removeAll_eq_ok_iff.mpr ⟨hremoved, rfl⟩, rfl, rfl⟩

/-- What every removal keeps is kept up to the first fixture. -/
theorem relates_prepare {R : Disk → Disk → Prop} (hrefl : ∀ d, R d d)
    (htrans : ∀ a b c, R a b → R b c → R a c)
    (hremove : ∀ stale, glob host outDir = .ok stale → ∀ f ∈ stale, Relates R (remove host f)) :
    Relates R (prepare host circuitDir outDir) := by
  refine Relates.lift_bind hrefl fun _ _ => ?_
  refine Relates.lift_bind hrefl fun circuit _ => ?_
  refine Relates.lift_bind hrefl fun stale hstale => ?_
  exact Relates.bind htrans (Relates.forM hrefl htrans (hremove stale hstale)) fun _ =>
    Relates.pure hrefl circuit

/-! ### The fixtures -/

/-- The parts of the run are minted, and their fixtures are written. -/
structure Emitted (host : Host) (outDir : Dir) (batches : List Batch) (run : List Issued) :
    Prop where
  made : batches.map Batch.made = run.map .ok
  written : ∀ issued ∈ run, ∀ fx ∈ issued.fixtures,
    host.writeFile (fixturePath outDir fx.1) = .done

/-- The variables when the parts of the run are written. -/
def tallyOf (batches : List Batch) (run : List Issued) (tally : Tally) : Tally :=
  (batches.zip run).foldl (fun tally part => tally.add part.1 part.2) tally

/-- The loop that writes the fixtures of one part. -/
theorem writeAll_eq_ok_iff {fixtures : List (String × List UInt8)} {disk disk' : Disk} :
    (forM fixtures (write host outDir)).run disk = .ok ⟨⟩ disk' ↔
      (∀ fx ∈ fixtures, host.writeFile (fixturePath outDir fx.1) = .done) ∧
        disk' = fixtures.foldl (put outDir) disk :=
  forM_eq_ok_iff fun _ _ _ => writeFile_eq_ok_iff

/-- **All batches are emitted** exactly when each one is issued and each of its fixtures written,
in order; the tally and the disk are then those of the whole run. -/
theorem emitAll_eq_ok_iff {batches : List Batch} {tally tally' : Tally} {disk disk' : Disk} :
    (emitAll host outDir batches tally).run disk = .ok tally' disk' ↔
      ∃ run, Emitted host outDir batches run ∧ tally' = tallyOf batches run tally ∧
        disk' = (run.flatMap Issued.fixtures).foldl (put outDir) disk := by
  induction batches generalizing tally disk with
  | nil =>
      rw [emitAll, pure_eq_ok_iff]
      constructor
      · rintro ⟨rfl, rfl⟩
        exact ⟨[], ⟨rfl, by simp⟩, rfl, rfl⟩
      · rintro ⟨run, ⟨hmade, -⟩, rfl, rfl⟩
        obtain rfl : run = [] := List.map_eq_nil_iff.mp hmade.symm
        exact ⟨rfl, rfl⟩
  | cons batch batches ih =>
      simp only [emitAll, bind_eq_ok_iff, lift_eq_ok_iff]
      constructor
      · rintro ⟨issued, d, ⟨hissued, rfl⟩, ⟨⟩, d', hloop, hrest⟩
        obtain ⟨hdone, rfl⟩ := writeAll_eq_ok_iff.mp hloop
        obtain ⟨run, ⟨hmade, hwritten⟩, rfl, rfl⟩ := ih.mp hrest
        refine ⟨issued :: run, ⟨?_, ?_⟩, rfl, ?_⟩
        · rw [List.map_cons, List.map_cons, hissued, hmade]
        · exact List.forall_mem_cons.mpr ⟨hdone, hwritten⟩
        · rw [List.flatMap_cons, List.foldl_append]
      · rintro ⟨run, ⟨hmade, hwritten⟩, rfl, rfl⟩
        cases run with
        | nil => cases hmade
        | cons issued run =>
            rw [List.map_cons, List.map_cons, List.cons.injEq] at hmade
            obtain ⟨hdone, hwritten⟩ := List.forall_mem_cons.mp hwritten
            refine ⟨issued, disk, ⟨hmade.1, rfl⟩, ⟨⟩, issued.fixtures.foldl (put outDir) disk,
              writeAll_eq_ok_iff.mpr ⟨hdone, rfl⟩, ?_⟩
            refine ih.mpr ⟨run, ⟨hmade.2, hwritten⟩, rfl, ?_⟩
            rw [List.flatMap_cons, List.foldl_append]

/-- What every single write of a fixture relates, emitting the batches relates, however far it
gets. -/
theorem relates_emitAll {R : Disk → Disk → Prop} (hrefl : ∀ d, R d d)
    (htrans : ∀ a b c, R a b → R b c → R a c)
    (hwrite : ∀ fx, Relates R (write host outDir fx)) (batches : List Batch) (tally : Tally) :
    Relates R (emitAll host outDir batches tally) := by
  induction batches generalizing tally with
  | nil => exact Relates.pure hrefl tally
  | cons batch batches ih =>
      refine Relates.lift_bind hrefl fun issued _ => ?_
      exact Relates.bind htrans (Relates.forM hrefl htrans fun fx _ => hwrite fx) fun _ => ih _

end Fixtures

end EightEen
