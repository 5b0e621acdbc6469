import EightEen.Fixtures

/-!
# The Directory of One Run

What `GenFixtures` leaves in the output directory when it returns, wherever it stops. Every run
mints CAs of its own, so a fixture beside the trust PEM of another run fails at chain validation.

## Main results

* `exists_fixture_iff`, `stale_bundle_iff`, `genFixtures_eq_ok_iff`: when a run leaves a fixture
  of its own, when it leaves the trust PEM of an earlier run, and when it succeeds.
* `genFixtures_describesOneRun_iff`: when the directory describes one run. A run that fails
  between its first fixture and the trust PEM leaves that of an earlier run beside its own
  fixtures: only `*.json` is cleared.
-/

namespace EightEen

namespace Fixtures

open Mint Scripts

open Provision (Dir)

variable {host : Host} {circuitDir outDir : Dir}

/-! ### How far a run gets -/

/-- The run opens its first fixture for writing. -/
def Begins (host : Host) (circuitDir outDir : Dir) : Prop :=
  ∃ circuit stale fx, Prepared host circuitDir outDir circuit stale ∧
    host.scenario circuit valid = .ok fx ∧
    ∀ e, host.writeFile (fixturePath outDir "valid") ≠ .refused e

/-- The run gets as far as the trust PEM: every fixture is minted and written, and the CA that is
withheld is not among the others. -/
structure Reaches (host : Host) (circuitDir outDir : Dir) (sessionNonceHex : String)
    (circuit : List UInt8) (stale : List String) (run : List Issued) : Prop where
  prepared : Prepared host circuitDir outDir circuit stale
  emitted : Emitted host outDir (batches host circuit sessionNonceHex) run
  withheld : (tallyOf (batches host circuit sessionNonceHex) run {}).untrustedCA ∉
    (tallyOf (batches host circuit sessionNonceHex) run {}).trusted

/-- The run opens the trust PEM for writing. -/
def Arrives (host : Host) (circuitDir outDir : Dir) (sessionNonceHex : String) : Prop :=
  (∃ circuit stale run, Reaches host circuitDir outDir sessionNonceHex circuit stale run) ∧
    ∀ e, host.writeFile (trustPath outDir) ≠ .refused e

/-- The run writes the trust PEM. -/
def Completes (host : Host) (circuitDir outDir : Dir) (sessionNonceHex : String) : Prop :=
  (∃ circuit stale run, Reaches host circuitDir outDir sessionNonceHex circuit stale run) ∧
    host.writeFile (trustPath outDir) = .done

variable {sessionNonceHex : String}

/-- With the untrusted CA among the trusted ones the bundle is not written: `main` ends with an
error, and the disk stays as it is. -/
theorem writeTrust_of_mem {tally : Tally} (h : tally.untrustedCA ∈ tally.trusted) (disk : Disk) :
    ∃ e, (writeTrust host outDir tally).run disk = .error e disk := by
  rw [writeTrust, if_pos h]
  exact ⟨_, rfl⟩

/-- Otherwise the bundle is written: the trusted CAs in PEM, one behind the other. -/
theorem writeTrust_of_notMem {tally : Tally} (h : tally.untrustedCA ∉ tally.trusted) :
    writeTrust host outDir tally =
      writeFile host (trustPath outDir) (tally.trusted.flatMap encodeToMemory) := by
  rw [writeTrust, if_neg h]

/-- **When a run succeeds**, and what it leaves then. -/
theorem genFixtures_eq_ok_iff {tally : Tally} {disk disk' : Disk} :
    (genFixtures host circuitDir outDir sessionNonceHex).run disk = .ok tally disk' ↔
      ∃ circuit stale run, Reaches host circuitDir outDir sessionNonceHex circuit stale run ∧
        host.writeFile (trustPath outDir) = .done ∧
        tally = tallyOf (batches host circuit sessionNonceHex) run {} ∧
        disk' = Function.update
          ((run.flatMap Issued.fixtures).foldl (put outDir) (clear stale disk))
          (trustPath outDir) (some ⟨tally.trusted.flatMap encodeToMemory, .thisRun⟩) := by
  simp only [genFixtures, bind_eq_ok_iff, pure_eq_ok_iff]
  constructor
  · rintro ⟨circuit, d, hprepare, tally', d', hemit, ⟨⟩, d'', htrust, rfl, rfl⟩
    obtain ⟨stale, hprepared, rfl⟩ := prepare_eq_ok_iff.mp hprepare
    obtain ⟨run, hemitted, rfl, rfl⟩ := emitAll_eq_ok_iff.mp hemit
    by_cases hmem : (tallyOf (batches host circuit sessionNonceHex) run {}).untrustedCA ∈
        (tallyOf (batches host circuit sessionNonceHex) run {}).trusted
    · obtain ⟨e, he⟩ := writeTrust_of_mem hmem _
      rw [he] at htrust
      cases htrust
    · rw [writeTrust_of_notMem hmem] at htrust
      obtain ⟨hdone, rfl⟩ := writeFile_eq_ok_iff.mp htrust
      exact ⟨circuit, stale, run, ⟨hprepared, hemitted, hmem⟩, hdone, rfl, rfl⟩
  · rintro ⟨circuit, stale, run, ⟨hprepared, hemitted, hmem⟩, hdone, rfl, rfl⟩
    refine ⟨circuit, _, prepare_eq_ok_iff.mpr ⟨stale, hprepared, rfl⟩, _, _,
      emitAll_eq_ok_iff.mpr ⟨run, hemitted, rfl, rfl⟩, ⟨⟩, _, ?_, rfl, rfl⟩
    rw [writeTrust_of_notMem hmem]
    exact writeFile_eq_ok_iff.mpr ⟨hdone, rfl⟩

/-! ### The trust PEM -/

/-- Nothing before the trust PEM touches it. -/
theorem keeps_prepare (host : Host) (circuitDir outDir : Dir) :
    Relates (Keeps (trustPath outDir)) (prepare host circuitDir outDir) :=
  relates_prepare (Keeps.refl _) (Keeps.trans _) fun _ hstale _ hf =>
    keeps_remove (ne_trustPath_of_mem_glob hstale hf)

/-- No fixture has the name of the bundle, so emitting them keeps what is there. -/
theorem keeps_emitAll (host : Host) (outDir : Dir) (batches : List Batch) (tally : Tally) :
    Relates (Keeps (trustPath outDir)) (emitAll host outDir batches tally) :=
  relates_emitAll (Keeps.refl _) (Keeps.trans _)
    (fun fx => keeps_writeFile (join_ne_trustPath (isJson_append fx.1) outDir) fx.2) batches tally

/-- A run that opens the trust PEM leaves one of its own. -/
theorem ours_trustPath_of_arrives (h : Arrives host circuitDir outDir sessionNonceHex)
    (disk : Disk) :
    Ours (after (genFixtures host circuitDir outDir sessionNonceHex) disk) (trustPath outDir) := by
  obtain ⟨⟨circuit, stale, run, hprepared, hemitted, hmem⟩, hopened⟩ := h
  rw [genFixtures, after_bind_of_ok (prepare_eq_ok_iff.mpr ⟨stale, hprepared, rfl⟩),
    after_bind_of_ok (emitAll_eq_ok_iff.mpr ⟨run, hemitted, rfl, rfl⟩), writeTrust_of_notMem hmem,
    after_bind_pure]
  exact after_writeFile_self hopened _ _

/-- A run that does not leaves the one that is there. -/
theorem keeps_trustPath_of_not_arrives (h : ¬ Arrives host circuitDir outDir sessionNonceHex)
    (disk : Disk) :
    Keeps (trustPath outDir) disk
      (after (genFixtures host circuitDir outDir sessionNonceHex) disk) := by
  have hprepare := keeps_prepare host circuitDir outDir disk
  cases hp : (prepare host circuitDir outDir).run disk with
  | error e d =>
      rw [genFixtures, after_bind_of_error hp]
      rwa [after_of_error hp] at hprepare
  | ok circuit d =>
      rw [after_of_ok hp] at hprepare
      rw [genFixtures, after_bind_of_ok hp]
      refine Keeps.trans _ _ _ _ hprepare ?_
      obtain ⟨stale, hprepared, -⟩ := prepare_eq_ok_iff.mp hp
      have hemits := keeps_emitAll host outDir
        (batches host circuit sessionNonceHex) {} d
      cases he : (emitAll host outDir (batches host circuit sessionNonceHex) {}).run d with
      | error e d' =>
          rw [after_bind_of_error he]
          rwa [after_of_error he] at hemits
      | ok tally d' =>
          rw [after_of_ok he] at hemits
          rw [after_bind_of_ok he, after_bind_pure]
          refine Keeps.trans _ _ _ _ hemits ?_
          obtain ⟨run, hemitted, rfl, -⟩ := emitAll_eq_ok_iff.mp he
          by_cases hmem : (tallyOf (batches host circuit sessionNonceHex) run {}).untrustedCA ∈
              (tallyOf (batches host circuit sessionNonceHex) run {}).trusted
          · obtain ⟨e, hfails⟩ := writeTrust_of_mem hmem d'
            rw [after_of_error hfails]
            exact Keeps.refl _ _
          · rw [writeTrust_of_notMem hmem]
            have hrefused : ∃ e, host.writeFile (trustPath outDir) = .refused e := by
              by_contra hnone
              exact h ⟨⟨circuit, stale, run, hprepared, hemitted, hmem⟩, fun e he =>
                hnone ⟨e, he⟩⟩
            obtain ⟨e, hrefused⟩ := hrefused
            rw [after_writeFile_of_refused hrefused]
            exact Keeps.refl _ _

/-- **When a run leaves the trust PEM of an earlier one.** -/
theorem stale_bundle_iff (files : String → Option (List UInt8)) :
    (∃ bytes, after (genFixtures host circuitDir outDir sessionNonceHex) (Disk.before files)
        (trustPath outDir) = some ⟨bytes, .earlier⟩) ↔
      files (trustPath outDir) ≠ none ∧ ¬ Arrives host circuitDir outDir sessionNonceHex := by
  constructor
  · rintro ⟨bytes, hbytes⟩
    have harrives : ¬ Arrives host circuitDir outDir sessionNonceHex := by
      intro harrives
      obtain ⟨ours, hours⟩ := ours_trustPath_of_arrives harrives (Disk.before files)
      rw [hours] at hbytes
      cases hbytes
    refine ⟨fun hnone => ?_, harrives⟩
    rw [keeps_trustPath_of_not_arrives harrives, Disk.before, hnone] at hbytes
    cases hbytes
  · rintro ⟨hsome, harrives⟩
    obtain ⟨bytes, hbytes⟩ := Option.ne_none_iff_exists'.mp hsome
    refine ⟨bytes, ?_⟩
    rw [keeps_trustPath_of_not_arrives harrives, Disk.before, hbytes]
    rfl

/-! ### The fixtures of a run -/

/-- The sweep and what comes before it bring no file of this run. -/
theorem adds_prepare (host : Host) (circuitDir outDir : Dir) :
    Relates Adds (prepare host circuitDir outDir) :=
  relates_prepare Adds.refl Adds.trans fun _ _ f _ => adds_remove f

/-- A fixture that has been written stays of this run while the others are emitted. -/
theorem stay_emitAll (host : Host) (outDir : Dir) (batches : List Batch) (tally : Tally) :
    Relates Stay (emitAll host outDir batches tally) :=
  relates_emitAll Stay.refl Stay.trans (fun _ => stay_writeFile _ _) batches tally

/-- And while the bundle is written, or not written. -/
theorem stay_writeTrust (host : Host) (outDir : Dir) (tally : Tally) :
    Relates Stay (writeTrust host outDir tally) := by
  intro disk
  by_cases hmem : tally.untrustedCA ∈ tally.trusted
  · obtain ⟨e, he⟩ := writeTrust_of_mem hmem disk
    rw [after_of_error he]
    exact Stay.refl disk
  · rw [writeTrust_of_notMem hmem]
    exact stay_writeFile _ _ disk

/-- The first fixture of a run is the first file that it opens. -/
theorem batches_eq_cons (host : Host) (circuit : List UInt8) (sessionNonceHex : String) :
    ∃ rest, batches host circuit sessionNonceHex = .of host circuit valid true :: rest :=
  ⟨_, rfl⟩

/-- A batch of one scenario is made when its scenario succeeds, and holds its one fixture. -/
theorem made_valid {circuit : List UInt8} {fx : List UInt8 × List UInt8}
    (h : host.scenario circuit valid = .ok fx) :
    (Batch.of host circuit valid true).made = .ok ⟨[("valid", fx.1)], fx.2⟩ := by
  change scenario host circuit valid = _
  rw [scenario, h]
  rfl

/-- A run that begins leaves its first fixture. -/
theorem ours_valid_of_begins (h : Begins host circuitDir outDir) (disk : Disk) :
    Ours (after (genFixtures host circuitDir outDir sessionNonceHex) disk)
      (fixturePath outDir "valid") := by
  obtain ⟨circuit, stale, fx, hprepared, hfx, hopened⟩ := h
  obtain ⟨rest, hrest⟩ := batches_eq_cons host circuit sessionNonceHex
  rw [genFixtures, after_bind_of_ok (prepare_eq_ok_iff.mpr ⟨stale, hprepared, rfl⟩), hrest]
  -- Nothing that comes behind the first write takes the file away.
  refine Relates.after_bind Stay.refl (fun tally => ?_) _ _ _ ?_
  · exact Relates.bind Stay.trans (stay_writeTrust host outDir tally) fun _ =>
      Relates.pure Stay.refl tally
  rw [emitAll, made_valid hfx, after_bind_of_ok (lift_ok _ _)]
  refine Relates.after_bind Stay.refl (fun _ => stay_emitAll host outDir rest _) _ _ _ ?_
  rw [List.forM_cons]
  refine Relates.after_bind Stay.refl (fun _ => Relates.pure Stay.refl _) _ _ _ ?_
  exact after_writeFile_self hopened _ _

/-- A run that does not leaves no file of its own. -/
theorem begins_of_ours {disk : Disk} {path : String}
    (h : Ours (after (genFixtures host circuitDir outDir sessionNonceHex) disk) path)
    (hdisk : ¬ Ours disk path) : Begins host circuitDir outDir := by
  have hprepare := adds_prepare host circuitDir outDir disk
  cases hp : (prepare host circuitDir outDir).run disk with
  | error e d =>
      rw [genFixtures, after_bind_of_error hp] at h
      rw [after_of_error hp] at hprepare
      exact absurd (hprepare path h) hdisk
  | ok circuit d =>
      rw [after_of_ok hp] at hprepare
      rw [genFixtures, after_bind_of_ok hp] at h
      obtain ⟨stale, hprepared, -⟩ := prepare_eq_ok_iff.mp hp
      obtain ⟨rest, hrest⟩ := batches_eq_cons host circuit sessionNonceHex
      have hd : ¬ Ours d path := fun hours => hdisk (hprepare path hours)
      by_contra hbegins
      have hstops : ∃ e, (emitAll host outDir (batches host circuit sessionNonceHex) {}).run d =
          .error e d := by
        rw [hrest, emitAll]
        cases hfx : host.scenario circuit valid with
        | error e =>
            have hmade : (Batch.of host circuit valid true).made = .error e := by
              change scenario host circuit valid = _
              rw [scenario, hfx]
              rfl
            exact ⟨e, bind_of_error (by rw [hmade]; exact lift_error e d) _⟩
        | ok fx =>
            have hrefused : ∃ e, host.writeFile (fixturePath outDir "valid") = .refused e := by
              by_contra hnone
              exact hbegins ⟨circuit, stale, fx, hprepared, hfx, fun e he => hnone ⟨e, he⟩⟩
            obtain ⟨e, hrefused⟩ := hrefused
            refine ⟨e, ?_⟩
            rw [made_valid hfx, bind_of_ok (lift_ok _ _)]
            refine bind_of_error ?_ _
            rw [List.forM_cons]
            refine bind_of_error ?_ _
            rw [write, writeFile, hrefused]
            rfl
      obtain ⟨e, hstops⟩ := hstops
      rw [after_bind_of_error hstops] at h
      exact hd h

/-- Before the run no file is of this run. -/
theorem not_ours_before (files : String → Option (List UInt8)) (path : String) :
    ¬ Ours (Disk.before files) path := by
  rintro ⟨bytes, hbytes⟩
  obtain ⟨_, -, hmark⟩ := Option.map_eq_some_iff.mp hbytes
  cases hmark

/-- **When a run leaves a fixture of its own.** -/
theorem exists_fixture_iff (files : String → Option (List UInt8)) :
    (∃ name, isJson name = true ∧
      Ours (after (genFixtures host circuitDir outDir sessionNonceHex) (Disk.before files))
        (outDir.join name)) ↔ Begins host circuitDir outDir := by
  constructor
  · rintro ⟨name, -, hours⟩
    exact begins_of_ours hours (not_ours_before files _)
  · intro hbegins
    exact ⟨"valid.json", by decide, ours_valid_of_begins hbegins _⟩

/-! ### What a run that succeeds leaves -/

/-- The names of the fixtures of a run. -/
def fixtureNames (sessionNonceHex : String) : List String :=
  ["valid", "untrusted-issuer", "underage", "tampered", "stale-nonce", "mangled-cert",
    "substituted-claim", "expired-credential", "unlinkable-a1", "unlinkable-a2", "unlinkable-b1"] ++
  if sessionNonceHex ≠ "" then ["single-use"] else []

/-- **No two fixtures have one name**, whatever the nonce of the session is. -/
theorem fixtureNames_nodup (sessionNonceHex : String) : (fixtureNames sessionNonceHex).Nodup := by
  rw [fixtureNames]
  split <;> decide

/-- The batches of `main` have the names of the plan, in its order. -/
theorem names_batches (host : Host) (circuit : List UInt8) (sessionNonceHex : String) :
    (batches host circuit sessionNonceHex).flatMap Batch.names = fixtureNames sessionNonceHex := by
  rw [batches, fixtureNames, List.flatMap_append]
  split <;> rfl

/-- Every CA is trusted but that of `untrusted-issuer`. -/
theorem trusted_of_mem_batches {circuit : List UInt8} {batch : Batch}
    (h : batch ∈ batches host circuit sessionNonceHex) :
    batch.trusted = decide ("untrusted-issuer" ∉ batch.names) := by
  have hall : ∀ batch ∈ batches host circuit sessionNonceHex,
      batch.trusted = decide ("untrusted-issuer" ∉ batch.names) := by
    rw [batches]
    split <;> simp [Batch.of, valid]
  exact hall batch h

/-- The fixtures of a run, in the order in which they are written. -/
def fixturesOf (run : List Issued) : List (String × List UInt8) :=
  run.flatMap Issued.fixtures

/-- The CAs of the fixtures of a run, except that of `untrusted-issuer`. -/
def trustedCAs (run : List Issued) : List (List UInt8) :=
  (run.filter fun issued => "untrusted-issuer" ∉ issued.fixtures.map Prod.fst).map Issued.caDER

/-- The directory is that of one run: its `*.json` are the fixtures, and its trust PEM holds the CAs
of the fixtures, except that of `untrusted-issuer`. -/
structure Describes (outDir : Dir) (run : List Issued) (disk : Disk) : Prop where
  fixtures : ∀ name, isJson name = true → ∀ file, disk (outDir.join name) = some file ↔
    ∃ fx ∈ fixturesOf run, name = fx.1 ++ ".json" ∧ file = ⟨fx.2, .thisRun⟩
  trust : disk (trustPath outDir) =
    some ⟨(trustedCAs run).flatMap encodeToMemory, .thisRun⟩
  withheld : ∀ issued ∈ run, "untrusted-issuer" ∈ issued.fixtures.map Prod.fst →
    issued.caDER ∉ trustedCAs run

/-- Two lists of parts and results that go together, taken apart at the front. -/
theorem Batch.named_of_map {batch : Batch} {batches : List Batch} {issued : Issued}
    {run : List Issued} (h : (batch :: batches).map Batch.made = (issued :: run).map .ok) :
    (issued.fixtures.map Prod.fst).Perm batch.names ∧
      batches.map Batch.made = run.map .ok := by
  rw [List.map_cons, List.map_cons, List.cons.injEq] at h
  exact ⟨batch.named issued h.1, h.2⟩

/-- What has been made has the names that the batches have planned, up to order. -/
theorem names_perm {batches : List Batch} {run : List Issued}
    (h : batches.map Batch.made = run.map .ok) :
    ((fixturesOf run).map Prod.fst).Perm (batches.flatMap Batch.names) := by
  induction batches generalizing run with
  | nil =>
      obtain rfl : run = [] := List.map_eq_nil_iff.mp h.symm
      exact List.Perm.refl _
  | cons batch batches ih =>
      cases run with
      | nil => cases h
      | cons issued run =>
          obtain ⟨hnamed, hrest⟩ := Batch.named_of_map h
          rw [fixturesOf, List.flatMap_cons, List.map_append, List.flatMap_cons]
          exact hnamed.append (ih hrest)

/-- The tally of a run counts its fixtures as written, in their order. -/
theorem written_tallyOf {batches : List Batch} {run : List Issued} {tally : Tally}
    (h : batches.map Batch.made = run.map .ok) :
    (tallyOf batches run tally).written = tally.written ++ (fixturesOf run).map Prod.fst := by
  induction batches generalizing run tally with
  | nil =>
      obtain rfl : run = [] := List.map_eq_nil_iff.mp h.symm
      exact (List.append_nil _).symm
  | cons batch batches ih =>
      cases run with
      | nil => cases h
      | cons issued run =>
          refine (ih (Batch.named_of_map h).2).trans ?_
          rw [Tally.add_written, fixturesOf, fixturesOf, List.flatMap_cons, List.map_append,
            List.append_assoc]

/-- **The CAs that a run trusts** are those of all its batches but the one of the untrusted
issuer. -/
theorem trusted_tallyOf {batches : List Batch} {run : List Issued} {tally : Tally}
    (h : batches.map Batch.made = run.map .ok)
    (hflags : ∀ batch ∈ batches, batch.trusted = decide ("untrusted-issuer" ∉ batch.names)) :
    (tallyOf batches run tally).trusted = tally.trusted ++ trustedCAs run := by
  induction batches generalizing run tally with
  | nil =>
      obtain rfl : run = [] := List.map_eq_nil_iff.mp h.symm
      exact (List.append_nil _).symm
  | cons batch batches ih =>
      cases run with
      | nil => cases h
      | cons issued run =>
          obtain ⟨hnamed, hrest⟩ := Batch.named_of_map h
          refine (ih hrest (List.forall_mem_cons.mp hflags).2).trans ?_
          rw [Tally.add_trusted, (List.forall_mem_cons.mp hflags).1, trustedCAs, trustedCAs,
            List.filter_cons]
          simp only [hnamed.mem_iff]
          by_cases hname : "untrusted-issuer" ∈ batch.names
          · simp [hname]
          · simp [hname]

/-- Batches that are all trusted leave the untrusted CA as it was. -/
theorem untrustedCA_tallyOf_of_trusted {batches : List Batch}
    (h : ∀ batch ∈ batches, batch.trusted = true) (run : List Issued) (tally : Tally) :
    (tallyOf batches run tally).untrustedCA = tally.untrustedCA := by
  induction batches generalizing run tally with
  | nil => rfl
  | cons batch batches ih =>
      cases run with
      | nil => rfl
      | cons issued run =>
          refine (ih (List.forall_mem_cons.mp h).2 run _).trans ?_
          rw [Tally.add_untrustedCA, (List.forall_mem_cons.mp h).1]
          rfl

/-- The CA that is withheld is that of `untrusted-issuer`. -/
theorem untrustedCA_tallyOf {batches : List Batch} {run : List Issued} {tally : Tally}
    (h : batches.map Batch.made = run.map .ok)
    (hflags : ∀ batch ∈ batches, batch.trusted = decide ("untrusted-issuer" ∉ batch.names))
    (hnodup : (batches.flatMap Batch.names).Nodup) {issued : Issued} (hissued : issued ∈ run)
    (hname : "untrusted-issuer" ∈ issued.fixtures.map Prod.fst) :
    (tallyOf batches run tally).untrustedCA = issued.caDER := by
  induction batches generalizing run tally with
  | nil =>
      obtain rfl : run = [] := List.map_eq_nil_iff.mp h.symm
      cases hissued
  | cons batch batches ih =>
      cases run with
      | nil => cases h
      | cons first run =>
          obtain ⟨hnamed, hrest⟩ := Batch.named_of_map h
          obtain ⟨hflag, hflags⟩ := List.forall_mem_cons.mp hflags
          rw [List.flatMap_cons, List.nodup_append] at hnodup
          rcases List.mem_cons.mp hissued with rfl | hissued
          · have hmem := hnamed.mem_iff.mp hname
            refine (untrustedCA_tallyOf_of_trusted (fun other hother => ?_) run _).trans ?_
            · rw [hflags other hother, decide_eq_true_eq]
              intro hagain
              exact hnodup.2.2 _ hmem _ (List.mem_flatMap.mpr ⟨other, hother, hagain⟩) rfl
            · rw [Tally.add_untrustedCA, hflag]
              simp [hmem]
          · exact ih hrest hflags hnodup.2.1 hissued

/-- Writing fixtures leaves every path as it was that is the path of none of them. -/
theorem foldl_put_of_ne {fixtures : List (String × List UInt8)} {path : String}
    (h : ∀ fx ∈ fixtures, path ≠ fixturePath outDir fx.1) (disk : Disk) :
    fixtures.foldl (put outDir) disk path = disk path := by
  induction fixtures generalizing disk with
  | nil => rfl
  | cons fx fixtures ih =>
      obtain ⟨hfx, hrest⟩ := List.forall_mem_cons.mp h
      rw [List.foldl_cons, ih hrest, put, Function.update_of_ne hfx]

/-- A fixture that is written is there at the end: no other one has its name. -/
theorem foldl_put_of_mem {fixtures : List (String × List UInt8)}
    (hnodup : (fixtures.map Prod.fst).Nodup) {fx : String × List UInt8} (h : fx ∈ fixtures)
    (disk : Disk) :
    fixtures.foldl (put outDir) disk (fixturePath outDir fx.1) = some ⟨fx.2, .thisRun⟩ := by
  induction fixtures generalizing disk with
  | nil => cases h
  | cons first fixtures ih =>
      rw [List.map_cons, List.nodup_cons] at hnodup
      rw [List.foldl_cons]
      rcases List.mem_cons.mp h with rfl | h
      · refine (foldl_put_of_ne (fun other hother heq => ?_) _).trans ?_
        · have hname : other.1 = fx.1 := (fixturePath_injective heq).symm
          exact hnodup.1 (List.mem_map.mpr ⟨other, hother, hname⟩)
        · exact Function.update_self _ _ disk
      · exact ih hnodup.2 h _

/-- Every `*.json` of the directory is listed, or is written again. -/
def Swept (host : Host) (outDir : Dir) (sessionNonceHex : String)
    (files : String → Option (List UInt8)) : Prop :=
  ∀ name, isJson name = true → files (outDir.join name) ≠ none →
    (∃ stale, glob host outDir = .ok stale ∧ outDir.join name ∈ stale) ∨
      ∃ planned ∈ fixtureNames sessionNonceHex, name = planned ++ ".json"

/-- What is at a name after some fixtures have been written: the fixture that has it, or else what
was there. -/
theorem foldl_put_eq_some_iff {fixtures : List (String × List UInt8)}
    (hnodup : (fixtures.map Prod.fst).Nodup) {disk : Disk} {name : String} {file : Marked} :
    fixtures.foldl (put outDir) disk (outDir.join name) = some file ↔
      (∃ fx ∈ fixtures, name = fx.1 ++ ".json" ∧ file = ⟨fx.2, .thisRun⟩) ∨
        (∀ fx ∈ fixtures, name ≠ fx.1 ++ ".json") ∧ disk (outDir.join name) = some file := by
  by_cases hname : ∃ fx ∈ fixtures, name = fx.1 ++ ".json"
  · obtain ⟨fx, hfx, rfl⟩ := hname
    have hwritten : fixtures.foldl (put outDir) disk (outDir.join (fx.1 ++ ".json")) =
        some ⟨fx.2, .thisRun⟩ := foldl_put_of_mem hnodup hfx disk
    rw [hwritten]
    constructor
    · intro hfile
      exact .inl ⟨fx, hfx, rfl, (Option.some.inj hfile).symm⟩
    · rintro (⟨other, hother, hsame, rfl⟩ | ⟨hnone, -⟩)
      · have hfst := fixturePath_injective (congrArg outDir.join hsame)
        obtain rfl := List.inj_on_of_nodup_map hnodup hother hfx hfst.symm
        rfl
      · exact absurd rfl (hnone fx hfx)
  · have hnone : ∀ fx ∈ fixtures, name ≠ fx.1 ++ ".json" := fun fx hfx heq => hname ⟨fx, hfx, heq⟩
    rw [foldl_put_of_ne fun fx hfx heq => hnone fx hfx (Provision.join_injective heq)]
    constructor
    · exact fun hfile => .inr ⟨hnone, hfile⟩
    · rintro (⟨fx, hfx, heq, -⟩ | ⟨-, hfile⟩)
      · exact absurd heq (hnone fx hfx)
      · exact hfile

/-- A directory is swept when the clearing leaves no `*.json` that is not written again. -/
theorem swept_iff {stale : List String} (hlisted : glob host outDir = .ok stale)
    {files : String → Option (List UInt8)} :
    Swept host outDir sessionNonceHex files ↔ ∀ name, isJson name = true →
      (∀ planned ∈ fixtureNames sessionNonceHex, name ≠ planned ++ ".json") →
      clear stale (Disk.before files) (outDir.join name) = none := by
  constructor
  · intro hswept name hjson hunplanned
    rw [clear_apply]
    split
    · rfl
    · next hnot =>
        rw [Disk.before, Option.map_eq_none_iff]
        by_contra hfile
        rcases hswept name hjson hfile with ⟨stale', hlisted', hmem⟩ | ⟨planned, hmem, heq⟩
        · obtain rfl := Except.ok.inj (hlisted'.symm.trans hlisted)
          exact hnot hmem
        · exact hunplanned planned hmem heq
  · intro hcleared name hjson hfile
    by_cases hname : ∃ planned ∈ fixtureNames sessionNonceHex, name = planned ++ ".json"
    · exact .inr hname
    · refine .inl ⟨stale, hlisted, ?_⟩
      by_contra hnot
      have hnone := hcleared name hjson fun planned hmem heq => hname ⟨planned, hmem, heq⟩
      rw [clear_apply, if_neg hnot, Disk.before, Option.map_eq_none_iff] at hnone
      exact hfile hnone

/-- **What a run that succeeds leaves** is its own, except for the `*.json` that were neither
listed nor written. -/
theorem describes_iff {circuit : List UInt8} {stale : List String} {run : List Issued}
    {files : String → Option (List UInt8)}
    (h : Reaches host circuitDir outDir sessionNonceHex circuit stale run) :
    Describes outDir run (Function.update
        ((fixturesOf run).foldl (put outDir) (clear stale (Disk.before files)))
        (trustPath outDir)
        (some ⟨(tallyOf (batches host circuit sessionNonceHex) run {}).trusted.flatMap
          encodeToMemory, .thisRun⟩)) ↔
      Swept host outDir sessionNonceHex files := by
  obtain ⟨hprepared, ⟨hmade, -⟩, hwithheld⟩ := h
  have htrusted :
      (tallyOf (batches host circuit sessionNonceHex) run {}).trusted = trustedCAs run :=
    (trusted_tallyOf hmade fun _ => trusted_of_mem_batches).trans (List.nil_append _)
  have hperm := names_perm hmade
  rw [names_batches] at hperm
  have hnodup := hperm.nodup_iff.mpr (fixtureNames_nodup sessionNonceHex)
  have hplanned : ∀ name, (∀ fx ∈ fixturesOf run, name ≠ fx.1 ++ ".json") ↔
      ∀ planned ∈ fixtureNames sessionNonceHex, name ≠ planned ++ ".json" := by
    intro name
    simp only [← hperm.mem_iff, List.forall_mem_map]
  rw [swept_iff hprepared.listed]
  constructor
  · rintro ⟨hfixtures, -, -⟩ name hjson hunplanned
    by_contra hsome
    obtain ⟨file, hfile⟩ := Option.ne_none_iff_exists'.mp hsome
    have hleft := (hplanned name).mpr hunplanned
    obtain ⟨fx, hfx, heq, -⟩ := (hfixtures name hjson file).mp (by
      rw [Function.update_of_ne (join_ne_trustPath hjson outDir).symm]
      exact (foldl_put_eq_some_iff hnodup).mpr (.inr ⟨hleft, hfile⟩))
    exact hleft fx hfx heq
  · intro hcleared
    refine ⟨fun name hjson file => ?_, ?_, ?_⟩
    · rw [Function.update_of_ne (join_ne_trustPath hjson outDir).symm,
        foldl_put_eq_some_iff hnodup, or_iff_left_iff_imp]
      rintro ⟨hleft, hfile⟩
      rw [hcleared name hjson ((hplanned name).mp hleft)] at hfile
      cases hfile
    · rw [Function.update_self, htrusted]
    · intro issued hissued hname
      rw [htrusted] at hwithheld
      rwa [untrustedCA_tallyOf hmade (fun _ => trusted_of_mem_batches)
        (by rw [names_batches]; exact fixtureNames_nodup sessionNonceHex) hissued hname]
        at hwithheld

/-! ### The directory of one run -/

/-- When the call returns, no fixture of this run is beside the trust PEM of an earlier one; and if
it succeeds, the directory is that of the run. -/
def DescribesOneRun (host : Host) (circuitDir outDir : Dir) (sessionNonceHex : String)
    (files : String → Option (List UInt8)) : Prop :=
  ¬ ((∃ name, isJson name = true ∧
        Ours (after (genFixtures host circuitDir outDir sessionNonceHex) (Disk.before files))
          (outDir.join name)) ∧
      ∃ bytes, after (genFixtures host circuitDir outDir sessionNonceHex) (Disk.before files)
        (trustPath outDir) = some ⟨bytes, .earlier⟩) ∧
    ∀ tally disk, (genFixtures host circuitDir outDir sessionNonceHex).run (Disk.before files) =
      .ok tally disk →
      ∃ circuit run, loadCircuit host circuitDir = .ok circuit ∧
        (batches host circuit sessionNonceHex).map Batch.made = run.map .ok ∧
        tally.written = (fixturesOf run).map Prod.fst ∧ Describes outDir run disk

/-- **When the directory describes one run.** -/
theorem genFixtures_describesOneRun_iff (host : Host) (circuitDir outDir : Dir)
    (sessionNonceHex : String) (files : String → Option (List UInt8)) :
    DescribesOneRun host circuitDir outDir sessionNonceHex files ↔
      (files (trustPath outDir) = none ∨ ¬ Begins host circuitDir outDir ∨
        Arrives host circuitDir outDir sessionNonceHex) ∧
      (Completes host circuitDir outDir sessionNonceHex →
        Swept host outDir sessionNonceHex files) := by
  rw [DescribesOneRun, exists_fixture_iff, stale_bundle_iff]
  refine and_congr (by tauto) ?_
  constructor
  · rintro hdescribes ⟨⟨circuit, stale, run, hreaches⟩, hdone⟩
    obtain ⟨circuit', run', hloaded, hmade, -, hdesc⟩ := hdescribes _ _
      (genFixtures_eq_ok_iff.mpr ⟨circuit, stale, run, hreaches, hdone, rfl, rfl⟩)
    -- The run that is described is the one that was made.
    obtain rfl := Except.ok.inj (hreaches.prepared.loaded.symm.trans hloaded)
    obtain rfl : run = run' :=
      List.map_injective_iff.mpr (fun _ _ => Except.ok.inj) (hreaches.emitted.made.symm.trans hmade)
    exact (describes_iff hreaches).mp hdesc
  · intro hswept tally disk hrun
    obtain ⟨circuit, stale, run, hreaches, hdone, rfl, rfl⟩ := genFixtures_eq_ok_iff.mp hrun
    refine ⟨circuit, run, hreaches.prepared.loaded, hreaches.emitted.made,
      (written_tallyOf hreaches.emitted.made).trans (List.nil_append _), ?_⟩
    exact (describes_iff hreaches).mpr (hswept ⟨⟨circuit, stale, run, hreaches⟩, hdone⟩)

/-- A machine on which every call succeeds but the minting of the third fixture. -/
def hostWithoutUnderage : Host where
  mkdirAll _ := .ok ()
  readFile _ := .ok []
  circuitID _ := .ok circuitHash0
  matching _ := .ok []
  names _ := ["caCerts.pem"]
  remove _ := .ok ()
  writeFile _ := .done
  scenario _ o :=
    if o.name = "underage" then .error "underage: prover failed: MDOC_PROVER_GENERAL_FAILURE"
    else .ok (ascii o.name, [0x30])
  issuer := .ok [0x31]
  present _ name := .ok (ascii name)
  order entries := entries
  order_perm _ := List.Perm.refl _

/-- A directory that holds the trust PEM of an earlier run. -/
def bundleOnly (path : String) : Option (List UInt8) :=
  if path = "out/caCerts.pem" then some (encodeToMemory [0x30]) else none

/-- **A run that stops half-way** leaves its first two fixtures beside the trust PEM of the earlier
run, against which neither chains. -/
theorem not_describesOneRun_bundleOnly :
    ¬ DescribesOneRun hostWithoutUnderage ⟨"circuits/"⟩ ⟨"out/"⟩ "" bundleOnly := by
  have hbegins : Begins hostWithoutUnderage ⟨"circuits/"⟩ ⟨"out/"⟩ := by
    refine ⟨[], [], (ascii "valid", [0x30]), ⟨rfl, rfl, rfl, ?_⟩, rfl, ?_⟩
    · intro f hf
      cases hf
    · intro e he
      cases he
  have harrives : ¬ Arrives hostWithoutUnderage ⟨"circuits/"⟩ ⟨"out/"⟩ "" := by
    rintro ⟨⟨circuit, stale, run, hreaches⟩, -⟩
    have hmem : Except.error "underage: prover failed: MDOC_PROVER_GENERAL_FAILURE" ∈
        (batches hostWithoutUnderage circuit "").map Batch.made := by
      refine List.mem_map.mpr ⟨_, List.mem_of_getElem? (i := 2) rfl, rfl⟩
    rw [hreaches.emitted.made] at hmem
    obtain ⟨issued, -, hissued⟩ := List.mem_map.mp hmem
    cases hissued
  have hbundle : bundleOnly (trustPath ⟨"out/"⟩) ≠ none := by decide
  rintro ⟨hapart, -⟩
  exact hapart ⟨(exists_fixture_iff bundleOnly).mpr hbegins,
    (stale_bundle_iff bundleOnly).mpr ⟨hbundle, harrives⟩⟩

end Fixtures

end EightEen
