import EightEen.Runs

/-!
# The Identifier Detector

`TestProofBytesCarryNoPerCredentialIdentifier` of `tools/mkfixture/unlink_test.go`, with the
functions that it rests on. Two presentations of one credential and one of another are given as
opaque bytes. An identifier that sits in both proofs of the credential is a run that they share,
so the longest common run of the two is held against that of proofs of different credentials.
The search is a bisection with a cap on the length, and before the test believes a null result
it plants a tag in a proof and wants to see it found.

## Main results

* `isGreatest_longestCommonRun`: the search finds the longest common run, up to the cap.
* `control_fires`: the planted tag is found and called linkable, whatever the proofs.
* `test_passes_iff`: what a test that passes has ruled out.
-/

open Runs

namespace EightEen

namespace Fixtures

/-! ### Common runs of two proofs -/

/-- `shareRunOfLength(a, b, k)`. -/
def shareRunOfLength (a b : List UInt8) (k : ℕ) : Bool :=
  if k = 0 ∨ a.length < k ∨ b.length < k then false
  else
    let seen := windows k a
    (windows k b).any fun run => seen.contains run

/-- `maxRunProbe`. -/
def maxRunProbe : ℕ := 64

/-- `longestCommonRun(a, b)`. -/
def longestCommonRun (a b : List UInt8) : ℕ :=
  let hi := maxRunProbe
  let hi := if a.length < hi then a.length else hi
  let hi := if b.length < hi then b.length else hi
  bisect (shareRunOfLength a b) 0 hi

/-- Two proofs share a run of a length when there is one in both. -/
theorem shareRunOfLength_iff (a b : List UInt8) (k : ℕ) :
    shareRunOfLength a b k = true ↔ 0 < k ∧ k ∈ common a b := by
  rw [shareRunOfLength]
  split
  · next hshort =>
      refine iff_of_false (by simp) ?_
      rintro ⟨hpos, hk⟩
      obtain ⟨ha, hb⟩ := le_length_of_common hk
      omega
  · next hlong =>
      simp only [List.any_eq_true, List.contains_iff_mem, mem_windows_iff]
      constructor
      · rintro ⟨run, ⟨hlen, hb⟩, -, ha⟩
        exact ⟨by omega, run, hlen, ha, hb⟩
      · rintro ⟨-, run, hlen, ha, hb⟩
        exact ⟨run, ⟨hlen, hb⟩, hlen, ha⟩

/-- **The search finds the longest common run**, up to the cap. -/
theorem isGreatest_longestCommonRun (a b : List UInt8) :
    IsGreatest {k | k ∈ common a b ∧ k ≤ maxRunProbe} (longestCommonRun a b) := by
  refine isGreatest_bisect (shareRunOfLength_iff a b) fun k hk => ?_
  obtain ⟨ha, hb⟩ := le_length_of_common hk
  split <;> split <;> omega

/-- Every common run shows in the search, as far as the cap allows. -/
theorem min_le_longestCommonRun {a b : List UInt8} {k : ℕ} (hk : k ∈ common a b) :
    min k maxRunProbe ≤ longestCommonRun a b :=
  (isGreatest_longestCommonRun a b).2 ⟨common_of_le (min_le_left _ _) hk, min_le_right _ _⟩

/-- Below the cap, the search bounds a number exactly when the number bounds all common
runs. -/
theorem longestCommonRun_le_iff {a b : List UInt8} {n : ℕ} (hn : n < maxRunProbe) :
    longestCommonRun a b ≤ n ↔ ∀ k ∈ common a b, k ≤ n := by
  constructor
  · intro h k hk
    have hmin := min_le_longestCommonRun hk
    omega
  · intro h
    exact h _ (isGreatest_longestCommonRun a b).1.1

/-! ### The decision -/

/-- `structuralFloor`. -/
def structuralFloor : ℕ := 8

/-- `noiseMargin`. -/
def noiseMargin : ℕ := 2

/-- `linkable(sameRun, diffRun, floor)`. -/
def linkable (sameRun diffRun floor : ℕ) : Bool :=
  let baseline := diffRun
  let baseline := if baseline < floor then floor else baseline
  baseline + noiseMargin < sameRun

theorem linkable_iff (sameRun diffRun floor : ℕ) :
    linkable sameRun diffRun floor = true ↔ max diffRun floor + noiseMargin < sameRun := by
  rw [linkable, decide_eq_true_iff]
  split <;> omega

/-! ### The control -/

/-- `tagLen`. -/
def tagLen : ℕ := 16

/-- `copy(dst, src)`, as the bytes of `dst` behind it. -/
def copyBytes (dst src : List UInt8) : List UInt8 :=
  src.take dst.length ++ dst.drop src.length

/-- `proofB1` with a tag out of `proofA1`. -/
def planted (proofA1 proofB1 : List UInt8) : List UInt8 :=
  proofB1.take 5000 ++ copyBytes (proofB1.drop 5000) ((proofA1.drop 1234).take tagLen)

/-- The tag is a common run, wherever it was taken from and put. -/
theorem tagLen_mem_common {proofA1 proofB1 : List UInt8} (ha : 1234 + tagLen ≤ proofA1.length)
    (hb : 5000 + tagLen ≤ proofB1.length) :
    tagLen ∈ common proofA1 (planted proofA1 proofB1) := by
  have hlen : ((proofA1.drop 1234).take tagLen).length = tagLen := by
    rw [List.length_take, List.length_drop]
    omega
  refine ⟨(proofA1.drop 1234).take tagLen, hlen, ?_, ?_⟩
  · exact (List.take_prefix _ _).isInfix.trans (List.drop_suffix _ _).isInfix
  · have hroom : ((proofA1.drop 1234).take tagLen).length ≤ (proofB1.drop 5000).length := by
      rw [hlen, List.length_drop]
      omega
    rw [planted, copyBytes, List.take_of_length_le hroom]
    exact ⟨_, _, List.append_assoc _ _ _⟩

/-! ### The test -/

/-- How the test ends: it passes, calls `t.Fatalf`, or stops in a slice expression that is out
of range. -/
inductive TestResult where
  | passes
  | fatal (message : String)
  | panics
  deriving DecidableEq

/-- The failures of the test. -/
inductive TestFailure where
  | stale (diffRun : ℕ)
  | blind (plantedRun : ℕ)
  | toothless (plantedRun diffRun : ℕ)
  | linked (sameRun diffRun : ℕ)

/-- The message of a failure. -/
def TestFailure.message : TestFailure → String
  | stale diffRun => "different-credential baseline is " ++ toString diffRun ++
      "B, above the declared structural floor of " ++ toString structuralFloor ++ "B — " ++
      "the threshold this test reasons against is stale; re-measure it, do not widen it to " ++
      "make this pass"
  | blind plantedRun => "planted a " ++ toString tagLen ++
      "B identifier and the detector only found a " ++ toString plantedRun ++
      "B run — it cannot see what it is looking for"
  | toothless plantedRun diffRun => "planted a " ++ toString tagLen ++
      "B per-credential identifier (run=" ++ toString plantedRun ++ "B, baseline=" ++
      toString diffRun ++ "B) and the predicate did NOT call it linkable — " ++
      "this test cannot fail, and the null result below would be worthless"
  | linked sameRun diffRun => "two presentations of the SAME credential share a " ++
      toString sameRun ++ "B run, while two DIFFERENT credentials share only " ++
      toString diffRun ++ "B — the excess is a stable per-credential identifier in the proof " ++
      "bytes, and the presentations are LINKABLE"

/-- `TestProofBytesCarryNoPerCredentialIdentifier`, from the proofs in the three fixtures on.
Nothing lies behind the bytes of a slice. -/
def testProofBytes (proofA1 proofA2 proofB1 : List UInt8) : TestResult :=
  let sameRun := longestCommonRun proofA1 proofA2
  let diffRun := longestCommonRun proofA1 proofB1
  if structuralFloor + noiseMargin < diffRun then .fatal (TestFailure.stale diffRun).message
  else if proofB1.length < 5000 ∨ proofA1.length < 1234 + tagLen then .panics
  else
    let plantedRun := longestCommonRun proofA1 (planted proofA1 proofB1)
    if plantedRun < tagLen then .fatal (TestFailure.blind plantedRun).message
    else if ¬linkable plantedRun diffRun structuralFloor then
      .fatal (TestFailure.toothless plantedRun diffRun).message
    else if linkable sameRun diffRun structuralFloor then
      .fatal (TestFailure.linked sameRun diffRun).message
    else .passes

/-- **The control fires**: in proofs that are long enough the planted tag is found, and is
called linkable against every baseline that the test goes on with. -/
theorem control_fires {proofA1 proofB1 : List UInt8} (ha : 1234 + tagLen ≤ proofA1.length)
    (hb : 5000 + tagLen ≤ proofB1.length) {diffRun : ℕ}
    (hdiff : diffRun ≤ structuralFloor + noiseMargin) :
    tagLen ≤ longestCommonRun proofA1 (planted proofA1 proofB1) ∧
      linkable (longestCommonRun proofA1 (planted proofA1 proofB1)) diffRun structuralFloor =
        true := by
  have hfound := min_le_longestCommonRun (tagLen_mem_common ha hb)
  rw [tagLen, maxRunProbe] at hfound
  rw [linkable_iff, tagLen]
  rw [structuralFloor, noiseMargin] at hdiff ⊢
  omega

/-- The end of a test on proofs that are long enough. -/
theorem testProofBytes_eq {proofA1 proofB1 : List UInt8} (proofA2 : List UInt8)
    (ha : 1234 + tagLen ≤ proofA1.length) (hb : 5000 + tagLen ≤ proofB1.length) :
    testProofBytes proofA1 proofA2 proofB1 =
      if structuralFloor + noiseMargin < longestCommonRun proofA1 proofB1 then
        .fatal (TestFailure.stale (longestCommonRun proofA1 proofB1)).message
      else if linkable (longestCommonRun proofA1 proofA2) (longestCommonRun proofA1 proofB1)
          structuralFloor then
        .fatal (TestFailure.linked (longestCommonRun proofA1 proofA2)
          (longestCommonRun proofA1 proofB1)).message
      else .passes := by
  rw [testProofBytes]
  dsimp only
  split
  · rfl
  · next hdiff =>
      obtain ⟨hfound, hlinkable⟩ := control_fires ha hb (not_lt.mp hdiff)
      rw [if_neg (by omega), if_neg (not_lt.mpr hfound), if_neg (not_not.mpr hlinkable)]

/-- **What a test that passes has ruled out.** The search finds the longest common run, up to the
cap. On proofs that are long enough the control never stops the test: it passes exactly when
proofs of different credentials share no run of more than 10 bytes, and proofs of one credential
none that is longer by more than 2 than all of these and than 8. -/
theorem test_passes_iff (proofA1 proofA2 proofB1 : List UInt8)
    (ha : 1234 + tagLen ≤ proofA1.length) (hb : 5000 + tagLen ≤ proofB1.length) :
    (∀ a b, IsGreatest {k | k ∈ common a b ∧ k ≤ maxRunProbe} (longestCommonRun a b)) ∧
    (testProofBytes proofA1 proofA2 proofB1 = .passes ↔
      ∃ diffRun, IsGreatest (common proofA1 proofB1) diffRun ∧ diffRun ≤ 10 ∧
        ∀ k ∈ common proofA1 proofA2, k ≤ max diffRun 8 + 2) ∧
    (testProofBytes proofA1 proofA2 proofB1 ≠ .passes →
      ∃ failure : TestFailure, testProofBytes proofA1 proofA2 proofB1 = .fatal failure.message ∧
        ((∃ k ∈ common proofA1 proofB1, failure = .stale k) ∨
          ∃ k ∈ common proofA1 proofA2, ∃ d, failure = .linked k d)) := by
  rw [testProofBytes_eq proofA2 ha hb]
  have hsame := isGreatest_longestCommonRun proofA1 proofA2
  have hdiff := isGreatest_longestCommonRun proofA1 proofB1
  have hcap : maxRunProbe = 64 := rfl
  refine ⟨isGreatest_longestCommonRun, ?_, ?_⟩
  · constructor
    · intro h
      split at h
      · cases h
      next hstale =>
      split at h
      · cases h
      next hlinked =>
      rw [linkable_iff, not_lt, structuralFloor, noiseMargin] at hlinked
      rw [not_lt, structuralFloor, noiseMargin] at hstale
      have hall := (longestCommonRun_le_iff (by omega)).mp hstale
      refine ⟨longestCommonRun proofA1 proofB1, ⟨hdiff.1.1, fun k hk => ?_⟩, hstale, ?_⟩
      · exact hdiff.2 ⟨hk, (hall k hk).trans (by omega)⟩
      · exact (longestCommonRun_le_iff (by omega)).mp hlinked
    · rintro ⟨diffRun, hgreatest, hten, hruns⟩
      have hrun : longestCommonRun proofA1 proofB1 = diffRun := by
        refine le_antisymm (hgreatest.2 hdiff.1.1) (hdiff.2 ⟨hgreatest.1, by omega⟩)
      have hle := (longestCommonRun_le_iff (by omega)).mpr hruns
      rw [hrun, if_neg (by rw [structuralFloor, noiseMargin]; omega), if_neg]
      rw [linkable_iff, structuralFloor, noiseMargin]
      omega
  · intro h
    split at h
    · next hstale =>
        rw [if_pos hstale]
        exact ⟨_, rfl, Or.inl ⟨_, hdiff.1.1, rfl⟩⟩
    next hstale =>
    split at h
    · next hlinked =>
        rw [if_neg hstale, if_pos hlinked]
        exact ⟨_, rfl, Or.inr ⟨_, hsame.1.1, _, rfl⟩⟩
    · exact absurd rfl h

/-- A proof that ends in zeros, and holds another byte before them. -/
def proofWithTail (y : UInt8) (m zeros : ℕ) : List UInt8 :=
  List.replicate m y ++ List.replicate zeros 0

/-- Fewer zeros end more zeros. -/
theorem replicate_suffix {k n : ℕ} (h : k ≤ n) :
    List.replicate k (0 : UInt8) <:+ List.replicate n 0 :=
  ⟨List.replicate (n - k) 0, by rw [List.replicate_append_replicate, Nat.sub_add_cancel h]⟩

/-- What such a proof shares with one of zeros is its end. -/
theorem mem_common_proofWithTail {y : UInt8} (hne : y ≠ 0) {n m zeros k : ℕ} (hn : zeros ≤ n) :
    k ∈ common (List.replicate n 0) (proofWithTail y m zeros) ↔ k ≤ zeros := by
  constructor
  · rintro ⟨run, rfl, hzeros, hrun⟩
    have hall : ∀ b ∈ run, 0 = b := fun b hb =>
      (List.eq_of_mem_replicate (hzeros.subset hb)).symm
    have hcount := hrun.sublist.count_le 0
    rwa [List.count_eq_length.mpr hall, proofWithTail, List.count_append,
      List.count_replicate, List.count_replicate_self, if_neg (by simpa using hne),
      Nat.zero_add] at hcount
  · intro hk
    refine ⟨List.replicate k 0, List.length_replicate, ?_, ?_⟩
    · exact (replicate_suffix (hk.trans hn)).isInfix
    · exact (replicate_suffix hk).isInfix.trans (List.suffix_append _ _).isInfix

/-- Three bytes in common with the other credential, five between the two presentations, and the
test passes; with eleven between them it does not. -/
theorem test_passes_iff_sampleProofs :
    longestCommonRun (List.replicate 1250 0) (proofWithTail 2 5013 3) = 3 ∧
      testProofBytes (List.replicate 1250 0) (proofWithTail 1 1245 5)
        (proofWithTail 2 5013 3) = .passes ∧
      ∃ failure : TestFailure, testProofBytes (List.replicate 1250 0) (proofWithTail 1 1239 11)
        (proofWithTail 2 5013 3) = .fatal failure.message := by
  have hlength : 5000 + tagLen ≤ (proofWithTail 2 5013 3).length := by
    rw [proofWithTail, List.length_append, List.length_replicate, List.length_replicate, tagLen]
  have hzeros : 1234 + tagLen ≤ (List.replicate 1250 (0 : UInt8)).length := by
    rw [List.length_replicate, tagLen]
  have hshared (k : ℕ) : k ∈ common (List.replicate 1250 0) (proofWithTail 2 5013 3) ↔ k ≤ 3 :=
    mem_common_proofWithTail (by decide) (by omega)
  have hdiff : IsGreatest (common (List.replicate 1250 0) (proofWithTail 2 5013 3)) 3 :=
    ⟨(hshared 3).mpr le_rfl, fun k hk => (hshared k).mp hk⟩
  obtain ⟨hsearch, hpasses, -⟩ := test_passes_iff (List.replicate 1250 0)
    (proofWithTail 1 1245 5) (proofWithTail 2 5013 3) hzeros hlength
  obtain ⟨-, hlinked, hfails⟩ := test_passes_iff (List.replicate 1250 0)
    (proofWithTail 1 1239 11) (proofWithTail 2 5013 3) hzeros hlength
  refine ⟨?_, ?_, ?_⟩
  · have hfound := hsearch (List.replicate 1250 0) (proofWithTail 2 5013 3)
    exact le_antisymm (hdiff.2 hfound.1.1) (hfound.2 ⟨hdiff.1, by decide⟩)
  · refine hpasses.mpr ⟨3, hdiff, by omega, fun k hk => ?_⟩
    have hfive := (mem_common_proofWithTail (by decide) (by omega)).mp hk
    omega
  · refine (hfails fun h => ?_).imp fun failure h => h.1
    obtain ⟨diffRun, hgreatest, -, hruns⟩ := hlinked.mp h
    obtain rfl := hgreatest.unique hdiff
    have heleven := hruns 11 ((mem_common_proofWithTail (by decide) (by omega)).mpr le_rfl)
    omega

end Fixtures

end EightEen
