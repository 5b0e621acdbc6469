import Mathlib.Data.List.Infix
import Mathlib.Order.Bounds.Basic
import Mathlib.Data.Set.Basic

/-!
# Common Runs

A run is a stretch of adjacent elements, an infix of a list. Two lists have a set of lengths
of common runs, which holds every length below one that it holds. So the longest one is found
by bisection, with a probe that looks for a run of one length among the windows of both.

## Main results

* `le_bisect_iff`: bisection over a property that small numbers inherit.
* `mem_windows_iff`: the windows of a length are the runs of that length.
* `isGreatest_bisect`: bisection with a probe for common runs, up to a cap.
-/

namespace Runs

/-! ### Bisection -/

/-- The last number from `lo` on, up to `hi`, that passes the probe: the upper half stays while
its lower end passes. -/
def bisect (probe : ℕ → Bool) (lo hi : ℕ) : ℕ :=
  if lo < hi then
    if probe ((lo + hi + 1) / 2) then bisect probe ((lo + hi + 1) / 2) hi
    else bisect probe lo ((lo + hi + 1) / 2 - 1)
  else lo
termination_by hi - lo

/-- The property passes from a number to the positive numbers below it. -/
def Inherited (probe : ℕ → Bool) : Prop :=
  ∀ {j k : ℕ}, 0 < j → j ≤ k → probe k = true → probe j = true

theorem bisect_mem_Icc (probe : ℕ → Bool) {lo hi : ℕ} (h : lo ≤ hi) :
    lo ≤ bisect probe lo hi ∧ bisect probe lo hi ≤ hi := by
  induction lo, hi using bisect.induct probe with
  | case1 lo hi hlt hprobe ih =>
      rw [bisect, if_pos hlt, if_pos hprobe]
      have hmid := ih (by omega)
      omega
  | case2 lo hi hlt hprobe ih =>
      rw [bisect, if_pos hlt, if_neg hprobe]
      have hmid := ih (by omega)
      omega
  | case3 lo hi hlt =>
      rw [bisect, if_neg hlt]
      omega

/-- **Bisection finds the last number that passes**: what is above the lower end and not above
the upper one passes exactly when it is not above the result. -/
theorem le_bisect_iff {probe : ℕ → Bool} (hprobe : Inherited probe) {lo hi k : ℕ}
    (hlo : lo < k) (hhi : k ≤ hi) : k ≤ bisect probe lo hi ↔ probe k = true := by
  induction lo, hi using bisect.induct probe with
  | case1 lo hi hlt hmid ih =>
      rw [bisect, if_pos hlt, if_pos hmid]
      rcases Nat.lt_or_ge ((lo + hi + 1) / 2) k with hk | hk
      · exact ih hk hhi
      · -- Below the middle everything passes.
        have hle := (bisect_mem_Icc probe (show (lo + hi + 1) / 2 ≤ hi by omega)).1
        exact iff_of_true (by omega) (hprobe (by omega) hk hmid)
  | case2 lo hi hlt hmid ih =>
      rw [bisect, if_pos hlt, if_neg hmid]
      rcases Nat.lt_or_ge k ((lo + hi + 1) / 2) with hk | hk
      · exact ih hlo (by omega)
      · -- From the middle on nothing passes.
        have hle := (bisect_mem_Icc probe (show lo ≤ (lo + hi + 1) / 2 - 1 by omega)).2
        exact iff_of_false (by omega) fun h => hmid (hprobe (by omega) hk h)
  | case3 lo hi hlt => omega

/-! ### Windows -/

variable {α : Type}

/-- The runs of length `k`, from the first to the last. -/
def windows (k : ℕ) (xs : List α) : List (List α) :=
  (List.range (xs.length + 1 - k)).map fun i => (xs.drop i).take k

/-- **The windows are the runs of their length.** -/
theorem mem_windows_iff {k : ℕ} {xs run : List α} :
    run ∈ windows k xs ↔ run.length = k ∧ run <:+: xs := by
  simp only [windows, List.mem_map, List.mem_range]
  constructor
  · rintro ⟨i, hi, rfl⟩
    refine ⟨by rw [List.length_take, List.length_drop]; omega, ?_⟩
    exact (List.take_prefix k _).isInfix.trans (List.drop_suffix i xs).isInfix
  · rintro ⟨rfl, before, after, rfl⟩
    refine ⟨before.length, ?_, ?_⟩
    · simp only [List.length_append]
      omega
    · rw [List.append_assoc, List.drop_left, List.take_left]

/-! ### Common runs -/

/-- The lengths of the runs that two lists share. -/
def common (xs ys : List α) : Set ℕ :=
  {k | ∃ run : List α, run.length = k ∧ run <:+: xs ∧ run <:+: ys}

theorem zero_mem_common (xs ys : List α) : 0 ∈ common xs ys :=
  ⟨[], rfl, List.nil_infix, List.nil_infix⟩

/-- A common run holds shorter ones. -/
theorem common_of_le {xs ys : List α} {j k : ℕ} (hle : j ≤ k) (h : k ∈ common xs ys) :
    j ∈ common xs ys := by
  obtain ⟨run, rfl, hxs, hys⟩ := h
  have hprefix := (List.take_prefix j run).isInfix
  exact ⟨run.take j, by rw [List.length_take]; omega, hprefix.trans hxs, hprefix.trans hys⟩

/-- No run is longer than the list that it is in. -/
theorem le_length_of_common {xs ys : List α} {k : ℕ} (h : k ∈ common xs ys) :
    k ≤ xs.length ∧ k ≤ ys.length := by
  obtain ⟨run, rfl, hxs, hys⟩ := h
  exact ⟨hxs.length_le, hys.length_le⟩

/-- **The longest common run up to a cap**, by bisection. -/
theorem isGreatest_bisect {xs ys : List α} {probe : ℕ → Bool} {cap hi : ℕ}
    (hprobe : ∀ k, probe k = true ↔ 0 < k ∧ k ∈ common xs ys)
    (hcap : ∀ k ∈ common xs ys, k ≤ cap ↔ k ≤ hi) :
    IsGreatest {k | k ∈ common xs ys ∧ k ≤ cap} (bisect probe 0 hi) := by
  have hinherited : Inherited probe := by
    intro j k hj hle hk
    exact (hprobe j).mpr ⟨hj, common_of_le hle ((hprobe k).mp hk).2⟩
  have hle := (bisect_mem_Icc probe (Nat.zero_le hi)).2
  constructor
  · rcases Nat.eq_zero_or_pos (bisect probe 0 hi) with hzero | hpos
    · rw [hzero]
      exact ⟨zero_mem_common xs ys, Nat.zero_le cap⟩
    · have hmem := (hprobe _).mp ((le_bisect_iff hinherited hpos hle).mp le_rfl)
      exact ⟨hmem.2, (hcap _ hmem.2).mpr hle⟩
  · rintro k ⟨hk, hkcap⟩
    rcases Nat.eq_zero_or_pos k with rfl | hpos
    · exact Nat.zero_le _
    · exact (le_bisect_iff hinherited hpos ((hcap k hk).mp hkcap)).mpr ((hprobe k).mpr ⟨hpos, hk⟩)

end Runs
