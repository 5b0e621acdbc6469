import EightEen.Gate
import EightEen.Js.OrderedMap

/-!
# The Rate Limiter

`createRateLimiter` of `src/gate.js`: a fixed window for each client key, in a map that
sweeps when it is full and sheds its older half when sweeping is not enough. A limit need not
be a whole number: a window grants as many requests as its ceiling. Times are exact.

## Main results

* `size_allow_le`: the map never outgrows its cap.
-/

open Js

namespace EightEen

/-- The window of a key. -/
structure Window where
  count : ℕ
  resetAt : ℚ

/-- `now >= resetAt`. -/
def Window.expired (w : Window) (now : ℤ) : Bool :=
  w.resetAt ≤ (now : ℚ)

/-- `hits`. -/
abbrev Hits := OrderedMap String Window

/-- `RL_HARD_CAP`. -/
def rlHardCap : ℕ := 50000

/-- The room made before a window is opened: a full map loses what has expired, and then, if
it is still full, its older half. -/
def makeRoom (hits : Hits) (now : ℤ) : Hits :=
  if rlHardCap ≤ hits.size then
    let swept := hits.retain fun _ w => !w.expired now
    if rlHardCap ≤ swept.size then swept.dropFirst ((swept.size + 1) / 2) else swept
  else hits

/-- A new window for the key. The sum is exact, where the source adds Numbers: clock readings are
whole milliseconds, and a window of a whole number of them is not rounded. -/
def openWindow (cfg : RateLimit) (hits : Hits) (key : String) (now : ℤ) : Hits :=
  (makeRoom hits now).set key { count := 1, resetAt := now + cfg.windowMs.val }

/-- `allow(key, now)`, with the map it leaves. -/
def allow (cfg : RateLimit) (hits : Hits) (key : String) (now : ℤ) : Bool × Hits :=
  match hits.get key with
  | none => (true, openWindow cfg hits key now)
  | some w =>
      if w.expired now then (true, openWindow cfg hits key now)
      else if cfg.limit.val ≤ w.count then (false, hits)
      else (true, hits.set key { w with count := w.count + 1 })

theorem size_makeRoom_lt {hits : Hits} (h : hits.size ≤ rlHardCap) (now : ℤ) :
    (makeRoom hits now).size < rlHardCap := by
  have hcap : rlHardCap = 50000 := rfl
  rw [makeRoom]
  split
  · dsimp only
    have hswept := OrderedMap.size_retain_le (fun _ (w : Window) => !w.expired now) hits
    split
    · rw [OrderedMap.size_dropFirst]
      omega
    · omega
  · omega

/-- Counting a request of a window that is open adds no entry. -/
theorem size_set_of_get {hits : Hits} {key : String} {w w' : Window}
    (h : hits.get key = some w) : (hits.set key w').size = hits.size := by
  have hmem : key ∈ hits.entries.map Prod.fst := by
    by_contra hno
    rw [OrderedMap.get, OrderedMap.find_eq_none_of_not_mem hno] at h
    cases h
  have hkeys := congrArg List.length (OrderedMap.map_fst_put key w' hits.entries)
  rw [if_pos hmem, List.length_map, List.length_map] at hkeys
  exact hkeys

/-- **The map never outgrows its cap.** -/
theorem size_allow_le (cfg : RateLimit) {hits : Hits} (key : String) (now : ℤ)
    (h : hits.size ≤ rlHardCap) : (allow cfg hits key now).2.size ≤ rlHardCap := by
  have hopen : (openWindow cfg hits key now).size ≤ rlHardCap :=
    (OrderedMap.size_set_le _ _ _).trans (size_makeRoom_lt h now)
  rw [allow]
  split
  · exact hopen
  · next w hw =>
      split
      · exact hopen
      · split
        · exact h
        · exact (size_set_of_get hw).le.trans h

end EightEen
