import EightEen.Answering
import EightEen.Js.Expiring
import EightEen.NonceStore
import Mathlib.Data.Int.ConditionallyCompleteOrder

/-!
# The Spent Set

`InMemoryNonceStore.spend` of `src/challenge.js` once more, over any clock and any
lifetimes: the ideal it refines is a log of the successful spends in which nothing is ever
deleted. The map and the log agree on the spends that still count, which a sweep cannot
touch.

## Main results

* `spent_set_refines`: the map answers as the log does, a spent key is refused through its
  lifetime, and after a successful spend the map is small or holds nothing that has run out.
* `inMemoryNonceStore_keepsContract`: the in-memory store keeps the contract, sweeps included.
-/

open Js Answering

namespace EightEen

section SpentSet

variable {T L : Type} [LinearOrder T] [HAdd T L T]

/-- A call `spend(nonceKey, ttlMs)`, with the store's own reading of the clock. -/
structure SpendCall (T L : Type) where
  nonceKey : String
  ttlMs : L
  now : T

/-- `now + ttlMs`: the last moment at which the nonce is remembered. -/
def SpendCall.through (c : SpendCall T L) : T :=
  c.now + c.ttlMs

/-- `existing !== undefined && existing >= now`. -/
def isSpentAt (seen : OrderedMap String T) (nonceKey : String) (now : T) : Bool :=
  match seen.get nonceKey with
  | some existing => existing ≥ now
  | none => false

/-- The opportunistic sweep, which deletes what is strictly past. -/
def sweepAt (seen : OrderedMap String T) (now : T) : OrderedMap String T :=
  if seen.size > 1024 then seen.retain fun _ exp => ¬exp < now else seen

/-- `InMemoryNonceStore.spend`, over any clock `T`, any lifetimes `L` and any way to add
them, rounded or not. -/
def InMemoryNonceStore.spendAt (seen : OrderedMap String T) (c : SpendCall T L) :
    Bool × OrderedMap String T :=
  if isSpentAt seen c.nonceKey c.now then (false, seen)
  else (true, sweepAt (seen.set c.nonceKey (c.now + c.ttlMs)) c.now)

/-! ### The ideal store -/

/-- The latest successful spend of a key; the log has the latest first. -/
def latest (log : List (SpendCall T L)) (nonceKey : String) : Option (SpendCall T L) :=
  log.find? fun s => s.nonceKey = nonceKey

/-- The store that never deletes anything: a key is spent as long as the latest successful
spend of it lasts. -/
def idealSpend (log : List (SpendCall T L)) (c : SpendCall T L) :
    Bool × List (SpendCall T L) :=
  match latest log c.nonceKey with
  | some s => if c.now ≤ s.now + s.ttlMs then (false, log) else (true, c :: log)
  | none => (true, c :: log)

/-- The key is spent at this time. -/
def SpentAt (log : List (SpendCall T L)) (now : T) (nonceKey : String) : Prop :=
  ∃ s, latest log nonceKey = some s ∧ now ≤ s.through

theorem idealSpend_of_spent {log : List (SpendCall T L)} {c : SpendCall T L}
    (h : SpentAt log c.now c.nonceKey) : idealSpend log c = (false, log) := by
  obtain ⟨s, hlatest, hle⟩ := h
  rw [idealSpend, hlatest]
  exact if_pos hle

theorem idealSpend_of_not_spent {log : List (SpendCall T L)} {c : SpendCall T L}
    (h : ¬SpentAt log c.now c.nonceKey) : idealSpend log c = (true, c :: log) := by
  rw [idealSpend]
  cases hlatest : latest log c.nonceKey with
  | none => rfl
  | some s => exact if_neg fun hle => h ⟨s, hlatest, hle⟩

omit [LinearOrder T] [HAdd T L T] in
theorem latest_cons (log : List (SpendCall T L)) (c : SpendCall T L) (nonceKey : String) :
    latest (c :: log) nonceKey = if c.nonceKey = nonceKey then some c else latest log nonceKey := by
  rw [latest, List.find?_cons]
  by_cases h : c.nonceKey = nonceKey <;> simp [h, latest]

/-- **A spent key stays spent** through its lifetime, whatever is spent meanwhile. -/
theorem latest_after {log : List (SpendCall T L)} {s : SpendCall T L} {nonceKey : String}
    (hlatest : latest log nonceKey = some s) {calls : List (SpendCall T L)}
    (hcalls : ∀ c ∈ calls, c.now ≤ s.through) :
    latest (after idealSpend log calls) nonceKey = some s := by
  induction calls generalizing log with
  | nil => exact hlatest
  | cons c calls ih =>
      rw [after_cons]
      refine ih ?_ fun d hd => hcalls d (List.mem_cons_of_mem _ hd)
      by_cases hspent : SpentAt log c.now c.nonceKey
      · rwa [idealSpend_of_spent hspent]
      · have hkey : c.nonceKey ≠ nonceKey := by
          rintro rfl
          exact hspent ⟨s, hlatest, hcalls c List.mem_cons_self⟩
        rwa [idealSpend_of_not_spent hspent, latest_cons, if_neg hkey]

/-! ### The refinement -/

/-- An expiry counts through its own moment. -/
def spentLifespan : Lifespan T T where
  alive now through := decide (now ≤ through)
  fades hle h := decide_eq_true (hle.trans (of_decide_eq_true h))

/-- The map and the log hold the same spends, of those that still count. -/
def SameSpent (now : T) (seen : OrderedMap String T) (log : List (SpendCall T L)) : Prop :=
  ∀ key, seen.live spentLifespan now key =
    ((latest log key).map SpendCall.through).filter fun through => decide (now ≤ through)

theorem SameSpent.later {now later : T} {seen : OrderedMap String T}
    {log : List (SpendCall T L)} (hle : now ≤ later) (h : SameSpent now seen log) :
    SameSpent later seen log := by
  intro key
  rw [OrderedMap.live_later _ _ hle, h key, Option.filter_filter]
  congr 1
  funext through
  by_cases hlater : later ≤ through
  · simp [spentLifespan, hlater, hle.trans hlater]
  · simp [spentLifespan, hlater]

/-- The lookup of the map finds a key that is spent. -/
theorem SameSpent.isSpentAt_iff {now : T} {seen : OrderedMap String T}
    {log : List (SpendCall T L)} (h : SameSpent now seen log) (key : String) :
    isSpentAt seen key now = true ↔ SpentAt log now key := by
  have hlive : (∃ v, seen.live spentLifespan now key = some v) ↔ SpentAt log now key := by
    simp [h key, SpentAt, Option.filter_eq_some_iff]
  rw [← hlive, isSpentAt]
  cases hget : seen.get key with
  | none => simp [OrderedMap.live, hget]
  | some existing => simp [OrderedMap.live_eq_some_iff, hget, spentLifespan]

/-- **One spend**: the same answer, and again the same spends. -/
theorem SameSpent.spend {seen : OrderedMap String T} {log : List (SpendCall T L)}
    {c : SpendCall T L} (h : SameSpent c.now seen log) :
    (InMemoryNonceStore.spendAt seen c).1 = (idealSpend log c).1 ∧
      SameSpent c.now (InMemoryNonceStore.spendAt seen c).2 (idealSpend log c).2 := by
  rw [InMemoryNonceStore.spendAt]
  by_cases hspent : SpentAt log c.now c.nonceKey
  · rw [if_pos ((h.isSpentAt_iff _).mpr hspent), idealSpend_of_spent hspent]
    exact ⟨rfl, h⟩
  rw [if_neg (mt (h.isSpentAt_iff _).mp hspent), idealSpend_of_not_spent hspent]
  refine ⟨rfl, fun key => ?_⟩
  have hset : (seen.set c.nonceKey (c.now + c.ttlMs)).live spentLifespan c.now key =
      ((latest (c :: log) key).map SpendCall.through).filter
        fun through => decide (c.now ≤ through) := by
    rw [OrderedMap.live_set, latest_cons, h key]
    by_cases hkey : c.nonceKey = key
    · rw [if_pos hkey, if_pos hkey]
      rfl
    · rw [if_neg hkey, if_neg hkey]
  rw [sweepAt]
  split
  · rw [OrderedMap.live_retain _ _ (fun _ through halive => ?_), hset]
    simpa [spentLifespan] using halive
  · exact hset

/-- After a successful spend the map is small, or nothing in it has run out. -/
theorem spendAt_small_or_unexpired {seen : OrderedMap String T} {c : SpendCall T L}
    (hfresh : (InMemoryNonceStore.spendAt seen c).1 = true) :
    (InMemoryNonceStore.spendAt seen c).2.size ≤ 1024 ∨
      ∀ e ∈ (InMemoryNonceStore.spendAt seen c).2.entries, c.now ≤ e.2 := by
  rw [InMemoryNonceStore.spendAt] at hfresh ⊢
  split
  · next hspent => simp [hspent] at hfresh
  rw [sweepAt]
  split
  · refine Or.inr fun e he => ?_
    simpa using (List.mem_filter.mp he).2
  · next hsmall => exact Or.inl (not_lt.mp hsmall)

/-- Nothing is spent at first. -/
theorem sameSpent_empty (now : T) :
    SameSpent (L := L) now OrderedMap.empty [] :=
  fun _ => rfl

/-- After any calls in time order, the map and the log hold the same spends at the next one. -/
theorem sameSpent_at {before rest : List (SpendCall T L)} {c : SpendCall T L}
    (hclock : InOrder SpendCall.now (before ++ c :: rest)) :
    SameSpent c.now (after InMemoryNonceStore.spendAt OrderedMap.empty before)
      (after idealSpend [] before) := by
  have hmeets : Meets InMemoryNonceStore.spendAt (fun _ _ => True) OrderedMap.empty
      (before ++ c :: rest) := meets_of_forall fun _ _ => trivial
  exact related_at (fun hle h => h.later hle) (fun _ h => h.spend.2) hclock hmeets
    fun b _ => sameSpent_empty b.now

/-- **The in-memory spent set refines the ideal one, and its sweep is invisible.** -/
theorem spent_set_refines (calls : List (SpendCall T L))
    (hclock : InOrder SpendCall.now calls) :
    answers InMemoryNonceStore.spendAt OrderedMap.empty calls = answers idealSpend [] calls ∧
      (∀ before c between d rest, calls = before ++ c :: between ++ d :: rest →
        (InMemoryNonceStore.spendAt
          (after InMemoryNonceStore.spendAt OrderedMap.empty before) c).1 = true →
        d.nonceKey = c.nonceKey → d.now ≤ c.now + c.ttlMs →
        (InMemoryNonceStore.spendAt
          (after InMemoryNonceStore.spendAt OrderedMap.empty (before ++ c :: between)) d).1 =
            false) ∧
      ∀ before c rest, calls = before ++ c :: rest →
        (InMemoryNonceStore.spendAt
          (after InMemoryNonceStore.spendAt OrderedMap.empty before) c).1 = true →
        (InMemoryNonceStore.spendAt
          (after InMemoryNonceStore.spendAt OrderedMap.empty before) c).2.size ≤ 1024 ∨
        ∀ e ∈ (InMemoryNonceStore.spendAt
          (after InMemoryNonceStore.spendAt OrderedMap.empty before) c).2.entries,
          c.now ≤ e.2 := by
  have hmeets : Meets InMemoryNonceStore.spendAt (fun _ _ => True) OrderedMap.empty calls :=
    meets_of_forall fun _ _ => trivial
  have hsame : ∀ before c rest, calls = before ++ c :: rest →
      SameSpent c.now (after InMemoryNonceStore.spendAt OrderedMap.empty before)
        (after idealSpend [] before) := by
    rintro before c rest rfl
    exact sameSpent_at hclock
  refine ⟨?_, ?_, ?_⟩
  · exact simulation (fun hle h => h.later hle) (fun _ h => h.spend) hclock hmeets
      fun b _ => sameSpent_empty b.now
  · rintro before c between d rest heq hfresh hkey hle
    rw [(hsame (before ++ c :: between) d rest heq).spend.1]
    rw [(hsame before c (between ++ d :: rest) (by rw [heq]; simp)).spend.1] at hfresh
    -- The spend of `c` is in the log, and none until `d` takes its place.
    have hspent : latest (after idealSpend [] (before ++ c :: between)) c.nonceKey = some c := by
      have hnew : ¬SpentAt (after idealSpend [] before) c.now c.nonceKey := by
        intro h
        rw [idealSpend_of_spent h] at hfresh
        cases hfresh
      rw [after_append, after_cons, idealSpend_of_not_spent hnew]
      refine latest_after (by rw [latest_cons, if_pos rfl]) fun b hb => ?_
      rw [heq, InOrder, List.append_assoc, List.pairwise_append] at hclock
      have hbd : b.now ≤ d.now := by
        have htail := (List.pairwise_cons.mp hclock.2.1).2
        exact (List.pairwise_append.mp htail).2.2 b hb d List.mem_cons_self
      exact hbd.trans hle
    rw [idealSpend_of_spent ⟨c, hkey ▸ hspent, hle⟩]
  · rintro before c rest - hfresh
    exact spendAt_small_or_unexpired hfresh

end SpentSet

/-- One key spent twice within its lifetime, and once more after it. -/
theorem spent_set_refines_once :
    InOrder SpendCall.now [(⟨"k", 5, 0⟩ : SpendCall ℤ ℤ), ⟨"k", 5, 5⟩, ⟨"k", 5, 6⟩] ∧
      answers InMemoryNonceStore.spendAt OrderedMap.empty
        [(⟨"k", 5, 0⟩ : SpendCall ℤ ℤ), ⟨"k", 5, 5⟩, ⟨"k", 5, 6⟩] = [true, false, true] := by
  have hclock : InOrder SpendCall.now
      [(⟨"k", 5, 0⟩ : SpendCall ℤ ℤ), ⟨"k", 5, 5⟩, ⟨"k", 5, 6⟩] := by
    simp [InOrder]
  exact ⟨hclock, (spent_set_refines _ hclock).1.trans (by decide)⟩

/-! ### The contract of a store -/

/-- A spend of the contract, as a call. -/
def callOf (s : Spend) : SpendCall ℤ ℤ where
  nonceKey := s.request.nonceKey
  ttlMs := s.request.ttlMs
  now := s.time

/-- What a memory remembers, of a log of spends. -/
def memoryOf (log : List (SpendCall ℤ ℤ)) : Memory :=
  fun key => (latest log key).map SpendCall.through

/-- The store with whole milliseconds is the one of the contract. -/
theorem inMemoryNonceStore_spend_eq_spendAt (seen : OrderedMap String ℤ) (s : Spend) :
    InMemoryNonceStore.spend seen s = InMemoryNonceStore.spendAt seen (callOf s) := by
  have hspent : isSpent seen s.request.nonceKey s.time =
      isSpentAt seen s.request.nonceKey s.time := by
    rw [isSpent, isSpentAt]
    cases seen.get s.request.nonceKey <;> simp
  have hsweep : ∀ seen : OrderedMap String ℤ, sweep seen s.time = sweepAt seen s.time := by
    intro seen
    rw [sweep, sweepAt]
  rw [InMemoryNonceStore.spend, InMemoryNonceStore.spendAt, callOf, hspent, hsweep]

/-- And so it is after any sequence of spends. -/
theorem inMemoryNonceStore_after_eq (spends : List Spend) :
    inMemoryNonceStore.after spends =
      after InMemoryNonceStore.spendAt OrderedMap.empty (spends.map callOf) := by
  induction spends using List.reverseRecOn with
  | nil => rfl
  | append_singleton spends s ih =>
      rw [NonceStore.after_concat, List.map_append, after_append, ← ih]
      exact congrArg Prod.snd (inMemoryNonceStore_spend_eq_spendAt _ s)

/-- **The memory of the contract is the ideal log**, spend by spend. -/
theorem memoryOf_spend (log : List (SpendCall ℤ ℤ)) (s : Spend) :
    (memoryOf log).spend s =
      ((idealSpend log (callOf s)).1, memoryOf (idealSpend log (callOf s)).2) := by
  have hiff : (memoryOf log).remembers s.request.nonceKey s.time = true ↔
      SpentAt log s.time s.request.nonceKey := by
    rw [Memory.remembers, memoryOf]
    cases hlatest : latest log s.request.nonceKey with
    | none => simp [SpentAt, hlatest]
    | some c => simp [SpentAt, hlatest]
  by_cases hspent : SpentAt log s.time s.request.nonceKey
  · rw [Memory.spend_of_remembered (hiff.mpr hspent), idealSpend_of_spent hspent]
  · have hforgotten := Bool.eq_false_iff.mpr (mt hiff.mp hspent)
    rw [Memory.spend_of_forgotten hforgotten, idealSpend_of_not_spent hspent, Prod.mk.injEq]
    refine ⟨rfl, funext fun key => ?_⟩
    have hcall : (callOf s).nonceKey = s.request.nonceKey := rfl
    rw [memoryOf, latest_cons, Function.update_apply, hcall]
    by_cases hkey : s.request.nonceKey = key
    · rw [if_pos hkey.symm, if_pos hkey]
      rfl
    · rw [if_neg (Ne.symm hkey), if_neg hkey, memoryOf]

/-- The memory after a sequence of spends. -/
theorem memory_after_eq (spends : List Spend) :
    Memory.after spends = memoryOf (after idealSpend [] (spends.map callOf)) := by
  induction spends using List.reverseRecOn with
  | nil => rfl
  | append_singleton spends s ih =>
      rw [Memory.after_concat, ih, memoryOf_spend, List.map_append, after_append]
      rfl

/-- **The in-memory store keeps the contract**: it answers as the ideal log does, and so does the
memory. -/
theorem inMemoryNonceStore_keepsContract : inMemoryNonceStore.KeepsContract := by
  intro spends s h
  have hclock : InOrder SpendCall.now (spends.map callOf ++ callOf s :: []) := by
    rw [← List.map_singleton, ← List.map_append]
    exact List.pairwise_map.mpr h.1
  rw [inMemoryNonceStore_after_eq, memory_after_eq, memoryOf_spend]
  exact (congrArg Prod.fst (inMemoryNonceStore_spend_eq_spendAt _ s)).trans
    (sameSpent_at hclock).spend.1

end EightEen
