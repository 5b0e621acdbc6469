import EightEen.Challenge
import EightEen.Js.OrderedMap

/-!
# The Spent-Nonce Store

The contract of the adopter's store, and the in-memory store of `src/challenge.js` that
keeps it. The contract is stated over an ideal `Memory` that forgets nothing: a spend
answers `true` and remembers the key through its lifetime, inclusive, unless the key is
remembered, and then it answers `false`. A store keeps the contract when it answers every
orderly sequence of spends as the memory does (`KeepsContract`).

A log of spends with their answers is what a run leaves behind. `Recorded` says that the
answers are those of the memory, and everything that the single-use gate rests on is a
fact about recorded logs.

## Main results

* `NonceStore.KeepsContract`: what is asked of a store; `EightEen.SpentSet` proves it of the
  in-memory one.
* `freshOf_of_prompt`, `two_le_length_freshOf`: the spends of a key succeed exactly once,
  unless one of them comes after the first one's lifetime has run out, and then at least
  twice.
-/

open Js

namespace EightEen

/-! ### The contract -/

/-- An executed call of `spend`, with the clock reading of the store. -/
structure Spend where
  request : SpendRequest
  time : ℤ

/-- Through when each key is remembered. -/
abbrev Memory := String → Option ℤ

namespace Memory

/-- The key is remembered at this time. -/
def remembers (m : Memory) (key : String) (time : ℤ) : Bool :=
  match m key with
  | some through => time ≤ through
  | none => false

/-- `spend`, as the contract has it. -/
def spend (m : Memory) (s : Spend) : Bool × Memory :=
  if m.remembers s.request.nonceKey s.time then (false, m)
  else (true, Function.update m s.request.nonceKey (some (s.time + s.request.ttlMs)))

/-- The memory after a sequence of spends. -/
def after (spends : List Spend) : Memory :=
  spends.foldl (fun m s => (m.spend s).2) fun _ => none

/-- One more spend finds the memory that the others have left. -/
theorem after_concat (spends : List Spend) (s : Spend) :
    after (spends ++ [s]) = ((after spends).spend s).2 := by
  rw [after, List.foldl_append, ← after]
  rfl

/-- A key that is remembered is refused, and nothing changes. -/
theorem spend_of_remembered {m : Memory} {s : Spend}
    (h : m.remembers s.request.nonceKey s.time = true) : m.spend s = (false, m) := by
  rw [spend, if_pos h]

/-- A key that is not remembered is spent, and remembered through its lifetime. -/
theorem spend_of_forgotten {m : Memory} {s : Spend}
    (h : m.remembers s.request.nonceKey s.time = false) :
    m.spend s =
      (true, Function.update m s.request.nonceKey (some (s.time + s.request.ttlMs))) := by
  rw [spend, if_neg (by simp [h])]

/-- A spend leaves every other key as it was. -/
theorem spend_snd_of_ne (m : Memory) (s : Spend) {key : String} (h : s.request.nonceKey ≠ key) :
    (m.spend s).2 key = m key := by
  rw [spend]
  split
  · rfl
  · exact Function.update_of_ne (Ne.symm h) _ _

end Memory

/-- The times do not decrease and no lifetime is negative. -/
def Orderly (spends : List Spend) : Prop :=
  spends.Pairwise (fun a b => a.time ≤ b.time) ∧ ∀ s ∈ spends, 0 ≤ s.request.ttlMs

/-- All but the last of an orderly sequence of spends are orderly. -/
theorem Orderly.of_concat {spends : List Spend} {s : Spend} (h : Orderly (spends ++ [s])) :
    Orderly spends :=
  ⟨(List.pairwise_append.mp h.1).1, fun a ha => h.2 a (List.mem_append_left _ ha)⟩

/-- A store with one atomic operation. -/
structure NonceStore where
  State : Type
  empty : State
  spend : State → Spend → Bool × State

namespace NonceStore

/-- The store after a sequence of spends. -/
def after (S : NonceStore) (spends : List Spend) : S.State :=
  spends.foldl (fun s e => (S.spend s e).2) S.empty

/-- One more spend finds the store as the others have left it. -/
theorem after_concat (S : NonceStore) (spends : List Spend) (s : Spend) :
    S.after (spends ++ [s]) = (S.spend (S.after spends) s).2 := by
  rw [after, List.foldl_append, ← after]
  rfl

/-- **The contract**: the store answers every orderly sequence of spends as the memory
does. -/
def KeepsContract (S : NonceStore) : Prop :=
  ∀ spends s, Orderly (spends ++ [s]) →
    (S.spend (S.after spends) s).1 = ((Memory.after spends).spend s).1

end NonceStore

/-! ### The in-memory store -/

/-- `existing !== undefined && existing >= now`. -/
def isSpent (seen : OrderedMap String ℤ) (nonceKey : String) (now : ℤ) : Bool :=
  match seen.get nonceKey with
  | some existing => existing ≥ now
  | none => false

/-- The opportunistic sweep, which deletes what is strictly past. -/
def sweep (seen : OrderedMap String ℤ) (now : ℤ) : OrderedMap String ℤ :=
  if seen.size > 1024 then seen.retain fun _ exp => ¬exp < now else seen

/-- `InMemoryNonceStore.spend`, with `s.time` for its own `Date.now()`. -/
def InMemoryNonceStore.spend (seen : OrderedMap String ℤ) (s : Spend) :
    Bool × OrderedMap String ℤ :=
  if isSpent seen s.request.nonceKey s.time then (false, seen)
  else (true, sweep (seen.set s.request.nonceKey (s.time + s.request.ttlMs)) s.time)

/-- `InMemoryNonceStore`. -/
def inMemoryNonceStore : NonceStore where
  State := OrderedMap String ℤ
  empty := OrderedMap.empty
  spend := InMemoryNonceStore.spend

/-! ### Recorded logs -/

/-- A spend that reached the store, with the check that made it and the answer it got. -/
structure Arrival extends Spend where
  call : ℕ
  fresh : Bool

/-- The key that an arrival spends. -/
def Arrival.key (a : Arrival) : String :=
  a.request.nonceKey

/-- The spends of a log. -/
def spendsOf (log : List Arrival) : List Spend :=
  log.map Arrival.toSpend

/-- The spends of a log grow with it. -/
@[simp] theorem spendsOf_concat (log : List Arrival) (a : Arrival) :
    spendsOf (log ++ [a]) = spendsOf log ++ [a.toSpend] := by
  simp [spendsOf]

/-- The answers in the log are those of the memory. -/
inductive Recorded : List Arrival → Prop
  | nil : Recorded []
  | concat {log : List Arrival} {a : Arrival} (h : Recorded log)
      (answer : a.fresh = ((Memory.after (spendsOf log)).spend a.toSpend).1) :
      Recorded (log ++ [a])

/-- The last answer of a recorded log, and the log before it. -/
theorem Recorded.of_concat {log : List Arrival} {a : Arrival} (h : Recorded (log ++ [a])) :
    Recorded log ∧ a.fresh = ((Memory.after (spendsOf log)).spend a.toSpend).1 := by
  generalize hlog : log ++ [a] = whole at h
  cases h with
  | nil => exact absurd hlog (by simp)
  | concat hrec hanswer =>
      obtain ⟨rfl, hlast⟩ := List.append_inj' hlog rfl
      cases hlast
      exact ⟨hrec, hanswer⟩

/-- Any answer of a recorded log, and the log before it. -/
theorem Recorded.split {before after : List Arrival} {a : Arrival}
    (h : Recorded (before ++ a :: after)) :
    Recorded before ∧ a.fresh = ((Memory.after (spendsOf before)).spend a.toSpend).1 := by
  induction after using List.reverseRecOn with
  | nil => exact h.of_concat
  | append_singleton after b ih =>
      rw [← List.cons_append, ← List.append_assoc] at h
      exact ih h.of_concat.1

/-- The first spend of a key. -/
def firstOf (key : String) (log : List Arrival) : Option Arrival :=
  log.find? fun a => a.key = key

/-- The spends of a key that succeeded. -/
def freshOf (key : String) (log : List Arrival) : List Arrival :=
  log.filter fun a => a.fresh && a.key = key

/-- No spend of the key comes after the lifetime that the first one has brought to the
store. -/
def Prompt (key : String) (log : List Arrival) : Prop :=
  ∀ first, firstOf key log = some first →
    ∀ a ∈ log, a.key = key → a.time ≤ first.time + first.request.ttlMs

/-- The first arrival of a key stays the first, and a new one is that if there was none. -/
theorem firstOf_concat (key : String) (log : List Arrival) (a : Arrival) :
    firstOf key (log ++ [a]) =
      (firstOf key log).or (if a.key = key then some a else none) := by
  rw [firstOf, List.find?_append, ← firstOf, List.find?_singleton]
  by_cases h : a.key = key <;> simp [h]

/-- A log that is prompt up to its last arrival was prompt before it. -/
theorem Prompt.of_concat {key : String} {log : List Arrival} {a : Arrival}
    (h : Prompt key (log ++ [a])) : Prompt key log := by
  intro first hfirst b hb hkey
  refine h first ?_ b (List.mem_append_left _ hb) hkey
  rw [firstOf_concat, hfirst]
  rfl

/-- The fresh arrivals of a key grow by an arrival that is fresh and of that key. -/
theorem freshOf_concat (key : String) (log : List Arrival) (a : Arrival) :
    freshOf key (log ++ [a]) =
      freshOf key log ++ (if a.fresh = true ∧ a.key = key then [a] else []) := by
  rw [freshOf, List.filter_append, ← freshOf]
  by_cases h : a.fresh = true ∧ a.key = key
  · simp [h]
  · rw [if_neg h, List.filter_cons_of_neg (by simpa using h), List.filter_nil]

/-- What a log without a late spend leaves in the memory, and which of its spends
succeeded: the first one alone. -/
theorem after_of_prompt {key : String} {log : List Arrival} (hrec : Recorded log)
    (hprompt : Prompt key log) :
    Memory.after (spendsOf log) key =
        (firstOf key log).map (fun f => f.time + f.request.ttlMs) ∧
      freshOf key log = (firstOf key log).toList := by
  induction hrec with
  | nil => exact ⟨rfl, rfl⟩
  | @concat log a hrec hanswer ih =>
      obtain ⟨hmem, hfresh⟩ := ih hprompt.of_concat
      rw [spendsOf_concat, Memory.after_concat, firstOf_concat, freshOf_concat, hfresh]
      by_cases hkey : a.key = key
      swap
      · rw [if_neg hkey, if_neg (fun h => hkey h.2), Option.or_none, List.append_nil,
          Memory.spend_snd_of_ne _ _ hkey]
        exact ⟨hmem, rfl⟩
      subst hkey
      have hremembers : (Memory.after (spendsOf log)).remembers a.key a.time =
          (firstOf a.key log).isSome := by
        rw [Memory.remembers, hmem]
        cases hfirst : firstOf a.key log with
        | none => rfl
        | some first =>
            have hlate := hprompt first (by rw [firstOf_concat, hfirst]; rfl) a
              (List.mem_append_right _ (List.mem_singleton_self a)) rfl
            simpa using hlate
      cases hfirst : firstOf a.key log with
      | none =>
          rw [hfirst] at hremembers hmem
          have hspend := Memory.spend_of_forgotten (s := a.toSpend) hremembers
          rw [hspend] at hanswer
          rw [hspend, if_pos rfl, if_pos ⟨hanswer, rfl⟩]
          exact ⟨Function.update_self _ _ _, rfl⟩
      | some first =>
          rw [hfirst] at hremembers hmem
          have hspend := Memory.spend_of_remembered (s := a.toSpend) hremembers
          rw [hspend] at hanswer
          rw [hspend, if_pos rfl, if_neg (by simp [hanswer])]
          exact ⟨hmem, rfl⟩

/-- **The spends of a key succeed exactly once** if none of them is late. -/
theorem freshOf_of_prompt {key : String} {log : List Arrival} (hrec : Recorded log)
    (hprompt : Prompt key log) : (freshOf key log).length ≤ 1 := by
  rw [(after_of_prompt hrec hprompt).2]
  cases firstOf key log <;> simp

/-- **The spends of a key succeed at least twice** if one of them is late. -/
theorem two_le_length_freshOf {key : String} {log : List Arrival} (hrec : Recorded log)
    (horderly : Orderly (spendsOf log)) (hlate : ¬Prompt key log) :
    2 ≤ (freshOf key log).length := by
  induction hrec with
  | nil =>
      refine absurd ?_ hlate
      intro first _ a ha
      exact absurd ha (by simp)
  | @concat log a hrec hanswer ih =>
      rw [spendsOf_concat] at horderly
      rw [freshOf_concat, List.length_append]
      by_cases hprompt : Prompt key log
      swap
      · exact (ih horderly.of_concat hprompt).trans (Nat.le_add_right _ _)
      -- The late spend is the last one, and the first one is before it.
      obtain ⟨hmem, hfresh⟩ := after_of_prompt hrec hprompt
      simp only [Prompt, not_forall, not_le] at hlate
      obtain ⟨first, hfirst, b, hb, hkey, hlt⟩ := hlate
      rw [firstOf_concat] at hfirst
      have hnonneg : 0 ≤ a.request.ttlMs := horderly.2 a.toSpend (by simp)
      cases hold : firstOf key log with
      | none =>
          rw [hold, Option.none_or] at hfirst
          split at hfirst
          swap
          · cases hfirst
          obtain rfl := Option.some.inj hfirst
          rcases List.mem_append.mp hb with hb | hb
          · rw [firstOf, List.find?_eq_none] at hold
            exact absurd (hold b hb) (by simp [hkey])
          · obtain rfl := List.mem_singleton.mp hb
            omega
      | some f =>
          rw [hold] at hfirst
          obtain rfl : f = first := Option.some.inj hfirst
          rcases List.mem_append.mp hb with hb | hb
          · exact absurd (hprompt f hold b hb hkey) (by omega)
          obtain rfl := List.mem_singleton.mp hb
          have hforgot : (Memory.after (spendsOf log)).remembers b.key b.time = false := by
            rw [hkey, Memory.remembers, hmem, hold]
            simpa using hlt
          rw [Memory.spend_of_forgotten (s := b.toSpend) hforgot] at hanswer
          rw [hfresh, hold, if_pos ⟨hanswer, hkey⟩]
          rfl

/-- A key is remembered because a spend of it succeeded. -/
theorem exists_fresh_of_remembered {log : List Arrival} (hrec : Recorded log) {key : String}
    {through : ℤ} (h : Memory.after (spendsOf log) key = some through) :
    ∃ a ∈ log, a.key = key ∧ a.fresh = true := by
  induction hrec with
  | nil => cases h
  | @concat log a hrec hanswer ih =>
      rw [spendsOf_concat, Memory.after_concat] at h
      by_cases hnew : a.key = key ∧ a.fresh = true
      · exact ⟨a, List.mem_append_right _ (List.mem_singleton_self a), hnew⟩
      have hold : Memory.after (spendsOf log) key = some through := by
        by_cases hkey : a.key = key
        · cases hm : (Memory.after (spendsOf log)).remembers a.key a.time with
          | true => rwa [Memory.spend_of_remembered (s := a.toSpend) hm] at h
          | false =>
              rw [Memory.spend_of_forgotten (s := a.toSpend) hm] at hanswer
              exact absurd ⟨hkey, hanswer⟩ hnew
        · rwa [Memory.spend_snd_of_ne _ _ hkey] at h
      obtain ⟨b, hb, hfresh⟩ := ih hold
      exact ⟨b, List.mem_append_left _ hb, hfresh⟩

/-- A key that no spend has named is not remembered. -/
theorem after_eq_none {log : List Arrival} {key : String} (h : ∀ a ∈ log, a.key ≠ key) :
    Memory.after (spendsOf log) key = none := by
  induction log using List.reverseRecOn with
  | nil => rfl
  | append_singleton log a ih =>
      rw [spendsOf_concat, Memory.after_concat, Memory.spend_snd_of_ne]
      · exact ih fun b hb => h b (List.mem_append_left _ hb)
      · exact h a (List.mem_append_right _ (List.mem_singleton_self a))

end EightEen
