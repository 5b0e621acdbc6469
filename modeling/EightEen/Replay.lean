import EightEen.Replicas
import EightEen.SpentSet

/-!
# Replays

Single use over whole runs: of any number of checks of one proof, over any number of
replicas, how many are accepted. Two memories hand over to each other. The store remembers
a nonce from the moment its first spend arrives, for as long as its challenge had to live
when the spender read the clock; the expiry stamp refuses it once the clock that a check
reads has passed the stamp. A spend that arrives after the first memory has ended, made by
a check that read its clock before the second began, falls between them.

## Main results

* `single_use_iff`: every nonce is accepted at most once exactly in the runs where no
  spend falls between the two memories.
* `replay_across_expiry`: a run in which one does.
-/

open Js Transition

namespace EightEen

variable {p : Platform} {secret : Value} {S : NonceStore}

/-- No spend of a nonce reaches the store later than its first spend did, by more than
what the challenge had left to live when the check that spent it first read its clock. -/
def Timely (p : Platform) (s : System secret S) : Prop :=
  ∀ key first, firstOf key s.arrivals = some first →
    ∀ c r, s.calls first.call = some c → LiveChallenge p c.transcript secret c.readAt r →
      ∀ a ∈ s.arrivals, a.key = key → a.time ≤ first.time + ((r.expiresAt : ℤ) - c.readAt.val)

/-- The lifetime that a spend brings to the store is what its challenge had left. -/
theorem Consistent.timely_iff {s : System secret S} (h : Consistent p s) :
    Timely p s ↔ ∀ key, Prompt key s.arrivals := by
  constructor
  · intro htimely key first hfirst a ha hkey
    obtain ⟨c, raw, verdict, hc, hafter, -⟩ := h.arrived first (List.mem_of_find?_eq_some hfirst)
    obtain ⟨-, -, r, hlive, hrequest⟩ := c.spending_spec hafter
    rw [hrequest]
    exact htimely key first hfirst c r hc hlive a ha hkey
  · intro hprompt key first hfirst c' r' hc' hlive' a ha hkey
    obtain ⟨c, raw, verdict, hc, hafter, -⟩ := h.arrived first (List.mem_of_find?_eq_some hfirst)
    obtain ⟨-, -, r, hlive, hrequest⟩ := c.spending_spec hafter
    obtain rfl := Option.some.inj (hc.symm.trans hc')
    obtain rfl := Option.some.inj (hlive.1.symm.trans hlive'.1)
    have hle := hprompt key first hfirst a ha hkey
    rwa [hrequest] at hle

/-- Spends that all arrive within the lifetimes of each other are not late. -/
theorem Consistent.timely_of_close {s : System secret S} (h : Consistent p s)
    (hclose : ∀ a ∈ s.arrivals, ∀ b ∈ s.arrivals, b.time ≤ a.time + a.request.ttlMs) :
    Timely p s :=
  h.timely_iff.mpr fun _ first hfirst a ha _ =>
    hclose first (List.mem_of_find?_eq_some hfirst) a ha

/-- Two successful spends of a key are spends of two calls. -/
theorem exists_two_calls {log : List Arrival} {key : String}
    (hnodup : (log.map Arrival.call).Nodup) (h : 2 ≤ (freshOf key log).length) :
    ∃ a ∈ log, ∃ b ∈ log, a.call ≠ b.call ∧ (a.fresh = true ∧ a.key = key) ∧
      b.fresh = true ∧ b.key = key := by
  have hsub : (freshOf key log).Sublist log := List.filter_sublist
  have hcalls : ((freshOf key log).map Arrival.call).Nodup := hnodup.sublist (hsub.map _)
  have hspec : ∀ a ∈ freshOf key log, a.fresh = true ∧ a.key = key := by
    intro a ha
    simpa using (List.mem_filter.mp ha).2
  match hf : freshOf key log, h with
  | a :: b :: rest, _ =>
      rw [hf] at hcalls hspec hsub
      have ha : a ∈ a :: b :: rest := List.mem_cons_self
      have hb : b ∈ a :: b :: rest := List.mem_cons_of_mem _ List.mem_cons_self
      refine ⟨a, hsub.subset ha, b, hsub.subset hb, ?_, hspec a ha, hspec b hb⟩
      intro heq
      rw [List.map_cons, List.map_cons, List.nodup_cons] at hcalls
      exact hcalls.1 (heq ▸ List.mem_cons_self)

/-- **Single use over whole runs**: in a run over a store that keeps its contract, every
nonce is accepted at most once if and only if no spend of it outlives the memory of its
first. -/
theorem single_use_iff (hS : S.KeepsContract) {s : System secret S}
    {events : List (Event secret)}
    (hrun : exec (step p) (System.init secret S) events = some s) :
    (∀ nonce i j, Admitted s i nonce → Admitted s j nonce → i = j) ↔ Timely p s := by
  have h := consistent_of_run hrun
  have hrec := recorded_of_run hS hrun
  rw [h.timely_iff]
  constructor
  · intro honce key
    by_contra hlate
    obtain ⟨a, ha, b, hb, hne, ⟨hafresh, hakey⟩, hbfresh, hbkey⟩ :=
      exists_two_calls h.nodup (two_le_length_freshOf hrec h.orderly hlate)
    -- Both calls are bound to the nonce that the key was made from.
    obtain ⟨c, raw, verdict, -, hafter, -⟩ := h.arrived a ha
    obtain ⟨nonce, -, hkey⟩ := c.exists_boundTo hafter
    have hanonce : a.key = keyOf nonce := hkey
    have hbnonce : b.key = keyOf nonce := by rw [hbkey, ← hakey, hanonce]
    exact hne (honce nonce a.call b.call
      ((h.admitted_iff _ _).mpr ⟨a, ha, rfl, hafresh, hanonce⟩)
      ((h.admitted_iff _ _).mpr ⟨b, hb, rfl, hbfresh, hbnonce⟩))
  · intro hprompt nonce i j hi hj
    obtain ⟨a, ha, rfl, hafresh, hakey⟩ := (h.admitted_iff _ _).mp hi
    obtain ⟨b, hb, rfl, hbfresh, hbkey⟩ := (h.admitted_iff _ _).mp hj
    have hone := freshOf_of_prompt hrec (hprompt (keyOf nonce))
    have hmem : ∀ a ∈ s.arrivals, a.fresh = true → a.key = keyOf nonce →
        a ∈ freshOf (keyOf nonce) s.arrivals := by
      intro a ha hfresh hkey
      exact List.mem_filter.mpr ⟨ha, by simp [hfresh, hkey]⟩
    have hamem := hmem a ha hafresh hakey
    have hbmem := hmem b hb hbfresh hbkey
    match hf : freshOf (keyOf nonce) s.arrivals, hone with
    | [], _ =>
        rw [hf] at hamem
        exact absurd hamem (by simp)
    | [x], _ =>
        rw [hf, List.mem_singleton] at hamem hbmem
        rw [hamem, hbmem]

/-! ### A replay -/

/-- The replica of the worked examples. -/
def sampleReplica : Replica sampleSecret :=
  ⟨sampleVerifier, rfl, rfl⟩

/-- The nonce of the worked examples. -/
def sampleNonce : List UInt8 :=
  samplePayload ++ sampleTag

/-- A check of the sample proof, and half a second into the verification of its replay the
challenge expires. -/
def replayRun : List (Event sampleSecret) :=
  [⟨sampleTime 0, .begin 0 sampleReplica sampleProof⟩,
    ⟨sampleTime 0, .reply 0 sampleReply⟩,
    ⟨sampleTime 0, .arrive 0⟩,
    ⟨sampleTime 300000, .begin 1 sampleReplica sampleProof⟩,
    ⟨sampleTime 300500, .reply 1 sampleReply⟩,
    ⟨sampleTime 300500, .arrive 1⟩]

/-- The equivalence in that run. -/
theorem single_use_iff_replayRun :
    ∃ s, exec (step .sample) (System.init sampleSecret inMemoryNonceStore) replayRun = some s ∧
      ((∀ nonce i j, Admitted s i nonce → Admitted s j nonce → i = j) ↔ Timely .sample s) := by
  obtain ⟨s, hs⟩ : ∃ s, exec (step .sample) (System.init sampleSecret inMemoryNonceStore)
    replayRun = some s := ⟨_, rfl⟩
  exact ⟨s, hs, single_use_iff inMemoryNonceStore_keepsContract hs⟩

/-- **A replay that is accepted**, over a store that keeps its contract: the second check
reads its clock in the last millisecond of the challenge, and its spend arrives when the
store has forgotten the first. -/
theorem replay_across_expiry :
    inMemoryNonceStore.KeepsContract ∧
      ∃ s, exec (step .sample) (System.init sampleSecret inMemoryNonceStore) replayRun = some s ∧
        Admitted s 0 sampleNonce ∧ Admitted s 1 sampleNonce := by
  refine ⟨inMemoryNonceStore_keepsContract, _, rfl, ?_, ?_⟩
  · exact ⟨_, _, _, rfl, rfl, rfl, _, rfl, rfl⟩
  · exact ⟨_, _, _, rfl, rfl, rfl, _, rfl, rfl⟩

end EightEen
