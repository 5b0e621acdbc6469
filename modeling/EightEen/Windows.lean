import EightEen.Answering
import EightEen.Handler
import EightEen.Js.Expiring
import Mathlib.Data.Int.ConditionallyCompleteOrder
import Mathlib.Data.Rat.Floor

/-!
# One Window per Key

What the rate limiter of `src/gate.js` is for: each key has a fixed window of its own, and
nobody else's traffic can be felt in it. The limiter keeps all windows in one map and
sweeps it when it is full; the `count` of one key is the ideal that the map refines, as
long as the map never has to shed windows that are still open.

## Main results

* `answersTo_eq`: the answers to a key are those of a counter of its own.
* `granted_window_le`, `granted_interval_le`: how many requests a counter grants.
* `askOf_spoofed`: only the last hop of the forwarded header names a client.
* `limiter_isolates_keys`: all of it, for runs of the gate's limiter.
-/

open Js Answering

namespace EightEen

/-! ### Calls of the limiter -/

/-- A call `allow(key, now)`. -/
structure Ask where
  key : String
  now : ℤ

/-- `allow`, as a component that answers. -/
def allowAsk (cfg : RateLimit) (hits : Hits) (a : Ask) : Bool × Hits :=
  allow cfg hits a.key a.now

/-- The call opens a window: the key has none, or one that has expired. -/
def Opens (hits : Hits) (a : Ask) : Prop :=
  ∀ w, hits.get a.key = some w → w.expired a.now = true

/-- The half-eviction fires: a window is opened, and the map is still full when it has lost
what has expired. -/
def Sheds (hits : Hits) (a : Ask) : Prop :=
  Opens hits a ∧ rlHardCap ≤ (hits.retain fun _ w => !w.expired a.now).size

/-- A map that does not shed loses at most what has expired. -/
theorem makeRoom_of_not_sheds {hits : Hits} {a : Ask} (hopens : Opens hits a)
    (h : ¬Sheds hits a) :
    makeRoom hits a.now = hits ∨
      makeRoom hits a.now = hits.retain fun _ w => !w.expired a.now := by
  rw [makeRoom]
  split
  · dsimp only
    rw [if_neg fun hfull => h ⟨hopens, hfull⟩]
    exact Or.inr rfl
  · exact Or.inl rfl

/-- A call that opens a window is granted, and its counter starts at one. -/
theorem allow_of_opens {cfg : RateLimit} {hits : Hits} {a : Ask} (h : Opens hits a) :
    allowAsk cfg hits a = (true, openWindow cfg hits a.key a.now) := by
  rw [allowAsk, allow]
  split
  · rfl
  · next w hw => rw [if_pos (h w hw)]

/-- A call in an open window is refused when the count has reached the limit, and otherwise
counted. -/
theorem allow_of_open {cfg : RateLimit} {hits : Hits} {a : Ask} {w : Window}
    (hw : hits.get a.key = some w) (hopen : w.expired a.now = false) :
    allowAsk cfg hits a = if cfg.limit.val ≤ w.count then (false, hits)
      else (true, hits.set a.key { w with count := w.count + 1 }) := by
  rw [allowAsk, allow, hw]
  exact if_neg (by simp [hopen])

/-! ### Isolated counters -/

/-- The limiter of one key: its window, if it has had one. -/
def count (cfg : RateLimit) (own : Option Window) (now : ℤ) : Bool × Option Window :=
  match own.filter fun w => !w.expired now with
  | none => (true, some { count := 1, resetAt := now + cfg.windowMs.val })
  | some w =>
      if cfg.limit.val ≤ w.count then (false, some w)
      else (true, some { w with count := w.count + 1 })

/-- A family of counters, one for each key, which know nothing of each other. -/
def countOwn (cfg : RateLimit) (owns : String → Option Window) (a : Ask) :
    Bool × (String → Option Window) :=
  ((count cfg (owns a.key) a.now).1,
    Function.update owns a.key (count cfg (owns a.key) a.now).2)

/-- A window counts until it expires. -/
def windowSpan : Lifespan Window ℤ where
  alive now w := !w.expired now
  fades hle h := by
    simp only [Window.expired, Bool.not_eq_true', decide_eq_false_iff_not, not_le] at h ⊢
    exact lt_of_le_of_lt (by exact_mod_cast hle) h

/-- The map and the counters have the same open windows. -/
def SameWindows (now : ℤ) (hits : Hits) (owns : String → Option Window) : Prop :=
  ∀ key, hits.live windowSpan now key = (owns key).filter fun w => !w.expired now

/-- Waiting closes the same windows in the map and in the counters. -/
theorem SameWindows.later {now later : ℤ} {hits : Hits} {owns : String → Option Window}
    (hle : now ≤ later) (h : SameWindows now hits owns) : SameWindows later hits owns := by
  intro key
  rw [OrderedMap.live_later _ _ hle, h key, Option.filter_filter]
  congr 1
  funext w
  cases hlater : windowSpan.alive later w with
  | true =>
      have hnow := windowSpan.fades hle hlater
      simp only [windowSpan] at hlater hnow
      simp [hlater, hnow]
  | false =>
      simp only [windowSpan] at hlater
      simp [hlater]

/-- Both have the same windows again after the key has been given one. -/
theorem SameWindows.set {now : ℤ} {hits hits' : Hits} {owns : String → Option Window}
    (h : SameWindows now hits owns)
    (hlive : ∀ key, hits'.live windowSpan now key = hits.live windowSpan now key) (key : String)
    (w : Window) : SameWindows now (hits'.set key w) (Function.update owns key (some w)) := by
  intro key'
  rw [OrderedMap.live_set, Function.update_apply, hlive, h key']
  by_cases hkey : key = key'
  · rw [if_pos hkey, if_pos hkey.symm]
    rfl
  · rw [if_neg hkey, if_neg (Ne.symm hkey)]

/-- A call that opens a window finds none in its counter. -/
theorem SameWindows.filter_eq_none {hits : Hits} {owns : String → Option Window} {a : Ask}
    (h : SameWindows a.now hits owns) (hopens : Opens hits a) :
    (owns a.key).filter (fun w => !w.expired a.now) = none := by
  rw [← h a.key, Option.eq_none_iff_forall_ne_some]
  intro w hw
  obtain ⟨hget, halive⟩ := OrderedMap.live_eq_some_iff windowSpan |>.mp hw
  simp [windowSpan, hopens w hget] at halive

/-- **One call** that sheds nothing: the same answer, and again the same windows. -/
theorem SameWindows.allow {cfg : RateLimit} {hits : Hits} {owns : String → Option Window}
    {a : Ask} (hkeeps : ¬Sheds hits a) (h : SameWindows a.now hits owns) :
    (allowAsk cfg hits a).1 = (countOwn cfg owns a).1 ∧
      SameWindows a.now (allowAsk cfg hits a).2 (countOwn cfg owns a).2 := by
  by_cases hopens : Opens hits a
  · have hlive : ∀ key, (makeRoom hits a.now).live windowSpan a.now key =
        hits.live windowSpan a.now key := by
      intro key
      rcases makeRoom_of_not_sheds hopens hkeeps with heq | heq
      · rw [heq]
      · rw [heq]
        exact OrderedMap.live_retain _ _ (fun _ _ halive => halive) key
    rw [allow_of_opens hopens, countOwn, count, h.filter_eq_none hopens]
    exact ⟨rfl, h.set hlive _ _⟩
  · simp only [Opens, not_forall] at hopens
    obtain ⟨w, hw, hopen⟩ := hopens
    have hopen : w.expired a.now = false := by simpa using hopen
    have hsome : (owns a.key).filter (fun w => !w.expired a.now) = some w := by
      rw [← h a.key, OrderedMap.live_eq_some_iff]
      exact ⟨hw, by simp [windowSpan, hopen]⟩
    rw [allow_of_open hw hopen, countOwn, count, hsome]
    dsimp only
    split
    · -- The counter forgets nothing that is open.
      refine ⟨rfl, fun key => ?_⟩
      rw [Function.update_apply, h key]
      split
      · next hkey => rw [hkey, hsome, Option.filter_some, hopen]; rfl
      · rfl
    · exact ⟨rfl, h.set (fun _ => rfl) _ _⟩

/-! ### One key -/

/-- The answers that a key got. -/
def answersTo (key : String) (asks : List Ask) (bs : List Bool) : List Bool :=
  ((asks.zip bs).filter fun x => x.1.key = key).map Prod.snd

/-- The calls of a key. -/
def asksOf (key : String) (asks : List Ask) : List Ask :=
  asks.filter fun a => a.key = key

/-- The answers to a key, with the first call in front. -/
theorem answersTo_cons (key : String) (a : Ask) (asks : List Ask) (b : Bool) (bs : List Bool) :
    answersTo key (a :: asks) (b :: bs) =
      if a.key = key then b :: answersTo key asks bs else answersTo key asks bs := by
  rw [answersTo, List.zip_cons_cons, List.filter_cons]
  by_cases h : a.key = key <;> simp [h, answersTo]

/-- The calls of a key, with the first call in front. -/
theorem asksOf_cons (key : String) (a : Ask) (asks : List Ask) :
    asksOf key (a :: asks) = if a.key = key then a :: asksOf key asks else asksOf key asks := by
  rw [asksOf, List.filter_cons]
  by_cases h : a.key = key <;> simp [h, asksOf]

/-- A counter of the family counts the calls of its key alone. -/
theorem answersTo_countOwn (cfg : RateLimit) (key : String) (owns : String → Option Window)
    (asks : List Ask) :
    answersTo key asks (answers (countOwn cfg) owns asks) =
      answers (count cfg) (owns key) ((asksOf key asks).map Ask.now) := by
  induction asks generalizing owns with
  | nil => rfl
  | cons a asks ih =>
      rw [answers, answersTo_cons, asksOf_cons, ih]
      by_cases h : a.key = key
      · subst h
        rw [if_pos rfl, if_pos rfl, List.map_cons, answers]
        simp only [countOwn, Function.update_self]
      · have hsame : (countOwn cfg owns a).2 key = owns key :=
          Function.update_of_ne (Ne.symm h) _ _
        rw [if_neg h, if_neg h, hsame]

/-- When all calls have the key, all answers are its. -/
theorem answersTo_self {key : String} {asks : List Ask} (h : ∀ a ∈ asks, a.key = key)
    {bs : List Bool} (hlen : bs.length = asks.length) : answersTo key asks bs = bs := by
  induction asks generalizing bs with
  | nil => rw [List.length_eq_zero_iff.mp hlen]; rfl
  | cons a asks ih =>
      cases bs with
      | nil => cases hlen
      | cons b bs =>
          rw [answersTo_cons, if_pos (h a List.mem_cons_self),
            ih (fun a' ha' => h a' (List.mem_cons_of_mem _ ha')) (by simpa using hlen)]

/-- At first no key has a window. -/
theorem sameWindows_empty (now : ℤ) : SameWindows now OrderedMap.empty fun _ => none :=
  fun _ => rfl

/-- **The limiter that sheds nothing** answers as the family of counters. -/
theorem SameWindows.answers_eq {cfg : RateLimit} {hits : Hits} {owns : String → Option Window}
    {asks : List Ask} (hsorted : InOrder Ask.now asks)
    (hkeeps : Meets (allowAsk cfg) (fun hits a => ¬Sheds hits a) hits asks)
    (h : ∀ a ∈ asks, SameWindows a.now hits owns) :
    answers (allowAsk cfg) hits asks = answers (countOwn cfg) owns asks := by
  refine simulation ?_ ?_ hsorted hkeeps h
  · exact fun hle h => h.later hle
  · exact fun hok h => h.allow hok

/-- All entries of the map are of the key. -/
def OnlyKey (key : String) (hits : Hits) : Prop :=
  ∀ e ∈ hits.entries, e.1 = key

/-- A map of one key is far from full. -/
theorem OnlyKey.not_sheds {key : String} {hits : Hits} (h : OnlyKey key hits) (a : Ask) :
    ¬Sheds hits a := by
  rintro ⟨-, hfull⟩
  have hsize : hits.size ≤ 1 := by
    have hkeys : hits.entries.map Prod.fst = List.replicate hits.size key :=
      List.eq_replicate_iff.mpr ⟨List.length_map _, fun k hk => by
        obtain ⟨e, he, rfl⟩ := List.mem_map.mp hk
        exact h e he⟩
    have hnodup := hits.nodup
    rwa [hkeys, List.nodup_replicate] at hnodup
  have hswept := OrderedMap.size_retain_le (fun _ (w : Window) => !w.expired a.now) hits
  have hcap : rlHardCap = 50000 := rfl
  omega

/-- Setting the one key leaves a map of one key. -/
theorem OnlyKey.set {key : String} {hits : Hits} (h : OnlyKey key hits) (w : Window) :
    OnlyKey key (hits.set key w) := by
  intro e he
  have hmem : e.1 ∈ (OrderedMap.put key w hits.entries).map Prod.fst := List.mem_map_of_mem he
  rw [OrderedMap.map_fst_put] at hmem
  have hold : ∀ k ∈ hits.entries.map Prod.fst, k = key := by
    intro k hk
    obtain ⟨e', he', rfl⟩ := List.mem_map.mp hk
    exact h e' he'
  split at hmem
  · exact hold _ hmem
  · rcases List.mem_append.mp hmem with hmem | hmem
    · exact hold _ hmem
    · exact List.mem_singleton.mp hmem

/-- Making room only takes entries away, so it leaves a map of one key. -/
theorem OnlyKey.makeRoom {key : String} {hits : Hits} (h : OnlyKey key hits) (now : ℤ) :
    OnlyKey key (makeRoom hits now) := by
  rw [EightEen.makeRoom]
  split
  swap
  · exact h
  dsimp only
  split
  · exact fun e he => h e (List.mem_filter.mp (List.mem_of_mem_drop he)).1
  · exact fun e he => h e (List.mem_filter.mp he).1

/-- A call of the one key leaves a map of one key. -/
theorem OnlyKey.allow {cfg : RateLimit} {hits : Hits} {a : Ask} (h : OnlyKey a.key hits) :
    OnlyKey a.key (allowAsk cfg hits a).2 := by
  by_cases hopens : Opens hits a
  · rw [allow_of_opens hopens]
    exact (h.makeRoom a.now).set _
  · simp only [Opens, not_forall] at hopens
    obtain ⟨w, hw, hopen⟩ := hopens
    rw [allow_of_open hw (by simpa using hopen)]
    split
    · exact h
    · exact h.set _

/-- A run on the calls of one key sheds nothing. -/
theorem meets_not_sheds {cfg : RateLimit} {key : String} {asks : List Ask}
    (hkey : ∀ a ∈ asks, a.key = key) {hits : Hits} (h : OnlyKey key hits) :
    Meets (allowAsk cfg) (fun hits a => ¬Sheds hits a) hits asks := by
  induction asks generalizing hits with
  | nil => trivial
  | cons a asks ih =>
      have ha := hkey a List.mem_cons_self
      subst ha
      exact ⟨h.not_sheds a, ih (fun a' ha' => hkey a' (List.mem_cons_of_mem _ ha')) h.allow⟩

/-- Every call of a key has that key. -/
theorem key_of_mem_asksOf {key : String} {asks : List Ask} : ∀ a ∈ asksOf key asks, a.key = key :=
  fun _ ha => of_decide_eq_true (List.mem_filter.mp ha).2

/-- The calls of a key are in time order if all calls are. -/
theorem inOrder_asksOf {asks : List Ask} (h : InOrder Ask.now asks) (key : String) :
    InOrder Ask.now (asksOf key asks) :=
  h.sublist List.filter_sublist

/-- **A limiter of its own**: the answers to a key are those that a fresh limiter gives to
the calls of the key alone. -/
theorem answersTo_eq {cfg : RateLimit} {asks : List Ask} (hsorted : InOrder Ask.now asks)
    (hkeeps : Meets (allowAsk cfg) (fun hits a => ¬Sheds hits a) OrderedMap.empty asks)
    (key : String) :
    answersTo key asks (answers (allowAsk cfg) OrderedMap.empty asks) =
      answers (allowAsk cfg) OrderedMap.empty (asksOf key asks) := by
  have halone : Meets (allowAsk cfg) (fun hits a => ¬Sheds hits a) OrderedMap.empty
      (asksOf key asks) :=
    meets_not_sheds key_of_mem_asksOf fun e he => absurd he List.not_mem_nil
  have hfilter : asksOf key (asksOf key asks) = asksOf key asks := by
    rw [asksOf, List.filter_eq_self]
    exact fun a ha => decide_eq_true (key_of_mem_asksOf a ha)
  have hcount := answersTo_countOwn cfg key (fun _ => none) (asksOf key asks)
  rw [hfilter, answersTo_self key_of_mem_asksOf (length_answers _ _ _)] at hcount
  rw [SameWindows.answers_eq hsorted hkeeps fun a _ => sameWindows_empty a.now,
    SameWindows.answers_eq (inOrder_asksOf hsorted key) halone fun a _ => sameWindows_empty a.now,
    answersTo_countOwn, hcount]

/-! ### Counting -/

/-- How many of the answers grant a request of the half-open interval. -/
def granted (lo hi : ℚ) (times : List ℤ) (bs : List Bool) : ℕ :=
  (times.zip bs).countP fun x => decide (lo ≤ (x.1 : ℚ) ∧ (x.1 : ℚ) < hi) && x.2

/-- What a counter may still grant in its window. -/
def Window.rest (cfg : RateLimit) (w : Window) : ℕ :=
  ⌈cfg.limit.val⌉₊ - w.count

/-- The window has granted no more than it may. -/
def WithinLimit (cfg : RateLimit) (own : Option Window) : Prop :=
  ∀ w, own = some w → w.count ≤ ⌈cfg.limit.val⌉₊

section Counting

variable {cfg : RateLimit} {lo hi : ℚ}

/-- A window grants one request at least, since the limit is positive. -/
theorem one_le_ceil_limit : 1 ≤ ⌈cfg.limit.val⌉₊ :=
  Nat.ceil_pos.mpr cfg.limit.property

/-- The count over an interval, with the first call in front. -/
theorem granted_cons (t : ℤ) (times : List ℤ) (b : Bool) (bs : List Bool) :
    granted lo hi (t :: times) (b :: bs) =
      granted lo hi times bs + if lo ≤ t ∧ (t : ℚ) < hi ∧ b = true then 1 else 0 := by
  rw [granted, List.zip_cons_cons, List.countP_cons, granted]
  congr 2
  simp [and_assoc]

/-- Nothing is granted before its time. -/
theorem granted_eq_zero {times : List ℤ} (h : ∀ t ∈ times, hi ≤ (t : ℚ)) (bs : List Bool) :
    granted lo hi times bs = 0 := by
  rw [granted, List.countP_eq_zero]
  rintro ⟨t, b⟩ hx
  have ht := h t (List.of_mem_zip hx).1
  simp [not_lt.mpr ht]

/-- A longer interval holds as many granted requests, or more. -/
theorem granted_mono {hi' : ℚ} (h : hi ≤ hi') (times : List ℤ) (bs : List Bool) :
    granted lo hi times bs ≤ granted lo hi' times bs := by
  refine List.countP_mono_left fun x _ hx => ?_
  simp only [Bool.and_eq_true, decide_eq_true_eq] at hx ⊢
  exact ⟨⟨hx.1.1, hx.1.2.trans_le h⟩, hx.2⟩

/-- The three ways a counter can answer. -/
theorem count_cases (cfg : RateLimit) (own : Option Window) (now : ℤ) :
    ((∀ w, own = some w → w.expired now = true) ∧
        count cfg own now = (true, some { count := 1, resetAt := now + cfg.windowMs.val })) ∨
      ∃ w, own = some w ∧ w.expired now = false ∧
        ((cfg.limit.val ≤ w.count ∧ count cfg own now = (false, some w)) ∨
          ((w.count : ℚ) < cfg.limit.val ∧
            count cfg own now = (true, some { w with count := w.count + 1 }))) := by
  cases hown : own with
  | none => exact Or.inl ⟨by simp, rfl⟩
  | some w =>
      cases hexpired : w.expired now with
      | true =>
          refine Or.inl ⟨?_, ?_⟩
          · rintro w' ⟨⟩
            exact hexpired
          · rw [count, Option.filter_some, hexpired]
            rfl
      | false =>
          have hcount : count cfg (some w) now =
              if cfg.limit.val ≤ w.count then (false, some w)
              else (true, some { w with count := w.count + 1 }) := by
            rw [count, Option.filter_some, hexpired]
            rfl
          refine Or.inr ⟨w, rfl, hexpired, ?_⟩
          by_cases hfull : cfg.limit.val ≤ w.count
          · exact Or.inl ⟨hfull, hcount.trans (if_pos hfull)⟩
          · exact Or.inr ⟨not_le.mp hfull, hcount.trans (if_neg hfull)⟩

/-- **A counter stays within its limit**: it is counted up only below the limit, and a new window
starts at one. -/
theorem WithinLimit.count {own : Option Window} (h : WithinLimit cfg own) (now : ℤ) :
    WithinLimit cfg (count cfg own now).2 := by
  rintro w hw
  rcases count_cases cfg own now with ⟨-, hcount⟩ | ⟨w', hown, -, ⟨-, hcount⟩ | ⟨hlt, hcount⟩⟩
  · rw [hcount] at hw
    cases hw
    exact one_le_ceil_limit
  · rw [hcount] at hw
    cases hw
    exact h w hown
  · rw [hcount] at hw
    cases hw
    exact Nat.lt_ceil.mpr hlt

/-- **What is left of a window** is what it still grants before it expires. -/
theorem granted_le_rest {n : ℕ} {times : List ℤ} (hsorted : times.Pairwise (· ≤ ·))
    (hn : n ≤ ⌈cfg.limit.val⌉₊) :
    granted lo hi times (answers (count cfg) (some { count := n, resetAt := hi }) times) ≤
      ⌈cfg.limit.val⌉₊ - n := by
  induction times generalizing n with
  | nil => exact Nat.zero_le _
  | cons t times ih =>
      obtain ⟨hle, hsorted⟩ := List.pairwise_cons.mp hsorted
      rw [answers]
      rcases count_cases cfg (some { count := n, resetAt := hi }) t with
        ⟨hexpired, -⟩ | ⟨w, hown, -, hcases⟩
      · -- From here on the window has expired.
        have hreset : hi ≤ t := by simpa [Window.expired] using hexpired _ rfl
        rw [granted_eq_zero]
        · exact Nat.zero_le _
        · intro t' ht'
          rcases List.mem_cons.mp ht' with rfl | ht'
          · exact hreset
          · exact hreset.trans (by exact_mod_cast hle t' ht')
      obtain rfl := Option.some.inj hown
      rcases hcases with ⟨-, hcount⟩ | ⟨hlt, hcount⟩
      · rw [hcount, granted_cons, if_neg (by simp)]
        exact ih hsorted hn
      · have hroom : n + 1 ≤ ⌈cfg.limit.val⌉₊ := Nat.lt_ceil.mpr hlt
        have hrest := ih hsorted hroom
        rw [hcount, granted_cons]
        dsimp only
        split <;> omega

/-- **A window that is opened** grants at most the limit. -/
theorem granted_window_le {own : Option Window} {t : ℤ} {times : List ℤ}
    (hsorted : (t :: times).Pairwise (· ≤ ·)) (hopens : ∀ w, own = some w → w.expired t = true) :
    granted lo (t + cfg.windowMs.val) (t :: times) (answers (count cfg) own (t :: times)) ≤
      ⌈cfg.limit.val⌉₊ := by
  obtain ⟨hle, hsorted⟩ := List.pairwise_cons.mp hsorted
  rcases count_cases cfg own t with ⟨-, hcount⟩ | ⟨w, hown, hopen, -⟩
  · have hpos : 1 ≤ ⌈cfg.limit.val⌉₊ := one_le_ceil_limit
    have hrest : granted lo (t + cfg.windowMs.val) times _ ≤ _ := granted_le_rest hsorted hpos
    rw [answers, hcount, granted_cons]
    dsimp only
    split <;> omega
  · rw [hopens w hown] at hopen
    cases hopen

/-- In an interval that has begun, a counter grants what is left of its window and another
window. -/
theorem granted_le_of_begun {own : Option Window} {times : List ℤ}
    (hsorted : times.Pairwise (· ≤ ·)) (hbegun : ∀ t ∈ times, lo ≤ (t : ℚ))
    (hwithin : WithinLimit cfg own) :
    granted lo (lo + cfg.windowMs.val) times (answers (count cfg) own times) ≤
      (own.elim 0 (Window.rest cfg)) + ⌈cfg.limit.val⌉₊ := by
  induction times generalizing own with
  | nil => exact Nat.zero_le _
  | cons t times ih =>
      have hpair := hsorted
      obtain ⟨hle, hsorted⟩ := List.pairwise_cons.mp hsorted
      have hlater := ih hsorted (fun t' ht' => hbegun t' (List.mem_cons_of_mem _ ht'))
        (hwithin.count t)
      rcases count_cases cfg own t with ⟨hexpired, -⟩ | ⟨w, rfl, -, hcases⟩
      · -- The window opened here outlives the interval.
        have hend : lo + cfg.windowMs.val ≤ t + cfg.windowMs.val := by
          have := hbegun t List.mem_cons_self
          linarith
        calc granted lo (lo + cfg.windowMs.val) (t :: times)
              (answers (count cfg) own (t :: times))
            ≤ granted lo (t + cfg.windowMs.val) (t :: times)
                (answers (count cfg) own (t :: times)) := granted_mono hend _ _
          _ ≤ ⌈cfg.limit.val⌉₊ := granted_window_le hpair hexpired
          _ ≤ _ := Nat.le_add_left _ _
      · rw [answers, granted_cons]
        rcases hcases with ⟨-, hcount⟩ | ⟨hlt, hcount⟩
        · rw [hcount] at hlater ⊢
          simpa using hlater
        · rw [hcount] at hlater ⊢
          have hroom : w.count < ⌈cfg.limit.val⌉₊ := Nat.lt_ceil.mpr hlt
          simp only [Option.elim_some, Window.rest] at hlater ⊢
          split <;> omega

/-- **Any interval of the length of a window** sees at most two windows. -/
theorem granted_interval_le {own : Option Window} {times : List ℤ}
    (hsorted : times.Pairwise (· ≤ ·)) (hwithin : WithinLimit cfg own) (lo : ℚ) :
    granted lo (lo + cfg.windowMs.val) times (answers (count cfg) own times) ≤
      2 * ⌈cfg.limit.val⌉₊ := by
  induction times generalizing own with
  | nil => exact Nat.zero_le _
  | cons t times ih =>
      by_cases hbegun : lo ≤ (t : ℚ)
      · have hall : ∀ t' ∈ t :: times, lo ≤ (t' : ℚ) := by
          intro t' ht'
          rcases List.mem_cons.mp ht' with rfl | ht'
          · exact hbegun
          · exact hbegun.trans (by exact_mod_cast (List.pairwise_cons.mp hsorted).1 t' ht')
        have h := granted_le_of_begun hsorted hall hwithin
        have hrest : own.elim 0 (Window.rest cfg) ≤ ⌈cfg.limit.val⌉₊ := by
          cases own with
          | none => exact Nat.zero_le _
          | some w => exact Nat.sub_le _ _
        omega
      · rw [answers, granted_cons, if_neg fun h => hbegun h.1]
        exact ih (List.pairwise_cons.mp hsorted).2 (hwithin.count t)

end Counting

/-! ### The forwarded header -/

/-- A request that reaches the limiter, with its clock reading. -/
structure Visit where
  req : Request
  now : TimeValue

/-- The request with another text before the last comma of its forwarded header. -/
inductive Spoofed : Visit → Visit → Prop
  | same (v : Visit) : Spoofed v v
  | replaced (req : Request) (now : TimeValue) (before before' hop : List Char)
      (lastComma : ',' ∉ hop) :
      Spoofed
        { req := { req with forwardedFor := .string (String.ofList (before ++ ',' :: hop)) }, now }
        { req := { req with forwardedFor := .string (String.ofList (before' ++ ',' :: hop)) }, now }

/-- The last hop of a header stands behind its last comma. -/
theorem getLast?_splitOn_comma (before hop : List Char) (h : ',' ∉ hop) :
    ((before ++ ',' :: hop).splitOn ',').getLast? = some hop := by
  rw [List.splitOn_append_cons_self, List.splitOn_eq_singleton h]
  simp

/-- The key behind a trusted proxy is the last hop. -/
theorem clientKey_lastHop (req : Request) {trustProxy : Value} (htrust : trustProxy.truthy = true)
    (before hop : List Char) (h : ',' ∉ hop) :
    clientKey { req with forwardedFor := .string (String.ofList (before ++ ',' :: hop)) }
      trustProxy = String.ofList (trim hop) := by
  have hne : String.ofList (before ++ ',' :: hop) ≠ "" := by
    intro heq
    have htext := congrArg String.toList heq
    rw [String.toList_ofList] at htext
    simp at htext
  rw [clientKey]
  dsimp only
  rw [if_pos ⟨htrust, hne⟩, String.toList_ofList, getLast?_splitOn_comma _ _ h]
  rfl

/-- The call that the gate makes for a visit. -/
def askOf (g : Gate) (v : Visit) : Ask :=
  { key := clientKey v.req g.trustProxy, now := v.now.val }

/-- **Nobody dodges the limiter through the forwarded header**: with a trusted proxy, the
text before the last comma names no key. -/
theorem askOf_spoofed {g : Gate} (htrust : g.trustProxy.truthy = true) {v v' : Visit}
    (h : Spoofed v v') : askOf g v' = askOf g v := by
  cases h with
  | same => rfl
  | replaced req now before before' hop hhop =>
      rw [askOf, askOf, clientKey_lastHop _ htrust _ _ hhop, clientKey_lastHop _ htrust _ _ hhop]

/-! ### Runs of the gate's limiter -/

/-- The limiter of a gate, as a component that answers. -/
def serve (g : Gate) (hits : Hits) (v : Visit) : Bool × Hits :=
  rl g v.req v.now hits

/-- With a limit configured, the gate's limiter asks `allow` about the client of the visit. -/
theorem serve_eq {g : Gate} {cfg : RateLimit} (h : g.rateLimit = some cfg) :
    serve g = fun hits v => allowAsk cfg hits (askOf g v) := by
  funext hits v
  rw [serve, rl, h]
  rfl

/-- The answers of the gate's limiter are those of `allow` to the calls that the gate makes. -/
theorem answers_serve {g : Gate} {cfg : RateLimit} (h : g.rateLimit = some cfg) (hits : Hits)
    (visits : List Visit) :
    answers (serve g) hits visits = answers (allowAsk cfg) hits (visits.map (askOf g)) := by
  rw [answers_map, serve_eq h]

/-- And it leaves the map that those calls leave. -/
theorem after_serve {g : Gate} {cfg : RateLimit} (h : g.rateLimit = some cfg) (hits : Hits)
    (visits : List Visit) :
    after (serve g) hits visits = after (allowAsk cfg) hits (visits.map (askOf g)) := by
  rw [after_map, serve_eq h]

/-- At any call of a run that sheds nothing, the rest of the answers to a key are those of
its own counter, in a state that the map agrees with. -/
theorem exists_counter {cfg : RateLimit} {before rest : List Ask} {a : Ask}
    (hsorted : InOrder Ask.now (before ++ a :: rest))
    (hkeeps : Meets (allowAsk cfg) (fun hits a => ¬Sheds hits a) OrderedMap.empty
      (before ++ a :: rest)) (key : String) :
    ∃ owns, SameWindows a.now (after (allowAsk cfg) OrderedMap.empty before) owns ∧
      answersTo key (a :: rest)
          (answers (allowAsk cfg) (after (allowAsk cfg) OrderedMap.empty before) (a :: rest)) =
        answers (count cfg) (owns key) ((asksOf key (a :: rest)).map Ask.now) := by
  have hsame : SameWindows a.now (after (allowAsk cfg) OrderedMap.empty before)
      (after (countOwn cfg) (fun _ => none) before) := by
    refine related_at ?_ ?_ hsorted hkeeps fun b _ => sameWindows_empty b.now
    · exact fun hle h => h.later hle
    · exact fun hok h => (h.allow hok).2
  have hrest : InOrder Ask.now (a :: rest) := (List.pairwise_append.mp hsorted).2.1
  refine ⟨_, hsame, ?_⟩
  rw [← answersTo_countOwn, SameWindows.answers_eq hrest (meets_append_iff.mp hkeeps).2]
  intro b hb
  rcases List.mem_cons.mp hb with rfl | hb
  · exact hsame
  · exact hsame.later ((List.pairwise_cons.mp hrest).1 b hb)

/-- A window that a call opens grants at most the limit. -/
theorem granted_opened_le {cfg : RateLimit} {before rest : List Ask} {a : Ask}
    (hsorted : InOrder Ask.now (before ++ a :: rest))
    (hkeeps : Meets (allowAsk cfg) (fun hits a => ¬Sheds hits a) OrderedMap.empty
      (before ++ a :: rest))
    (hopens : Opens (after (allowAsk cfg) OrderedMap.empty before) a) :
    granted a.now (a.now + cfg.windowMs.val) ((asksOf a.key (a :: rest)).map Ask.now)
        (answersTo a.key (a :: rest)
          (answers (allowAsk cfg) (after (allowAsk cfg) OrderedMap.empty before) (a :: rest))) ≤
      ⌈cfg.limit.val⌉₊ := by
  obtain ⟨owns, hsame, hanswers⟩ := exists_counter hsorted hkeeps a.key
  have hrest := inOrder_asksOf (List.pairwise_append.mp hsorted).2.1 a.key
  rw [hanswers]
  rw [asksOf_cons, if_pos rfl] at hrest ⊢
  refine granted_window_le (List.pairwise_map.mpr hrest) fun w hw => ?_
  have hnone := hsame.filter_eq_none hopens
  rw [hw, Option.filter_some] at hnone
  by_contra hopen
  rw [Bool.not_eq_true] at hopen
  exact absurd hnone (by simp [hopen])

/-- Behind a trusted proxy a spoofed run asks for the same keys. -/
theorem map_askOf_spoofed {g : Gate} (htrust : g.trustProxy.truthy = true)
    {visits visits' : List Visit} (h : List.Forall₂ Spoofed visits visits') :
    visits'.map (askOf g) = visits.map (askOf g) := by
  induction h with
  | nil => rfl
  | cons hv _ ih => rw [List.map_cons, List.map_cons, askOf_spoofed htrust hv, ih]

/-- **Fixed windows per key, which no one can dodge.** In a run whose map never has to shed
an open window: the answers to a key are those of a fresh limiter to its requests alone; a
window that is opened grants at most the limit, and any half-open interval of its length
twice that; and with a trusted proxy no text before the last comma of the forwarded header
changes an answer. -/
theorem limiter_isolates_keys (g : Gate) (cfg : RateLimit) (hcfg : g.rateLimit = some cfg)
    (visits : List Visit) (hsorted : InOrder (fun v : Visit => v.now.val) visits)
    (hkeeps : Meets (serve g) (fun hits v => ¬Sheds hits (askOf g v)) OrderedMap.empty visits) :
    (∀ key, answersTo key (visits.map (askOf g)) (answers (serve g) OrderedMap.empty visits) =
      answers (serve g) OrderedMap.empty (visits.filter fun v => (askOf g v).key = key)) ∧
    (∀ before v rest, visits = before ++ v :: rest →
      Opens (after (serve g) OrderedMap.empty before) (askOf g v) →
      granted v.now.val (v.now.val + cfg.windowMs.val)
        ((asksOf (askOf g v).key ((v :: rest).map (askOf g))).map Ask.now)
        (answersTo (askOf g v).key ((v :: rest).map (askOf g))
          (answers (serve g) (after (serve g) OrderedMap.empty before) (v :: rest))) ≤
        ⌈cfg.limit.val⌉₊) ∧
    (∀ key lo, granted lo (lo + cfg.windowMs.val)
      ((asksOf key (visits.map (askOf g))).map Ask.now)
      (answersTo key (visits.map (askOf g)) (answers (serve g) OrderedMap.empty visits)) ≤
        2 * ⌈cfg.limit.val⌉₊) ∧
    (g.trustProxy.truthy = true → ∀ visits', List.Forall₂ Spoofed visits visits' →
      answers (serve g) OrderedMap.empty visits' = answers (serve g) OrderedMap.empty visits) := by
  rw [serve_eq hcfg] at hkeeps
  have hsorted' : InOrder Ask.now (visits.map (askOf g)) := List.pairwise_map.mpr hsorted
  have hkeeps' : Meets (allowAsk cfg) (fun hits a => ¬Sheds hits a) OrderedMap.empty
      (visits.map (askOf g)) := meets_map_iff.mpr hkeeps
  refine ⟨?_, ?_, ?_, ?_⟩
  · intro key
    rw [answers_serve hcfg, answers_serve hcfg, answersTo_eq hsorted' hkeeps', asksOf,
      List.filter_map]
    rfl
  · rintro before v rest rfl hopens
    rw [List.map_append, List.map_cons] at hsorted' hkeeps'
    rw [after_serve hcfg] at hopens
    rw [after_serve hcfg, answers_serve hcfg, List.map_cons]
    exact granted_opened_le hsorted' hkeeps' hopens
  · intro key lo
    rw [answers_serve hcfg, SameWindows.answers_eq hsorted' hkeeps'
      fun a _ => sameWindows_empty a.now, answersTo_countOwn]
    exact granted_interval_le (List.pairwise_map.mpr (inOrder_asksOf hsorted' key))
      (by rintro w ⟨⟩) lo
  · intro htrust visits' hspoofed
    rw [answers_serve hcfg, answers_serve hcfg, map_askOf_spoofed htrust hspoofed]

/-- A gate behind a trusted proxy that grants two requests in a second. -/
def proxiedGate : Gate :=
  { sampleGate with
    trustProxy := .boolean true
    rateLimit := some { limit := ⟨3 / 2, by norm_num⟩, windowMs := ⟨1000, by norm_num⟩ } }

/-- A visit from behind the proxy, with what the client has written into the header. -/
def proxiedVisit (written hop : String) (ms : ℕ) : Visit where
  req := { samplePost with forwardedFor := .string (written ++ "," ++ hop) }
  now := sampleTime ms

/-- Three requests of one client, who writes a new address each time, and one of another. -/
def proxiedVisits : List Visit :=
  [proxiedVisit "1.1.1.1" "10.0.0.1" 0, proxiedVisit "2.2.2.2" "10.0.0.1" 1,
    proxiedVisit "3.3.3.3" "10.0.0.2" 2, proxiedVisit "4.4.4.4" "10.0.0.1" 3]

/-- Of three visits of one client, who writes a new address in front each time, the third is
refused; the other client is not counted with it, and alone with the gate it is answered the
same. -/
theorem limiter_isolates_keys_proxiedVisits :
    answers (serve proxiedGate) OrderedMap.empty proxiedVisits = [true, true, true, false] ∧
      answersTo "10.0.0.1" (proxiedVisits.map (askOf proxiedGate))
        (answers (serve proxiedGate) OrderedMap.empty proxiedVisits) =
      answers (serve proxiedGate) OrderedMap.empty
        (proxiedVisits.filter fun v => (askOf proxiedGate v).key = "10.0.0.1") := by
  refine ⟨by decide +kernel, ?_⟩
  refine (limiter_isolates_keys proxiedGate _ rfl proxiedVisits ?_ ?_).1 _
  · rw [InOrder]
    decide +kernel
  · exact ⟨fun h => absurd h.2 (by decide +kernel), fun h => absurd h.2 (by decide +kernel),
      fun h => absurd h.2 (by decide +kernel), fun h => absurd h.2 (by decide +kernel), trivial⟩

end EightEen
