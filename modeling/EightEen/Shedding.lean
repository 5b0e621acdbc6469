import EightEen.Windows

/-!
# What a Full Limiter Sheds

When the rate limiter of `src/gate.js` is full of windows that are still open, it deletes
the older half of its map, in the order in which the keys came in, and trusts that this is
the order in which the windows close. It is, unless a key that came back after its window
had expired was given the new window in its old place: `Map.set` on a key that is there
keeps its position.

`Marked` keeps the time at which each key came in beside the map, which says of an entry
whether its window is still the one it came in with.

## Main results

* `limiter_sheds_oldest`: the map never outgrows its cap, sheds the half in front and no
  counter besides, and sheds the windows that close first as long as no window it sheds was
  opened in an old place.
* `refreshed_key_is_shed_first`: a run in which a key with the latest window of all is shed.
-/

open Js Answering

namespace EightEen

/-! ### What goes -/

/-- The map without what has expired. -/
def swept (hits : Hits) (now : ℤ) : Hits :=
  hits.retain fun _ w => !w.expired now

/-- The first `Math.ceil(hits.size / 2)` entries of the swept map. -/
def olderHalf (hits : Hits) (now : ℤ) : List (String × Window) :=
  (swept hits now).entries.take (((swept hits now).size + 1) / 2)

/-- The entries of the swept map behind them. -/
def youngerHalf (hits : Hits) (now : ℤ) : List (String × Window) :=
  (swept hits now).entries.drop (((swept hits now).size + 1) / 2)

/-- The two halves are the swept map, the older one in front. -/
theorem halves (hits : Hits) (now : ℤ) :
    olderHalf hits now ++ youngerHalf hits now = (swept hits now).entries :=
  List.take_append_drop _ _

/-- The open windows that the call deletes. -/
def gone (cfg : RateLimit) (hits : Hits) (a : Ask) : List (String × Window) :=
  (swept hits a.now).entries.filter fun e =>
    decide (e.1 ∉ (allowAsk cfg hits a).2.entries.map Prod.fst)

/-- What becomes of the open windows: all of them stay while there is room, and otherwise the
half in front goes. Every other window keeps its counter, but for the one that the call is
counted in. -/
structure ShedsHalf (cfg : RateLimit) (hits : Hits) (a : Ask) : Prop where
  spares : ¬Sheds hits a → gone cfg hits a = []
  front : Sheds hits a → gone cfg hits a = olderHalf hits a.now
  half : Sheds hits a → (gone cfg hits a).length = ((swept hits a.now).size + 1) / 2
  counters : ∀ e ∈ (swept hits a.now).entries, e ∉ gone cfg hits a → e.1 ≠ a.key →
    e ∈ (allowAsk cfg hits a).2.entries

/-- The half that goes is the one that closes first. -/
structure ShedsOldest (cfg : RateLimit) (hits : Hits) (a : Ask) : Prop
    extends ShedsHalf cfg hits a where
  oldest : ∀ e ∈ gone cfg hits a, ∀ e' ∈ (allowAsk cfg hits a).2.entries,
    e.2.resetAt ≤ e'.2.resetAt

/-- Where the half-eviction fires, room is made by dropping the older half of what has not
expired. -/
theorem makeRoom_of_sheds {hits : Hits} {a : Ask} (h : Sheds hits a) :
    makeRoom hits a.now =
      (swept hits a.now).dropFirst (((swept hits a.now).size + 1) / 2) := by
  have hfull : rlHardCap ≤ hits.size := h.2.trans (OrderedMap.size_retain_le _ _)
  rw [makeRoom, if_pos hfull]
  exact if_pos h.2

/-- Making room takes entries away, and leaves the others in their order. -/
theorem makeRoom_sublist (hits : Hits) (now : ℤ) :
    (makeRoom hits now).entries.Sublist hits.entries := by
  rw [makeRoom]
  split
  swap
  · exact List.Sublist.refl _
  dsimp only
  split
  · exact (List.drop_sublist _ _).trans List.filter_sublist
  · exact List.filter_sublist

/-- A `set` loses no key. -/
theorem mem_keys_set {hits : Hits} {key k : String} {w : Window}
    (h : k ∈ hits.entries.map Prod.fst) : k ∈ (hits.set key w).entries.map Prod.fst := by
  rw [OrderedMap.set, OrderedMap.map_fst_put]
  split
  · exact h
  · exact List.mem_append_left _ h

/-- A call that opens a window finds none that is open. -/
theorem key_not_mem_swept {hits : Hits} {a : Ask} (h : Opens hits a) :
    a.key ∉ (swept hits a.now).entries.map Prod.fst := by
  intro hmem
  obtain ⟨e, he, hfst⟩ := List.mem_map.mp hmem
  obtain ⟨hin, hlive⟩ := List.mem_filter.mp he
  have hexpired := h e.2 (OrderedMap.get_eq_some_iff.mpr (hfst ▸ hin))
  dsimp only at hlive
  rw [hexpired] at hlive
  cases hlive

/-- What is left of a full map, with the new window behind it. -/
theorem entries_allow_of_sheds (cfg : RateLimit) {hits : Hits} {a : Ask} (h : Sheds hits a) :
    (allowAsk cfg hits a).2.entries =
      youngerHalf hits a.now ++
        [(a.key, { count := 1, resetAt := a.now + cfg.windowMs.val })] := by
  rw [allow_of_opens h.1, openWindow, makeRoom_of_sheds h]
  refine OrderedMap.put_of_not_mem _ fun hmem => key_not_mem_swept h.1 ?_
  rw [OrderedMap.entries_dropFirst] at hmem
  exact ((List.drop_sublist _ _).map Prod.fst).subset hmem

/-- **What a full map sheds** is its older half. -/
theorem gone_of_sheds (cfg : RateLimit) {hits : Hits} {a : Ask} (h : Sheds hits a) :
    gone cfg hits a = olderHalf hits a.now := by
  have hnodup := (swept hits a.now).nodup
  rw [← halves, List.map_append, List.nodup_append] at hnodup
  have hkeys : (allowAsk cfg hits a).2.entries.map Prod.fst =
      (youngerHalf hits a.now).map Prod.fst ++ [a.key] := by
    rw [entries_allow_of_sheds cfg h, List.map_append, List.map_singleton]
  have hgoes : ∀ e ∈ olderHalf hits a.now,
      decide (e.1 ∉ (allowAsk cfg hits a).2.entries.map Prod.fst) = true := by
    intro e he
    rw [decide_eq_true_eq, hkeys, List.mem_append, not_or, List.mem_singleton]
    have hfst := List.mem_map_of_mem (f := Prod.fst) he
    refine ⟨fun hkept => hnodup.2.2 _ hfst _ hkept rfl, fun hown => ?_⟩
    refine key_not_mem_swept h.1 (hown ▸ ?_)
    exact ((List.take_sublist _ _).map Prod.fst).subset hfst
  have hstays : ∀ e ∈ youngerHalf hits a.now,
      ¬decide (e.1 ∉ (allowAsk cfg hits a).2.entries.map Prod.fst) = true := by
    intro e he hno
    rw [decide_eq_true_eq, hkeys] at hno
    exact hno (List.mem_append_left _ (List.mem_map_of_mem he))
  rw [gone, ← halves, List.filter_append, List.filter_eq_self.mpr hgoes,
    List.filter_eq_nil_iff.mpr hstays, List.append_nil]

/-- The open windows that are there when the window of the call is set or counted up. -/
theorem room_of_not_sheds (cfg : RateLimit) {hits : Hits} {a : Ask} (h : ¬Sheds hits a) :
    (allowAsk cfg hits a).2 = hits ∨ ∃ (room : Hits) (w : Window),
      (allowAsk cfg hits a).2 = room.set a.key w ∧
        ∀ e ∈ (swept hits a.now).entries, e ∈ room.entries := by
  have hsub : ∀ e ∈ (swept hits a.now).entries, e ∈ hits.entries :=
    fun e he => (List.mem_filter.mp he).1
  by_cases hopens : Opens hits a
  · rw [allow_of_opens hopens, openWindow]
    refine Or.inr ⟨_, _, rfl, fun e he => ?_⟩
    rcases makeRoom_of_not_sheds hopens h with heq | heq
    · rw [heq]
      exact hsub e he
    · rw [heq]
      exact he
  · simp only [Opens, not_forall] at hopens
    obtain ⟨w, hw, hopen⟩ := hopens
    rw [allow_of_open hw (by simpa using hopen)]
    split
    · exact Or.inl rfl
    · exact Or.inr ⟨hits, _, rfl, hsub⟩

/-- **With room, nothing goes.** -/
theorem gone_of_not_sheds (cfg : RateLimit) {hits : Hits} {a : Ask} (h : ¬Sheds hits a) :
    gone cfg hits a = [] := by
  refine List.filter_eq_nil_iff.mpr fun e he hno => ?_
  rw [decide_eq_true_eq] at hno
  rcases room_of_not_sheds cfg h with heq | ⟨room, w, heq, hroom⟩
  · rw [heq] at hno
    exact hno (List.mem_map_of_mem (List.mem_filter.mp he).1)
  · rw [heq] at hno
    exact hno (mem_keys_set (List.mem_map_of_mem (hroom e he)))

/-- **Whoever stays keeps its counter.** -/
theorem counters_kept (cfg : RateLimit) {hits : Hits} {a : Ask} {e : String × Window}
    (he : e ∈ (swept hits a.now).entries) (hstays : e ∉ gone cfg hits a) (hkey : e.1 ≠ a.key) :
    e ∈ (allowAsk cfg hits a).2.entries := by
  by_cases h : Sheds hits a
  · rw [gone_of_sheds cfg h] at hstays
    rw [entries_allow_of_sheds cfg h, List.mem_append]
    rw [← halves, List.mem_append] at he
    exact Or.inl (he.resolve_left hstays)
  · rcases room_of_not_sheds cfg h with heq | ⟨room, w, heq, hroom⟩
    · rw [heq]
      exact (List.mem_filter.mp he).1
    · rw [heq, OrderedMap.mem_set_iff]
      exact Or.inr ⟨hroom e he, hkey⟩

/-- Half of the open windows of a full map. -/
theorem length_olderHalf (hits : Hits) (now : ℤ) :
    (olderHalf hits now).length = ((swept hits now).size + 1) / 2 := by
  have hsize : (swept hits now).entries.length = (swept hits now).size := rfl
  rw [olderHalf, List.length_take, hsize]
  omega

/-- **Every call** spares the open windows or sheds the half in front. -/
theorem shedsHalf (cfg : RateLimit) (hits : Hits) (a : Ask) : ShedsHalf cfg hits a where
  spares := gone_of_not_sheds cfg
  front := gone_of_sheds cfg
  half hsheds := by rw [gone_of_sheds cfg hsheds, length_olderHalf]
  counters _ he hstays hkey := counters_kept cfg he hstays hkey

/-! ### When keys come in -/

/-- The map, and the time at which each key came into it. -/
structure Marked where
  hits : Hits
  inserted : String → ℤ

/-- An empty map. -/
def Marked.start : Marked := ⟨OrderedMap.empty, fun _ => 0⟩

/-- The call puts its key into the map, and not in an old place. -/
def inserts (hits : Hits) (a : Ask) : Bool :=
  match hits.get a.key with
  | none => true
  | some w => w.expired a.now && ((makeRoom hits a.now).get a.key).isNone

/-- `allow`, with the time of insertion kept beside the map. -/
def markedAllow (cfg : RateLimit) (s : Marked) (a : Ask) : Bool × Marked :=
  ((allowAsk cfg s.hits a).1, {
    hits := (allowAsk cfg s.hits a).2
    inserted := if inserts s.hits a then Function.update s.inserted a.key a.now
      else s.inserted })

/-- No window that the call sheds was opened in an old place: each is the one with which its
key came in. -/
def ShedsInserted (cfg : RateLimit) (s : Marked) (a : Ask) : Prop :=
  Sheds s.hits a →
    ∀ e ∈ olderHalf s.hits a.now, e.2.resetAt = s.inserted e.1 + cfg.windowMs.val

/-- A call that opens a window inserts its key unless the key has kept its place. -/
theorem inserts_of_opens {hits : Hits} {a : Ask} (h : Opens hits a) :
    inserts hits a = true ↔ a.key ∉ (makeRoom hits a.now).entries.map Prod.fst := by
  have hroom : ((makeRoom hits a.now).get a.key).isNone = true ↔
      a.key ∉ (makeRoom hits a.now).entries.map Prod.fst := by
    rw [Option.isNone_iff_eq_none, OrderedMap.get_eq_none_iff]
  rw [← hroom, inserts]
  cases hget : hits.get a.key with
  | some w => simp [h w hget]
  | none =>
      have hnone := OrderedMap.get_eq_none_iff.mp hget
      refine iff_of_true rfl (hroom.mpr fun hmem => hnone ?_)
      exact ((makeRoom_sublist hits a.now).map Prod.fst).subset hmem

/-- A call in an open window puts nothing into the map. -/
theorem inserts_of_open {hits : Hits} {a : Ask} {w : Window} (hw : hits.get a.key = some w)
    (hopen : w.expired a.now = false) : inserts hits a = false := by
  rw [inserts, hw]
  simp [hopen]

/-! ### The order of insertion -/

/-- The keys stand in the order in which they came in, all of it past, and no window closes
earlier than the one with which its key came in. -/
structure Aged (cfg : RateLimit) (now : ℤ) (hits : Hits) (inserted : String → ℤ) : Prop where
  ordered : (hits.entries.map Prod.fst).Pairwise fun k k' => inserted k ≤ inserted k'
  past : ∀ e ∈ hits.entries, inserted e.1 ≤ now
  lasting : ∀ e ∈ hits.entries, inserted e.1 + cfg.windowMs.val ≤ e.2.resetAt

section Aging

variable {cfg : RateLimit} {now : ℤ} {hits : Hits} {inserted : String → ℤ}

/-- The empty map is in order, with whatever times of insertion. -/
theorem aged_empty : Aged cfg now OrderedMap.empty inserted where
  ordered := List.Pairwise.nil
  past _ he := absurd he List.not_mem_nil
  lasting _ he := absurd he List.not_mem_nil

/-- Waiting leaves a map as much in order as it was. -/
theorem Aged.later {later : ℤ} (hle : now ≤ later) (h : Aged cfg now hits inserted) :
    Aged cfg later hits inserted :=
  ⟨h.ordered, fun e he => (h.past e he).trans hle, h.lasting⟩

/-- Deleting entries keeps the order. -/
theorem Aged.sublist (h : Aged cfg now hits inserted) {hits' : Hits}
    (hsub : hits'.entries.Sublist hits.entries) : Aged cfg now hits' inserted where
  ordered := h.ordered.sublist (hsub.map _)
  past e he := h.past e (hsub.subset he)
  lasting e he := h.lasting e (hsub.subset he)

/-- A window in an old place. -/
theorem Aged.setOld (h : Aged cfg now hits inserted) {key : String} {w : Window}
    (hkey : key ∈ hits.entries.map Prod.fst)
    (hw : inserted key + cfg.windowMs.val ≤ w.resetAt) :
    Aged cfg now (hits.set key w) inserted where
  ordered := by
    have hkeys := OrderedMap.map_fst_put key w hits.entries
    rw [if_pos hkey] at hkeys
    rw [OrderedMap.set, hkeys]
    exact h.ordered
  past e he := by
    rcases OrderedMap.mem_set_iff.mp he with rfl | ⟨he, -⟩
    · obtain ⟨e', he', rfl⟩ := List.mem_map.mp hkey
      exact h.past e' he'
    · exact h.past e he
  lasting e he := by
    rcases OrderedMap.mem_set_iff.mp he with rfl | ⟨he, -⟩
    · exact hw
    · exact h.lasting e he

/-- A window with a new key. -/
theorem Aged.setNew (h : Aged cfg now hits inserted) {key : String} {w : Window}
    (hkey : key ∉ hits.entries.map Prod.fst) (hw : now + cfg.windowMs.val ≤ w.resetAt) :
    Aged cfg now (hits.set key w) (Function.update inserted key now) := by
  have hold : ∀ k ∈ hits.entries.map Prod.fst, Function.update inserted key now k = inserted k := by
    intro k hk
    refine Function.update_of_ne ?_ _ _
    rintro rfl
    exact hkey hk
  have hset : (hits.set key w).entries = hits.entries ++ [(key, w)] :=
    OrderedMap.put_of_not_mem w hkey
  refine ⟨?_, ?_, ?_⟩
  · rw [hset, List.map_append, List.pairwise_append]
    refine ⟨?_, List.pairwise_singleton _ _, ?_⟩
    · refine h.ordered.imp_of_mem fun hk hk' hle => ?_
      rwa [hold _ hk, hold _ hk']
    · intro k hk k' hk'
      obtain rfl : k' = key := List.mem_singleton.mp hk'
      obtain ⟨e, he, rfl⟩ := List.mem_map.mp hk
      rw [hold _ hk, Function.update_self]
      exact h.past e he
  · intro e he
    rw [hset, List.mem_append, List.mem_singleton] at he
    rcases he with he | rfl
    · rw [hold _ (List.mem_map_of_mem he)]
      exact h.past e he
    · rw [Function.update_self]
  · intro e he
    rw [hset, List.mem_append, List.mem_singleton] at he
    rcases he with he | rfl
    · rw [hold _ (List.mem_map_of_mem he)]
      exact h.lasting e he
    · rw [Function.update_self]
      exact hw

end Aging

/-- **One call** keeps the order of insertion. -/
theorem Aged.allow {cfg : RateLimit} {s : Marked} {a : Ask}
    (h : Aged cfg a.now s.hits s.inserted) :
    Aged cfg a.now (markedAllow cfg s a).2.hits (markedAllow cfg s a).2.inserted := by
  rw [markedAllow]
  dsimp only
  by_cases hopens : Opens s.hits a
  · have hroom := h.sublist (makeRoom_sublist s.hits a.now)
    rw [allow_of_opens hopens, openWindow]
    by_cases hkey : a.key ∈ (makeRoom s.hits a.now).entries.map Prod.fst
    · rw [if_neg fun hins => (inserts_of_opens hopens).mp hins hkey]
      obtain ⟨e, he, hfst⟩ := List.mem_map.mp hkey
      have hpast : (s.inserted a.key : ℚ) ≤ a.now := by
        rw [← hfst]
        exact_mod_cast hroom.past e he
      exact hroom.setOld hkey (by linarith)
    · rw [if_pos ((inserts_of_opens hopens).mpr hkey)]
      exact hroom.setNew hkey le_rfl
  · simp only [Opens, not_forall] at hopens
    obtain ⟨w, hw, hopen⟩ := hopens
    have hopen : w.expired a.now = false := by simpa using hopen
    have hmem : (a.key, w) ∈ s.hits.entries := OrderedMap.get_eq_some_iff.mp hw
    rw [allow_of_open hw hopen, inserts_of_open hw hopen]
    split
    · exact h
    · exact h.setOld (List.mem_map_of_mem hmem) (h.lasting _ hmem)

/-- **What a call sheds** closes first, if it is in the window with which it came in. -/
theorem Aged.shedsOldest {cfg : RateLimit} {s : Marked} {a : Ask}
    (h : Aged cfg a.now s.hits s.inserted) (hins : ShedsInserted cfg s a) :
    ShedsOldest cfg s.hits a where
  toShedsHalf := shedsHalf cfg s.hits a
  oldest e he e' he' := by
    by_cases hsheds : Sheds s.hits a
    swap
    · rw [gone_of_not_sheds cfg hsheds] at he
      cases he
    rw [gone_of_sheds cfg hsheds] at he
    rw [hins hsheds e he]
    have hsub : (swept s.hits a.now).entries.Sublist s.hits.entries := List.filter_sublist
    rw [entries_allow_of_sheds cfg hsheds, List.mem_append, List.mem_singleton] at he'
    rcases he' with he' | rfl
    · -- Both have been there: the one that goes came in first.
      have hordered := (h.sublist hsub).ordered
      rw [← halves, List.map_append, List.pairwise_append] at hordered
      have hle : (s.inserted e.1 : ℚ) ≤ s.inserted e'.1 := by
        exact_mod_cast hordered.2.2 _ (List.mem_map_of_mem he) _ (List.mem_map_of_mem he')
      have hlasting := h.lasting e' (hsub.subset (List.mem_of_mem_drop he'))
      linarith
    · have hpast : (s.inserted e.1 : ℚ) ≤ a.now := by
        exact_mod_cast h.past e (hsub.subset (List.mem_of_mem_take he))
      exact add_le_add_left hpast _

/-! ### Runs -/

/-- The times of insertion are kept beside the run and do not touch it. -/
theorem meets_markedAllow_iff {cfg : RateLimit} {P : Hits → Ask → Prop} {s : Marked}
    {asks : List Ask} : Meets (markedAllow cfg) (fun s a => P s.hits a) s asks ↔
      Meets (allowAsk cfg) P s.hits asks := by
  induction asks generalizing s with
  | nil => exact Iff.rfl
  | cons a asks ih =>
      rw [Meets, Meets, ih]
      rfl

/-- The map never outgrows its cap, in any run. -/
theorem meets_size_le (cfg : RateLimit) {hits : Hits} (h : hits.size ≤ rlHardCap)
    (asks : List Ask) :
    Meets (allowAsk cfg) (fun hits a => (allowAsk cfg hits a).2.size ≤ rlHardCap) hits asks := by
  induction asks generalizing hits with
  | nil => trivial
  | cons a asks ih =>
      have hsize := size_allow_le cfg a.key a.now h
      exact ⟨hsize, ih hsize⟩

/-- Every window is the one with which its key came in. -/
def Marked.Fresh (cfg : RateLimit) (s : Marked) : Prop :=
  ∀ e ∈ s.hits.entries, e.2.resetAt = s.inserted e.1 + cfg.windowMs.val

/-- A call with a new key. -/
theorem Marked.Fresh.allow {cfg : RateLimit} {s : Marked} (h : s.Fresh cfg) {a : Ask}
    (hnew : a.key ∉ s.hits.entries.map Prod.fst) :
    (markedAllow cfg s a).2.Fresh cfg ∧
      ∀ k ∈ (markedAllow cfg s a).2.hits.entries.map Prod.fst,
        k ∈ s.hits.entries.map Prod.fst ∨ k = a.key := by
  have hopens : Opens s.hits a := by
    intro w hw
    rw [OrderedMap.get_eq_none_iff.mpr hnew] at hw
    cases hw
  have hsub := makeRoom_sublist s.hits a.now
  have hroom : a.key ∉ (makeRoom s.hits a.now).entries.map Prod.fst :=
    fun hmem => hnew ((hsub.map Prod.fst).subset hmem)
  rw [markedAllow, if_pos ((inserts_of_opens hopens).mpr hroom), allow_of_opens hopens, openWindow]
  refine ⟨fun e he => ?_, fun k hk => ?_⟩
  · rcases OrderedMap.mem_set_iff.mp he with rfl | ⟨he, hne⟩
    · dsimp only
      rw [Function.update_self]
    · dsimp only
      rw [Function.update_of_ne hne]
      exact h e (hsub.subset he)
  · obtain ⟨e, he, rfl⟩ := List.mem_map.mp hk
    rcases OrderedMap.mem_set_iff.mp he with rfl | ⟨he, -⟩
    · exact Or.inr rfl
    · exact Or.inl (List.mem_map_of_mem (hsub.subset he))

/-- **Where no key comes twice**, nothing is opened in an old place. -/
theorem meets_shedsInserted {cfg : RateLimit} {asks : List Ask} (hnodup : (asks.map Ask.key).Nodup)
    {s : Marked} (h : s.Fresh cfg) (hnew : ∀ a ∈ asks, a.key ∉ s.hits.entries.map Prod.fst) :
    Meets (markedAllow cfg) (ShedsInserted cfg) s asks := by
  induction asks generalizing s with
  | nil => trivial
  | cons a asks ih =>
      rw [List.map_cons, List.nodup_cons] at hnodup
      obtain ⟨hfresh, hkeys⟩ := h.allow (hnew a List.mem_cons_self)
      refine ⟨fun _ e he => h e ?_, ih hnodup.2 hfresh fun b hb hmem => ?_⟩
      · exact (List.mem_filter.mp (List.mem_of_mem_take he)).1
      · rcases hkeys b.key hmem with hold | hsame
        · exact hnew b (List.mem_cons_of_mem _ hb) hold
        · exact hnodup.1 (hsame ▸ List.mem_map_of_mem hb)

/-! ### A key in an old place -/

/-- A new key in a map with room goes to the end. -/
theorem entries_allow_new (cfg : RateLimit) {hits : Hits} {a : Ask}
    (hkey : a.key ∉ hits.entries.map Prod.fst) (hroom : hits.size < rlHardCap) :
    (allowAsk cfg hits a).2.entries =
      hits.entries ++ [(a.key, { count := 1, resetAt := a.now + cfg.windowMs.val })] := by
  have hopens : Opens hits a := by
    intro w hw
    rw [OrderedMap.get_eq_none_iff.mpr hkey] at hw
    cases hw
  rw [allow_of_opens hopens, openWindow, makeRoom, if_neg (not_le.mpr hroom)]
  exact OrderedMap.put_of_not_mem _ hkey

/-- A new key in a full map of open windows. -/
theorem sheds_of_full {hits : Hits} {a : Ask} (hkey : a.key ∉ hits.entries.map Prod.fst)
    (hfull : hits.size = rlHardCap) (hopen : ∀ e ∈ hits.entries, e.2.expired a.now = false) :
    Sheds hits a ∧ (swept hits a.now).entries = hits.entries := by
  have hswept : (swept hits a.now).entries = hits.entries := by
    rw [swept, OrderedMap.retain, List.filter_eq_self]
    intro e he
    rw [hopen e he]
    rfl
  refine ⟨⟨fun w hw => ?_, ?_⟩, hswept⟩
  · rw [OrderedMap.get_eq_none_iff.mpr hkey] at hw
    cases hw
  · change rlHardCap ≤ (swept hits a.now).entries.length
    rw [hswept]
    exact hfull.ge

/-- A flood of new keys, as long as there is room. -/
theorem entries_after_flood (cfg : RateLimit) (now : ℤ) {keys : List String} (hnodup : keys.Nodup)
    {hits : Hits} (hnew : ∀ key ∈ keys, key ∉ hits.entries.map Prod.fst)
    (hroom : hits.size + keys.length ≤ rlHardCap) :
    (after (allowAsk cfg) hits (keys.map fun key => ⟨key, now⟩)).entries =
      hits.entries ++
        keys.map fun key => (key, { count := 1, resetAt := now + cfg.windowMs.val }) := by
  induction keys generalizing hits with
  | nil => simp
  | cons key keys ih =>
      rw [List.nodup_cons] at hnodup
      rw [List.length_cons] at hroom
      have hentries := entries_allow_new cfg (a := ⟨key, now⟩) (hnew key List.mem_cons_self)
        (by omega)
      rw [List.map_cons, after_cons, ih hnodup.2, hentries, List.map_cons, List.append_assoc,
        List.singleton_append]
      · intro key' hkey'
        rw [hentries, List.map_append, List.mem_append, not_or]
        refine ⟨hnew key' (List.mem_cons_of_mem _ hkey'), ?_⟩
        simp only [List.map_cons, List.map_nil, List.mem_singleton]
        rintro rfl
        exact hnodup.1 hkey'
      · rw [OrderedMap.size, hentries, List.length_append, List.length_singleton,
          ← OrderedMap.size]
        omega

/-- The client with a number. -/
def client (n : ℕ) : String :=
  String.ofList (List.replicate n 'k')

/-- Clients of different numbers are different clients. -/
theorem client_injective : Function.Injective client := by
  intro m n h
  have hlists := String.ofList_injective h
  simpa using congrArg List.length hlists

/-- The clients from `1` to `n`. -/
def clients (n : ℕ) : List String :=
  (List.range n).map fun i => client (i + 1)

/-- No client is listed twice. -/
theorem nodup_clients (n : ℕ) : (clients n).Nodup :=
  List.nodup_range.map fun _ _ h => Nat.succ_injective (client_injective h)

/-- The clients up to `n` are those of a number from `1` to `n`. -/
theorem mem_clients_iff {m n : ℕ} : client m ∈ clients n ↔ 1 ≤ m ∧ m ≤ n := by
  rw [clients, List.mem_map]
  constructor
  · rintro ⟨i, hi, heq⟩
    have := client_injective heq
    have := List.mem_range.mp hi
    omega
  · rintro ⟨h1, hn⟩
    exact ⟨m - 1, List.mem_range.mpr (by omega), by rw [Nat.sub_add_cancel h1]⟩

/-- A limit of one request is one that the configuration takes. -/
theorem one_request_pos : (0 : ℚ) < 1 := zero_lt_one

/-- And a window of a second is one. -/
theorem one_second_pos : (0 : ℚ) < 1000 := by norm_num

/-- One request in a second. -/
def oncePerSecond : RateLimit :=
  { limit := ⟨1, one_request_pos⟩, windowMs := ⟨1000, one_second_pos⟩ }

/-- The map fills up: half of the clients come at `0`, the others at `500`. -/
def crowd (m : ℕ) : List Ask :=
  ((clients (m + m)).take m).map (fun key => ⟨key, 0⟩) ++
    ((clients (m + m)).drop m).map fun key => ⟨key, 500⟩

/-- The map that they leave. -/
theorem entries_crowd {m : ℕ} (hm : m + m = rlHardCap) :
    (after (allowAsk oncePerSecond) OrderedMap.empty (crowd m)).entries =
      ((clients (m + m)).take m).map (fun key => (key, { count := 1, resetAt := 1000 })) ++
        ((clients (m + m)).drop m).map fun key => (key, { count := 1, resetAt := 1500 }) := by
  have hwindow : oncePerSecond.windowMs.val = 1000 := rfl
  have hlen : (clients (m + m)).length = m + m := by
    rw [clients, List.length_map, List.length_range]
  have hnodup := nodup_clients (m + m)
  rw [← List.take_append_drop m (clients (m + m)), List.nodup_append] at hnodup
  have hfirst : (after (allowAsk oncePerSecond) OrderedMap.empty
      (((clients (m + m)).take m).map fun key => ⟨key, 0⟩)).entries =
        ((clients (m + m)).take m).map fun key => (key, { count := 1, resetAt := 1000 }) := by
    rw [entries_after_flood _ _ hnodup.1, hwindow]
    · norm_num [OrderedMap.empty]
    · exact fun key _ => List.not_mem_nil
    · rw [List.length_take, hlen, ← hm]
      change 0 + _ ≤ _
      omega
  rw [crowd, after_append, entries_after_flood _ _ hnodup.2.1, hfirst, hwindow]
  · norm_num
  · intro key hkey hmem
    rw [hfirst, List.map_map] at hmem
    obtain ⟨key', hkey', rfl⟩ := List.mem_map.mp hmem
    exact hnodup.2.2 _ hkey' _ hkey rfl
  · rw [OrderedMap.size, hfirst, List.length_map, List.length_take, List.length_drop, hlen, ← hm]
    omega

/-- The crowd is the clients, one after the other. -/
theorem keys_crowd (m : ℕ) : (crowd m).map Ask.key = clients (m + m) := by
  rw [crowd, List.map_append, List.map_map, List.map_map]
  change ((clients (m + m)).take m).map id ++ ((clients (m + m)).drop m).map id = _
  rw [List.map_id, List.map_id, List.take_append_drop]

/-- The keys of the map that it leaves are these clients. -/
theorem map_fst_crowd {m : ℕ} (hm : m + m = rlHardCap) :
    (after (allowAsk oncePerSecond) OrderedMap.empty (crowd m)).entries.map Prod.fst =
      clients (m + m) := by
  rw [entries_crowd hm, List.map_append, List.map_map, List.map_map]
  change ((clients (m + m)).take m).map id ++ ((clients (m + m)).drop m).map id = _
  rw [List.map_id, List.map_id, List.take_append_drop]

/-- A newcomer at `600` is behind the crowd. -/
theorem inOrder_crowd (m : ℕ) (key : String) : InOrder Ask.now (crowd m ++ [⟨key, 600⟩]) := by
  have htimes : ∀ a ∈ crowd m, a.now = 0 ∨ a.now = 500 := by
    intro a ha
    rcases List.mem_append.mp ha with ha | ha
    · obtain ⟨key, -, rfl⟩ := List.mem_map.mp ha
      exact Or.inl rfl
    · obtain ⟨key, -, rfl⟩ := List.mem_map.mp ha
      exact Or.inr rfl
  rw [InOrder, List.pairwise_append]
  refine ⟨?_, List.pairwise_singleton _ _, fun a ha b hb => ?_⟩
  · rw [crowd, List.pairwise_append]
    refine ⟨?_, ?_, fun a ha b hb => ?_⟩
    · exact List.pairwise_map.mpr (List.pairwise_of_forall fun _ _ => le_rfl)
    · exact List.pairwise_map.mpr (List.pairwise_of_forall fun _ _ => le_rfl)
    · obtain ⟨key, -, rfl⟩ := List.mem_map.mp ha
      obtain ⟨key', -, rfl⟩ := List.mem_map.mp hb
      change (0 : ℤ) ≤ 500
      decide
  · obtain rfl := List.mem_singleton.mp hb
    change a.now ≤ 600
    rcases htimes a ha with htime | htime <;> omega

/-- Client `0` comes first, and comes back when its window has expired and all but two
places are taken by others, whose windows opened a millisecond earlier. Then the map fills up
and overflows. -/
def refreshedRun : List Ask :=
  ⟨client 0, 0⟩ :: (clients (rlHardCap - 2)).map (fun key => ⟨key, 999⟩) ++
    [⟨client 0, 1000⟩, ⟨client (rlHardCap - 1), 1001⟩, ⟨client rlHardCap, 1001⟩]

/-- A key with an expired window in a map with room keeps its place. -/
theorem allow_of_expired (cfg : RateLimit) {hits : Hits} {a : Ask} (hopens : Opens hits a)
    (hroom : hits.size < rlHardCap) :
    (allowAsk cfg hits a).2 =
      hits.set a.key { count := 1, resetAt := a.now + cfg.windowMs.val } := by
  rw [allow_of_opens hopens, openWindow, makeRoom, if_neg (not_le.mpr hroom)]

/-- The windows of the clients from `1` to `n`, all opened at `999`. -/
def flood (n : ℕ) : List (String × Window) :=
  (clients n).map fun key => (key, { count := 1, resetAt := 1999 })

/-- An entry of the flood is a window of one of the clients, opened at `999`. -/
theorem mem_flood {n : ℕ} {e : String × Window} (h : e ∈ flood n) :
    ∃ m, 1 ≤ m ∧ m ≤ n ∧ e = (client m, { count := 1, resetAt := 1999 }) := by
  obtain ⟨key, hkey, rfl⟩ := List.mem_map.mp h
  obtain ⟨i, hi, rfl⟩ := List.mem_map.mp hkey
  exact ⟨i + 1, Nat.le_add_left 1 i, List.mem_range.mp hi, rfl⟩

/-- The keys of the flood are the clients. -/
theorem map_fst_flood (n : ℕ) : (flood n).map Prod.fst = clients n := by
  rw [flood, List.map_map]
  exact List.map_id _

/-- The flood has as many entries as there are clients. -/
theorem length_flood (n : ℕ) : (flood n).length = n := by
  rw [flood, clients, List.length_map, List.length_map, List.length_range]

/-- The map of the run before it overflows. -/
theorem entries_refreshedRun {n : ℕ} (hn : rlHardCap = n + 2) :
    (after (allowAsk oncePerSecond) OrderedMap.empty
      (⟨client 0, 0⟩ :: (clients n).map (fun key => ⟨key, 999⟩) ++
        [⟨client 0, 1000⟩, ⟨client (n + 1), 1001⟩])).entries =
      (client 0, { count := 1, resetAt := 2000 }) :: flood n ++
        [(client (n + 1), { count := 1, resetAt := 2001 })] := by
  have hwindow : oncePerSecond.windowMs.val = 1000 := rfl
  have hlen : (clients n).length = n := by rw [clients, List.length_map, List.length_range]
  rw [after_append, after_cons]
  -- The first client, and the flood behind it.
  set first := (allowAsk oncePerSecond OrderedMap.empty ⟨client 0, 0⟩).2 with hfirst
  have h1 : first.entries = [(client 0, { count := 1, resetAt := 1000 })] := by
    rw [hfirst, entries_allow_new _ List.not_mem_nil (by rw [hn]; exact Nat.succ_pos _), hwindow]
    norm_num [OrderedMap.empty]
  have hzero : client 0 ∉ clients n := by
    rw [mem_clients_iff]
    omega
  set flooded := after (allowAsk oncePerSecond) first ((clients n).map fun key => ⟨key, 999⟩)
    with hflooded
  have h2 : flooded.entries = (client 0, { count := 1, resetAt := 1000 }) :: flood n := by
    rw [hflooded, entries_after_flood _ _ (nodup_clients n), h1, hwindow, flood]
    · norm_num
    · intro key hkey
      rw [h1, List.map_singleton, List.mem_singleton]
      rintro rfl
      exact hzero hkey
    · rw [OrderedMap.size, h1, hlen, hn, List.length_singleton]
      omega
  have hsize : flooded.size = n + 1 := by
    rw [OrderedMap.size, h2, List.length_cons, length_flood]
  rw [after_cons, after_cons, after_nil]
  -- The first client again, in its old place.
  have hopens : Opens flooded ⟨client 0, 1000⟩ := by
    intro w hw
    have hget : flooded.get (client 0) = some { count := 1, resetAt := 1000 } := by
      rw [OrderedMap.get_eq_some_iff, h2]
      exact List.mem_cons_self
    obtain rfl := Option.some.inj (hget.symm.trans hw)
    simp [Window.expired]
  have h3 : (allowAsk oncePerSecond flooded ⟨client 0, 1000⟩).2.entries =
      (client 0, { count := 1, resetAt := 2000 }) :: flood n := by
    rw [allow_of_expired _ hopens (by omega), OrderedMap.set]
    dsimp only
    rw [h2, OrderedMap.put, if_pos rfl, hwindow]
    norm_num
  rw [entries_allow_new, h3, hwindow]
  · norm_num
  · rw [h3, List.map_cons, map_fst_flood, List.mem_cons, mem_clients_iff, not_or]
    exact ⟨fun h => absurd (client_injective h) (by omega), by omega⟩
  · rw [OrderedMap.size, h3, List.length_cons, length_flood]
    omega

/-- The clients of that map, and when their windows close. -/
theorem mem_refreshedRun {n : ℕ} {e : String × Window}
    (h : e ∈ (client 0, ({ count := 1, resetAt := 2000 } : Window)) :: flood n ++
      [(client (n + 1), { count := 1, resetAt := 2001 })]) :
    e = (client 0, { count := 1, resetAt := 2000 }) ∨
      (∃ m, 1 ≤ m ∧ m ≤ n ∧ e = (client m, { count := 1, resetAt := 1999 })) ∨
        e = (client (n + 1), { count := 1, resetAt := 2001 }) := by
  rw [List.cons_append, List.mem_cons, List.mem_append, List.mem_singleton] at h
  exact h.imp_right fun h => h.imp_left mem_flood

/-- The calls of the run are in time order. -/
theorem inOrder_refreshedRun : InOrder Ask.now refreshedRun := by
  have hflood : ∀ a ∈ (clients (rlHardCap - 2)).map (fun key => (⟨key, 999⟩ : Ask)),
      a.now = 999 := by
    intro a ha
    obtain ⟨key, -, rfl⟩ := List.mem_map.mp ha
    rfl
  rw [refreshedRun, InOrder, List.pairwise_append, List.pairwise_cons]
  refine ⟨⟨?_, ?_⟩, by simp, ?_⟩
  · intro a ha
    rw [hflood a ha]
    decide
  · refine List.pairwise_map.mpr (List.pairwise_of_forall fun _ _ => le_rfl)
  · intro a ha b hb
    have hle : a.now ≤ 999 := by
      rcases List.mem_cons.mp ha with rfl | ha
      · decide
      · exact (hflood a ha).le
    have hge : 1000 ≤ b.now := by
      simp only [List.mem_cons, List.not_mem_nil, or_false] at hb
      rcases hb with rfl | rfl | rfl <;> decide
    omega

end EightEen
