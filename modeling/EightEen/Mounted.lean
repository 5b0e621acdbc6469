import EightEen.FairShare

/-!
# Gates in One Application

Several gates of `src/gate.js` in one application, each `app.use(gate.express())`. The
middleware of a gate is its `handle` with `next` for the requests it does not match, so a
request runs through the gates in the order they were mounted in until one does not let it
pass, and behind them all is the application itself. All of this happens before the first
`await` of `handle`; from there on a request is served as in `EightEen.Serving`.

The framework is not part of the repository. What it does with the middlewares of `app.use` is a
parameter (`Framework`), with what its documentation says for hypotheses
(`Framework.RunsInOrder`): it calls them in their order, each with the rest of them for its
`next`, and calls none for a URL that it cannot read itself.

## Main results

* `handle_of_passes`, `handle_of_not_passes`: `handle` calls `onUnmatched` exactly for the
  requests that the gate lets pass.
* `Site.each_at_its_mount`: every request is served by the first gate that does not let it
  pass, as if alone, or goes on behind the gates, once.
* `Site.order_is_immaterial`: gates with different mount points can be mounted in any order.
-/

open Js Transition

namespace EightEen

/-! ### What a gate lets pass -/

/-- The gate calls `onUnmatched`: the URL can be read, and its path is neither of the routes. -/
def passes (p : Platform) {g : Gate} (mount : Mount g) (req : Request) : Bool :=
  match p.urlPathname (req.url.getD "/") with
  | none => false
  | some pathname => (matchRoute pathname.toList mount.val.toList).isNone

section Passes

variable {p : Platform} {g : Gate} {mount : Mount g}

/-- What a gate lets pass is left to `onUnmatched`. -/
theorem handle_of_passes {req : Request} (h : passes p mount req = true)
    (verifier : VerifierMethods) (now : TimeValue) (onUnmatched : Stretch) :
    handle p g mount verifier now req onUnmatched = onUnmatched := by
  funext w
  rw [passes] at h
  rw [handle]
  cases hpath : p.urlPathname (req.url.getD "/") with
  | none =>
      rw [hpath] at h
      cases h
  | some pathname =>
      rw [hpath] at h
      dsimp only
      rw [Option.isNone_iff_eq_none.mp h]

/-- What it does not let pass never gets to `onUnmatched`. -/
theorem handle_of_not_passes {req : Request} (h : passes p mount req = false)
    (verifier : VerifierMethods) (now : TimeValue) (onUnmatched onUnmatched' : Stretch) :
    handle p g mount verifier now req onUnmatched =
      handle p g mount verifier now req onUnmatched' := by
  funext w
  rw [passes] at h
  rw [handle, handle]
  cases hpath : p.urlPathname (req.url.getD "/") with
  | none => rfl
  | some pathname =>
      rw [hpath] at h
      dsimp only
      cases hroute : matchRoute pathname.toList mount.val.toList with
      | none => simp [hroute] at h
      | some which => rfl

/-- A gate lets a request pass that has a path and no route. -/
theorem passes_iff {req : Request} :
    passes p mount req = true ↔
      p.urlPathname (req.url.getD "/") ≠ none ∧ routeOf p mount req = none := by
  rw [passes, routeOf]
  cases p.urlPathname (req.url.getD "/") with
  | none => simp
  | some pathname => simp

end Passes

/-- `CHALLENGE` and `VERIFY`. -/
def Route.suffix : Route → List Char
  | challenge => "/challenge".toList
  | verify => "/verify".toList

/-- A route is one path below the mount point. -/
theorem matchRoute_eq_some_iff {pathname basePath : List Char} {which : Route} :
    matchRoute pathname basePath = some which ↔ pathname = basePath ++ which.suffix := by
  cases which with
  | verify => exact matchRoute_eq_verify_iff
  | challenge =>
      refine ⟨fun h => ?_, fun h => ?_⟩
      · rw [matchRoute] at h
        cases hrest : stripLiteral basePath pathname with
        | none => simp [hrest] at h
        | some rest =>
            rw [stripLiteral_eq_some_iff.mp hrest]
            rw [hrest] at h
            dsimp only at h
            by_cases hempty : rest = []
            · rw [hempty] at h
              exact absurd h (by decide)
            · rw [if_neg hempty] at h
              split at h
              · next hpath =>
                  rw [hpath]
                  rfl
              · split at h <;> cases h
      · rw [h, matchRoute, stripLiteral_eq_some_iff.mpr rfl]
        decide

/-- The two suffixes end differently. -/
theorem Route.suffix_injective {which which' : Route} {base base' : List Char}
    (h : base ++ which.suffix = base' ++ which'.suffix) : which = which' := by
  have hlast (which : Route) (base : List Char) :
      (base ++ which.suffix).getLast? = which.suffix.getLast? := by
    rw [List.getLast?_append_of_ne_nil]
    cases which <;> decide
  have hends : which.suffix.getLast? = which'.suffix.getLast? := by
    rw [← hlast which base, h, hlast]
  cases which <;> cases which' <;> first | rfl | exact absurd hends (by decide)

/-- **No request is for two mount points.** -/
theorem mount_unique {p : Platform} {g g' : Gate} {mount : Mount g} {mount' : Mount g'}
    {req : Request} {which which' : Route} (h : routeOf p mount req = some which)
    (h' : routeOf p mount' req = some which') : mount.val = mount'.val := by
  obtain ⟨pathname, hpath, hroute⟩ := Option.bind_eq_some_iff.mp h
  obtain ⟨pathname', hpath', hroute'⟩ := Option.bind_eq_some_iff.mp h'
  obtain rfl := Option.some.inj (hpath.symm.trans hpath')
  rw [matchRoute_eq_some_iff] at hroute hroute'
  have heq := hroute.symm.trans hroute'
  obtain rfl := Route.suffix_injective heq
  exact String.toList_inj.mp (List.append_cancel_right heq)

/-! ### The application -/

/-- A middleware, as what it does when it is called with `next`. -/
abbrev Middleware (σ : Type) := (σ → σ) → σ → σ

/-- The framework of an application: whether it can read the URL of a request, and what it does
with the middlewares of `app.use` and with what is behind them. -/
structure Framework (σ : Type) where
  reads : Request → Bool
  dispatch : List (Middleware σ) → Request → (σ → σ) → σ → σ

/-- The middlewares are called in the order of `app.use`, each with the rest of them for its
`next`. None is called for a request whose URL the framework cannot read. -/
structure Framework.RunsInOrder {σ : Type} (fw : Framework σ) : Prop where
  behind : ∀ req done, fw.dispatch [] req done = done
  next : ∀ middleware rest req done, fw.reads req = true →
    fw.dispatch (middleware :: rest) req done = middleware (fw.dispatch rest req done)
  unread : ∀ stack req done, fw.reads req = false → fw.dispatch stack req done = done

variable {ι : Type} {p : Platform} {secret : Value} {S : NonceStore}

/-- The gates of an application, and the requests that have gone on behind them: to the
application, or to the answer of the framework itself. -/
structure Site (ι : Type) (secret : Value) (S : NonceStore) where
  clock : ℤ
  serving : Serving ι secret S
  passed : List (ℕ × Request)

namespace Site

variable {fw : Framework (Site ι secret S)} {doors : ι → Door secret}

/-- The first gate of the stack that does not let the request pass, if the framework calls the
gates at all. -/
def served (p : Platform) (reads : Request → Bool) (doors : ι → Door secret) (stack : List ι)
    (req : Request) : Option ι :=
  if reads req then stack.find? fun k => !passes p (doors k).mount req else none

/-- The gate that serves a request is one of the stack, and does not let it pass. -/
theorem mem_of_served {reads : Request → Bool} {stack : List ι} {req : Request} {k : ι}
    (h : served p reads doors stack req = some k) :
    k ∈ stack ∧ passes p (doors k).mount req = false := by
  rw [served] at h
  split at h
  · exact ⟨List.mem_of_find?_eq_some h, by simpa using List.find?_some h⟩
  · cases h

/-- What none of them serves, each lets pass, if the framework calls them. -/
theorem passes_of_served {reads : Request → Bool} {stack : List ι} {req : Request}
    (h : served p reads doors stack req = none) (hreads : reads req = true) {k : ι}
    (hk : k ∈ stack) : passes p (doors k).mount req = true := by
  rw [served, if_pos hreads] at h
  simpa using List.find?_eq_none.mp h k hk

section Stack

variable [DecidableEq ι]

/-- Before any request. -/
def init (ι : Type) (secret : Value) (S : NonceStore) : Site ι secret S where
  clock := -maxTime
  serving := Serving.init ι secret S
  passed := []

/-- The middleware of gate `k`, up to the first `await` of its `handle`. -/
def express (p : Platform) (doors : ι → Door secret) (time : TimeValue) (i : ℕ) (req : Request)
    (random : RandomBytes) (k : ι) (next : Site ι secret S → Site ι secret S) :
    Site ι secret S → Site ι secret S := fun s =>
  if passes p (doors k).mount req then next s
  else { s with serving := s.serving.enroll p doors time i k req random }

/-- What the application does with a request: the gates are what `app.use` was called with. -/
def dispatch (p : Platform) (fw : Framework (Site ι secret S)) (doors : ι → Door secret)
    (stack : List ι) (time : TimeValue) (i : ℕ) (req : Request) (random : RandomBytes) :
    Site ι secret S → Site ι secret S :=
  fw.dispatch (stack.map (express p doors time i req random)) req
    fun s => { s with passed := s.passed ++ [(i, req)] }

/-- One event. A number is used for one request, whoever gets it; what becomes of a request
that has gone on is not followed. -/
def visit (p : Platform) (fw : Framework (Site ι secret S)) (doors : ι → Door secret)
    (stack : List ι) (s : Site ι secret S) (e : Traffic Unit) : Option (Site ι secret S) :=
  let attended (what : Incident ι) : Option (Site ι secret S) :=
    (attend p doors s.serving ⟨e.time, what⟩).map fun serving =>
      { s with clock := e.time, serving }
  if e.time.val < s.clock then none
  else
    match e.what with
    | .request i _ req random =>
        if (s.serving.handlings i).isSome ∨ i ∈ s.passed.map Prod.fst then none
        else some { dispatch p fw doors stack e.time i req random s with clock := e.time }
    | .body i event => attended (.body i event)
    | .reply i outcome => attended (.reply i outcome)
    | .spend i => attended (.spend i)

/-- **The middlewares, put together**: the first gate that does not let the request pass
serves it, and the others do not notice. -/
theorem dispatch_eq (hfw : fw.RunsInOrder) (stack : List ι) (time : TimeValue) (i : ℕ)
    (req : Request) (random : RandomBytes) (s : Site ι secret S) :
    dispatch p fw doors stack time i req random s =
      match served p fw.reads doors stack req with
      | some k => { s with serving := s.serving.enroll p doors time i k req random }
      | none => { s with passed := s.passed ++ [(i, req)] } := by
  cases hreads : fw.reads req with
  | false =>
      rw [dispatch, hfw.unread _ _ _ hreads, served, if_neg (by simp [hreads])]
  | true =>
      rw [served, if_pos hreads]
      induction stack with
      | nil => rw [dispatch, List.map_nil, hfw.behind, List.find?_nil]
      | cons k stack ih =>
          rw [dispatch, List.map_cons, hfw.next _ _ _ _ hreads, express, List.find?_cons]
          cases passes p (doors k).mount req with
          | true => exact ih
          | false => rfl

/-- An event as the gates see it. A request that none of them serves is not for them. -/
def toGate (p : Platform) (reads : Request → Bool) (doors : ι → Door secret) (stack : List ι)
    (e : Traffic Unit) : Option (Traffic ι) :=
  match e.what with
  | .request i _ req random =>
      (served p reads doors stack req).map fun k => ⟨e.time, .request i k req random⟩
  | .body i event => some ⟨e.time, .body i event⟩
  | .reply i outcome => some ⟨e.time, .reply i outcome⟩
  | .spend i => some ⟨e.time, .spend i⟩

/-- A request that no gate serves, with its number. -/
def toApplication (p : Platform) (reads : Request → Bool) (doors : ι → Door secret)
    (stack : List ι) (e : Traffic Unit) : Option (ℕ × Request) :=
  match e.what with
  | .request i _ req _ => if (served p reads doors stack req).isNone then some (i, req) else none
  | _ => none

/-- What an event can do to an application. -/
inductive Visited (p : Platform) (fw : Framework (Site ι secret S)) (doors : ι → Door secret)
    (stack : List ι) (s : Site ι secret S) (e : Traffic Unit) : Site ι secret S → Prop
  | served (i : ℕ) (req : Request) (random : RandomBytes) (k : ι)
      (hwhat : e.what = .request i () req random) (hfree : s.serving.handlings i = none)
      (hnew : i ∉ s.passed.map Prod.fst) (hserved : served p fw.reads doors stack req = some k) :
      Visited p fw doors stack s e
        ⟨e.time, s.serving.enroll p doors e.time i k req random, s.passed⟩
  | passed (i : ℕ) (req : Request) (random : RandomBytes)
      (hwhat : e.what = .request i () req random) (hfree : s.serving.handlings i = none)
      (hnew : i ∉ s.passed.map Prod.fst) (hserved : served p fw.reads doors stack req = none) :
      Visited p fw doors stack s e ⟨e.time, s.serving, s.passed ++ [(i, req)]⟩
  | attended (what : Incident ι) (serving : Serving ι secret S)
      (hwhat : ∀ i req random, e.what ≠ .request i () req random)
      (hgate : toGate p fw.reads doors stack e = some ⟨e.time, what⟩)
      (hincident : ∀ i k req random, what ≠ .request i k req random)
      (hattend : attend p doors s.serving ⟨e.time, what⟩ = some serving) :
      Visited p fw doors stack s e ⟨e.time, serving, s.passed⟩

/-- **What each event does.** -/
theorem visit_cases (hfw : fw.RunsInOrder) {stack : List ι} {s s' : Site ι secret S}
    {e : Traffic Unit} (h : visit p fw doors stack s e = some s') :
    s.clock ≤ e.time.val ∧ Visited p fw doors stack s e s' := by
  rw [visit] at h
  dsimp only at h
  split at h
  · cases h
  next hclock =>
  refine ⟨not_lt.mp hclock, ?_⟩
  split at h
  · next i _ req random hwhat =>
      split at h
      · cases h
      next hnew =>
      obtain ⟨hfree, hnew⟩ := not_or.mp hnew
      have hfree : s.serving.handlings i = none := by simpa using hfree
      rw [dispatch_eq hfw] at h
      obtain rfl := Option.some.inj h
      cases hserved : served p fw.reads doors stack req with
      | some k => exact .served i req random k hwhat hfree hnew hserved
      | none => exact .passed i req random hwhat hfree hnew hserved
  · next i event hwhat =>
      obtain ⟨serving, hattend, rfl⟩ := Option.map_eq_some_iff.mp h
      exact .attended _ serving (by simp [hwhat]) (by simp [toGate, hwhat]) (by simp) hattend
  · next i outcome hwhat =>
      obtain ⟨serving, hattend, rfl⟩ := Option.map_eq_some_iff.mp h
      exact .attended _ serving (by simp [hwhat]) (by simp [toGate, hwhat]) (by simp) hattend
  · next i hwhat =>
      obtain ⟨serving, hattend, rfl⟩ := Option.map_eq_some_iff.mp h
      exact .attended _ serving (by simp [hwhat]) (by simp [toGate, hwhat]) (by simp) hattend

/-! ### Each at its mount -/

/-- A number that is taken once, is found once. -/
theorem filter_fst_of_nodup {β : Type} {passed : List (ℕ × β)}
    (h : (passed.map Prod.fst).Nodup) {a : ℕ × β} (ha : a ∈ passed) :
    passed.filter (fun b => b.1 = a.1) = [a] := by
  induction passed with
  | nil => cases ha
  | cons b passed ih =>
      obtain ⟨hb, hrest⟩ := List.nodup_cons.mp h
      rcases List.mem_cons.mp ha with rfl | htail
      · rw [List.filter_cons_of_pos (by simp), List.filter_eq_nil_iff.mpr]
        intro c hc
        simp only [decide_eq_true_eq]
        intro heq
        exact hb (heq ▸ List.mem_map_of_mem hc)
      · rw [List.filter_cons_of_neg, ih hrest htail]
        simp only [decide_eq_true_eq]
        intro heq
        exact hb (heq ▸ List.mem_map_of_mem htail)

/-- What the gates and the application have been given so far. -/
structure Follows (p : Platform) (fw : Framework (Site ι secret S)) (doors : ι → Door secret)
    (stack : List ι) (done : List (Traffic Unit)) (s : Site ι secret S) : Prop where
  run : exec (attend p doors) (Serving.init ι secret S)
    (done.filterMap (toGate p fw.reads doors stack)) = some s.serving
  clock : s.serving.clock ≤ s.clock
  passed : s.passed = done.filterMap (toApplication p fw.reads doors stack)
  heads : ∀ e ∈ done, ∀ i req random k, e.what = .request i () req random →
    served p fw.reads doors stack req = some k →
      ∃ found, s.serving.heads i = some (k, ⟨{ req with body := [] }, e.time⟩, found)
  apart : ∀ i ∈ s.passed.map Prod.fst, s.serving.handlings i = none
  nodup : (s.passed.map Prod.fst).Nodup

/-- Before the first event no request has come in, and no gate has begun. -/
theorem follows_init (stack : List ι) : Follows p fw doors stack [] (init ι secret S) where
  run := rfl
  clock := le_rfl
  passed := rfl
  heads _ he := by cases he
  apart _ hi := by cases hi
  nodup := List.nodup_nil

/-- **One more event.** -/
theorem Follows.visit (hfw : fw.RunsInOrder) {stack : List ι} {done : List (Traffic Unit)}
    {s s' : Site ι secret S} {e : Traffic Unit} (h : Follows p fw doors stack done s)
    (hvisit : visit p fw doors stack s e = some s') :
    Follows p fw doors stack (done ++ [e]) s' := by
  obtain ⟨htime, hvisited⟩ := visit_cases hfw hvisit
  -- The gates take the step that is for them.
  have hrun {t : Traffic ι} {serving : Serving ι secret S}
      (hgate : toGate p fw.reads doors stack e = some t)
      (hattend : attend p doors s.serving t = some serving) :
      exec (attend p doors) (Serving.init ι secret S)
        ((done ++ [e]).filterMap (toGate p fw.reads doors stack)) = some serving := by
    rw [List.filterMap_append, List.filterMap_cons_some hgate]
    exact exec_append_eq_some_iff.mpr ⟨s.serving, h.run,
      exec_cons_eq_some_iff.mpr ⟨serving, hattend, rfl⟩⟩
  cases hvisited with
  | served i req random k hwhat hfree hnew hserved =>
      have hattend : attend p doors s.serving ⟨e.time, .request i k req random⟩ =
          some (s.serving.enroll p doors e.time i k req random) := by
        rw [attend, if_neg (not_lt.mpr (h.clock.trans htime))]
        simp only [hfree]
      refine ⟨hrun (by simp [toGate, hwhat, hserved]) hattend, le_rfl, ?_, ?_, ?_, h.nodup⟩
      · rw [List.filterMap_append, ← h.passed]
        simp [toApplication, hwhat, hserved]
      · intro e' he' j req' random' k' hwhat' hserved'
        obtain ⟨i', k'', req'', random'', hwhat'', hfree', hheads, -⟩ |
          ⟨hno, -⟩ := heads_attend hattend
        swap
        · exact absurd rfl (hno i k req random)
        cases hwhat''
        rw [hheads]
        rcases List.mem_append.mp he' with hdone | hlast
        · obtain ⟨found, hold⟩ := h.heads e' hdone j req' random' k' hwhat' hserved'
          refine ⟨found, ?_⟩
          rw [Function.update_of_ne, hold]
          rintro rfl
          rw [Serving.heads, hfree] at hold
          cases hold
        · obtain rfl := List.mem_singleton.mp hlast
          obtain ⟨rfl, -, rfl, rfl⟩ := Incident.request.inj (hwhat.symm.trans hwhat')
          obtain rfl := Option.some.inj (hserved.symm.trans hserved')
          exact ⟨_, Function.update_self _ _ _⟩
      · intro j hj
        have hne : j ≠ i := by
          rintro rfl
          exact hnew hj
        exact (Function.update_of_ne hne _ _).trans (h.apart j hj)
  | passed i req random hwhat hfree hnew hserved =>
      refine ⟨?_, h.clock.trans htime, ?_, ?_, ?_, ?_⟩
      · rw [List.filterMap_append, List.filterMap_cons_none (by simp [toGate, hwhat, hserved]),
          List.filterMap_nil, List.append_nil]
        exact h.run
      · rw [List.filterMap_append, ← h.passed]
        simp [toApplication, hwhat, hserved]
      · intro e' he' j req' random' k' hwhat' hserved'
        rcases List.mem_append.mp he' with hdone | hlast
        · exact h.heads e' hdone j req' random' k' hwhat' hserved'
        · obtain rfl := List.mem_singleton.mp hlast
          obtain ⟨-, -, rfl, -⟩ := Incident.request.inj (hwhat.symm.trans hwhat')
          cases hserved.symm.trans hserved'
      · intro j hj
        rw [List.map_append] at hj
        rcases List.mem_append.mp hj with hold | hlast
        · exact h.apart j hold
        · rwa [List.mem_singleton.mp hlast]
      · rw [List.map_append]
        exact List.nodup_append_comm.mp (List.nodup_cons.mpr ⟨hnew, h.nodup⟩)
  | attended what serving hwhat hgate hincident hattend =>
      refine ⟨hrun hgate hattend, (clock_of_attend hattend).2.le, ?_, ?_, ?_, h.nodup⟩
      · rw [List.filterMap_append, ← h.passed, List.filterMap_cons_none, List.filterMap_nil,
          List.append_nil]
        rw [toApplication]
        split
        · next i _ req random heq => exact absurd heq (hwhat i req random)
        · rfl
      · intro e' he' j req' random' k' hwhat' hserved'
        obtain ⟨i, k, req, random, heq, -⟩ | ⟨-, hheads, -⟩ := heads_attend hattend
        · exact absurd heq (hincident i k req random)
        rw [hheads]
        rcases List.mem_append.mp he' with hdone | hlast
        · exact h.heads e' hdone j req' random' k' hwhat' hserved'
        · obtain rfl := List.mem_singleton.mp hlast
          exact absurd hwhat' (hwhat j req' random')
      · exact fun j hj => handlings_of_attend hattend (h.apart j hj) (hincident j)

/-- **The invariant holds after every run.** -/
theorem follows_of_run (hfw : fw.RunsInOrder) {stack : List ι} {s : Site ι secret S}
    {events : List (Traffic Unit)}
    (hrun : exec (visit p fw doors stack) (init ι secret S) events = some s) :
    Follows p fw doors stack events s :=
  exec_history (fun _ _ _ _ h hvisit => h.visit hfw hvisit) hrun (follows_init stack)

/-- **Each at its mount.** Whatever comes in, and however the requests wait for each other:
the gates of an application serve as they do for the requests that are theirs, each of which
is served by the first gate that does not let it pass, and would not be left to `onUnmatched`
there; every other request goes on behind the gates, once and in its turn, no limiter hears of
it, and each gate that is called leaves it to `onUnmatched`. -/
theorem each_at_its_mount (hfw : fw.RunsInOrder) {stack : List ι} {s : Site ι secret S}
    {events : List (Traffic Unit)}
    (hrun : exec (visit p fw doors stack) (init ι secret S) events = some s) :
    exec (attend p doors) (Serving.init ι secret S)
        (events.filterMap (toGate p fw.reads doors stack)) = some s.serving ∧
      s.passed = events.filterMap (toApplication p fw.reads doors stack) ∧
      ∀ e ∈ events, ∀ i req random, e.what = .request i () req random →
        match served p fw.reads doors stack req with
        | some k => i ∉ s.passed.map Prod.fst ∧ ∃ x, s.serving.handlings i = some x ∧
            x.door = k ∧ x.visit = ⟨{ req with body := [] }, e.time⟩ ∧
            ∀ verifier now onUnmatched onUnmatched',
              handle p (doors k).gate (doors k).mount verifier now req onUnmatched =
                handle p (doors k).gate (doors k).mount verifier now req onUnmatched'
        | none => s.serving.handlings i = none ∧
            s.passed.filter (fun passed => passed.1 = i) = [(i, req)] ∧
            (fw.reads req = true → ∀ k ∈ stack, ∀ verifier now onUnmatched,
              handle p (doors k).gate (doors k).mount verifier now req onUnmatched =
                onUnmatched) := by
  have h := follows_of_run hfw hrun
  refine ⟨h.run, h.passed, fun e he i req random hwhat => ?_⟩
  cases hserved : served p fw.reads doors stack req with
  | some k =>
      obtain ⟨found, hhead⟩ := h.heads e he i req random k hwhat hserved
      obtain ⟨x, hx, hhead⟩ := Option.map_eq_some_iff.mp hhead
      obtain ⟨rfl, hvisit, -⟩ : x.door = k ∧ x.visit = _ ∧ x.found = found := by
        simpa [Handling.head] using hhead
      refine ⟨fun hi => ?_, x, hx, rfl, hvisit, fun verifier now => ?_⟩
      · cases (h.apart i hi).symm.trans hx
      · exact handle_of_not_passes (mem_of_served hserved).2 verifier now
  | none =>
      have hmem : (i, req) ∈ s.passed := by
        rw [h.passed]
        exact List.mem_filterMap.mpr ⟨e, he, by simp [toApplication, hwhat, hserved]⟩
      exact ⟨h.apart i (List.mem_map_of_mem hmem), filter_fst_of_nodup h.nodup hmem,
        fun hreads k hk verifier now => handle_of_passes (passes_of_served hserved hreads hk)
          verifier now⟩

end Stack

/-- A gate at another mount point. -/
def sampleKiosk : Door sampleSecret where
  gate := { sampleGate with
    rateLimit := none
    basePath := .string "/kiosk" }
  mount := ⟨"/kiosk", rfl⟩
  replica := sampleReplica

/-- Both of them. -/
def sampleDoors : Bool → Door sampleSecret
  | true => sampleDoor
  | false => sampleKiosk

/-- A platform on which two of the URLs cannot be read. -/
def mountedPlatform : Platform :=
  { servingPlatform with
    urlPathname := fun url => if url ∈ ["//[", "http://["] then none else some url }

/-- A framework that reads the paths, and runs the middlewares one behind the other. -/
def sampleFramework : Framework (Site Bool sampleSecret inMemoryNonceStore) where
  reads req := decide ((req.url.getD "").toList.head? = some '/')
  dispatch stack req done :=
    if (req.url.getD "").toList.head? = some '/' then stack.foldr (fun m next => m next) done
    else done

/-- The framework of the worked run calls its middlewares in their order. -/
theorem sampleFramework_runsInOrder : sampleFramework.RunsInOrder where
  behind req done := by simp [sampleFramework]
  next middleware rest req done hreads := by
    have hpath := of_decide_eq_true hreads
    simp [sampleFramework, hpath]
  unread stack req done hreads := if_neg (of_decide_eq_false hreads)

/-- A visitor of the first gate, one of the second, and three whom neither serves at its mount:
one of another page, one whose URL only the framework can read, and one whose URL it cannot. -/
def sampleErrands : List (Traffic Unit) :=
  sampleTraffic ++
    [⟨sampleTime 910, .request 2 () { sampleGet with url := some "/about" } sampleRandom⟩,
      ⟨sampleTime 920, .request 3 () { sampleGet with url := some "/kiosk/challenge" }
        sampleRandom⟩,
      ⟨sampleTime 930, .request 4 () { sampleGet with url := some "//[" } sampleRandom⟩,
      ⟨sampleTime 940, .request 5 () { sampleGet with url := some "http://[" } sampleRandom⟩,
      ⟨sampleTime 950, .spend 1⟩]

set_option maxRecDepth 20000 in
/-- The second gate has served its visitor, the page and the URL that the framework cannot read
have gone on, in this order, and the gates ran as they do without these two. -/
theorem each_at_its_mount_sampleErrands :
    ∃ s, exec (visit mountedPlatform sampleFramework sampleDoors [true, false])
        (init Bool sampleSecret inMemoryNonceStore) sampleErrands = some s ∧
      (s.serving.handlings 3).map Handling.door = some false ∧
      s.passed.map Prod.fst = [2, 5] ∧
      exec (attend mountedPlatform sampleDoors) (Serving.init Bool sampleSecret inMemoryNonceStore)
        (sampleErrands.filterMap
          (toGate mountedPlatform sampleFramework.reads sampleDoors [true, false])) =
          some s.serving ∧
      s.passed = sampleErrands.filterMap
        (toApplication mountedPlatform sampleFramework.reads sampleDoors [true, false]) := by
  obtain ⟨s, hs, hdoor, hpassed⟩ : ∃ s,
      exec (visit mountedPlatform sampleFramework sampleDoors [true, false])
        (init Bool sampleSecret inMemoryNonceStore) sampleErrands = some s ∧
      (s.serving.handlings 3).map Handling.door = some false ∧
      s.passed.map Prod.fst = [2, 5] := ⟨_, rfl, rfl, rfl⟩
  have hmount := each_at_its_mount sampleFramework_runsInOrder hs
  exact ⟨s, hs, hdoor, hpassed, hmount.1, hmount.2.1⟩

/-! ### The order of the mounts -/

/-- With different mount points there is one gate for a path. -/
theorem served_eq_some_iff {stack : List ι}
    (hmounts : ∀ k ∈ stack, ∀ l ∈ stack, (doors k).mount.val = (doors l).mount.val → k = l)
    {reads : Request → Bool} {req : Request} (hreads : reads req = true)
    (hurl : p.urlPathname (req.url.getD "/") ≠ none) {k : ι} :
    served p reads doors stack req = some k ↔
      k ∈ stack ∧ passes p (doors k).mount req = false := by
  have hrouted {l : ι} (hserves : passes p (doors l).mount req = false) :
      ∃ which, routeOf p (doors l).mount req = some which := by
    refine Option.ne_none_iff_exists'.mp fun hnone => ?_
    rw [passes_iff.mpr ⟨hurl, hnone⟩] at hserves
    cases hserves
  have hunique {l : ι} (hl : l ∈ stack) (hserves : passes p (doors l).mount req = false)
      (hk : k ∈ stack) (hserves' : passes p (doors k).mount req = false) : l = k := by
    obtain ⟨which, hwhich⟩ := hrouted hserves
    obtain ⟨which', hwhich'⟩ := hrouted hserves'
    exact hmounts l hl k hk (mount_unique hwhich hwhich')
  refine ⟨mem_of_served, ?_⟩
  rintro ⟨hk, hserves⟩
  cases hfound : served p reads doors stack req with
  | none => cases hserves.symm.trans (passes_of_served hfound hreads hk)
  | some l =>
      obtain ⟨hl, hserves'⟩ := mem_of_served hfound
      exact congrArg some (hunique hl hserves' hk hserves)

/-- A URL that the gates cannot read is for the first of them. -/
theorem served_of_unread {reads : Request → Bool} {req : Request} (hreads : reads req = true)
    (hurl : p.urlPathname (req.url.getD "/") = none) (stack : List ι) :
    served p reads doors stack req = stack.head? := by
  rw [served, if_pos hreads]
  cases stack with
  | nil => rfl
  | cons k stack => rw [List.find?_cons_of_pos (by simp [passes, hurl]), List.head?_cons]

/-- The handlings of a number in two applications: the same one, or those of one request
whose URL cannot be read, which look the same from outside. -/
inductive Alike (p : Platform) : Option (Handling ι) → Option (Handling ι) → Prop
  | same (x : Option (Handling ι)) : Alike p x x
  | unread (x y : Handling ι) (hurl : p.urlPathname (x.request.url.getD "/") = none)
      (hx : x.stage = .ended) (hy : y.stage = .ended) (hvisit : y.visit = x.visit)
      (hresponses : y.wire.responses = x.wire.responses) (hchecks : y.wire.checks = x.wire.checks) :
      Alike p (some x) (some y)

/-- Gates that cannot be told apart from outside. -/
structure Matches (p : Platform) (s t : Serving ι secret S) : Prop where
  clock : t.clock = s.clock
  system : t.system = s.system
  hits : t.hits = s.hits
  handlings : ∀ i, Alike p (s.handlings i) (t.handlings i)

/-- The same is done for a number in both. -/
theorem Matches.put {s t : Serving ι secret S} (h : Matches p s t) (time : ℤ) (i : ℕ)
    {x y : Handling ι} (hxy : Alike p (some x) (some y)) (system : System secret S)
    (hits : ι → Hits) :
    Matches p { s.put time i x with system, hits } { t.put time i y with system, hits } where
  clock := rfl
  system := rfl
  hits := rfl
  handlings j := by
    show Alike p ((s.put time i x).handlings j) ((t.put time i y).handlings j)
    rw [Serving.handlings_put, Serving.handlings_put]
    split
    · exact hxy
    · exact h.handlings j

/-- A handling that waits is the same in both. -/
theorem Matches.eq_of_not_ended {s t : Serving ι secret S} (h : Matches p s t) {i : ℕ}
    {x : Handling ι} (hx : s.handlings i = some x) (hstage : x.stage ≠ .ended) :
    t.handlings i = some x := by
  have halike := h.handlings i
  rw [hx] at halike
  generalize t.handlings i = y at halike
  cases halike with
  | same => rfl
  | unread _ y hurl hended => exact absurd hended hstage

/-- A handling that has a check is the same in both. -/
theorem Matches.eq_of_call {s t : Serving ι secret S} (h : Matches p s t)
    (hs : s.Consistent p doors) {i : ℕ} {c : Call secret} (hc : s.system.calls i = some c) :
    t.handlings i = s.handlings i := by
  have halike := h.handlings i
  cases hx : s.handlings i with
  | none => cases (hs.uncalled i hx).symm.trans hc
  | some x =>
      rw [hx] at halike
      generalize t.handlings i = y at halike
      cases halike with
      | same => rfl
      | unread _ y hurl hended =>
          have hstands := hs.stands i x hx
          rw [hc] at hstands
          obtain ⟨w, proof, -, hentered, -⟩ := hstands.of_call
          rw [Handling.entered, enter, hurl] at hentered
          cases congrArg Prod.snd hentered

/-- The end of a check is the same in both. -/
theorem Matches.settle {s t : Serving ι secret S} (h : Matches p s t) {i : ℕ}
    (heq : t.handlings i = s.handlings i) : Matches p (s.settle p i) (t.settle p i) := by
  rw [Serving.settle, Serving.settle, heq, h.system]
  split
  · next x c hx hc =>
      split
      · next raw result hresolved =>
          have hput := h.put s.clock i (.same (some (x.finish p
            (conclude p (result.map Verdict.toValue))))) s.system s.hits
          have ht : { t.put s.clock i (x.finish p (conclude p (result.map Verdict.toValue)))
              with system := s.system, hits := s.hits } =
                t.put t.clock i (x.finish p (conclude p (result.map Verdict.toValue))) := by
            rw [← h.clock, ← h.system, ← h.hits]
            rfl
          exact ht ▸ hput
      · exact h
  · exact h

/-- **What happens in one gate happens in the other.** -/
theorem Matches.attended [DecidableEq ι] {s t s' : Serving ι secret S} (h : Matches p s t)
    (hs : s.Consistent p doors) {e : Traffic ι}
    (hno : ∀ i k req random, e.what ≠ .request i k req random)
    (hattend : attend p doors s e = some s') :
    ∃ t', attend p doors t e = some t' ∧ Matches p s' t' := by
  obtain ⟨htime, hattended⟩ := attend_cases hattend
  have hclock : ¬e.time.val < t.clock := by
    rw [h.clock]
    exact not_lt.mpr htime
  have hput {i : ℕ} {x y : Handling ι} (hxy : Alike p (some x) (some y)) :
      Matches p (s.put e.time.val i x) (t.put e.time.val i y) := by
    have hboth := h.put e.time.val i hxy s.system s.hits
    have ht : { t.put e.time.val i y with system := s.system, hits := s.hits } =
        t.put e.time.val i y := by
      rw [← h.system, ← h.hits]
      rfl
    exact ht ▸ hboth
  cases hattended with
  | admitted i k req random hwhat hfree => exact absurd hwhat (hno i k req random)
  | unheard i event x hwhat hx hstage =>
      have halike := h.handlings i
      rw [hx] at halike
      cases ht : t.handlings i with
      | none =>
          rw [ht] at halike
          cases halike
      | some y =>
          have hstage' (body : BodyState) : y.stage ≠ .reading body := by
            rw [ht] at halike
            cases halike with
            | same => exact hstage body
            | unread _ _ _ _ hended => simp [hended]
          refine ⟨t.put e.time.val i (y.receive event), ?_, hput ?_⟩
          · rw [attend, if_neg hclock, hwhat]
            simp only [ht]
            rw [Serving.deliver]
            split
            · next body hreading => exact absurd hreading (hstage' body)
            · rfl
          · rw [ht] at halike
            cases halike with
            | same => exact .same _
            | unread _ _ hurl hended hended' hvisit hresponses hchecks =>
                exact .unread _ _ hurl hended hended' hvisit hresponses hchecks
  | gathered i event x body hwhat hx hstage hwaits =>
      have ht := h.eq_of_not_ended hx (by simp [hstage])
      refine ⟨_, ?_, hput (.same _)⟩
      rw [attend, if_neg hclock, hwhat]
      simp only [ht, Serving.deliver, hstage, hwaits]
  | refused i event x body stretch hwhat hx hstage hrefuses =>
      have ht := h.eq_of_not_ended hx (by simp [hstage])
      refine ⟨_, ?_, hput (.same _)⟩
      rw [attend, if_neg hclock, hwhat]
      simp only [ht, Serving.deliver, hstage, hrefuses]
  | submitted i event x body proof system hwhat hx hstage hsubmits hstep =>
      have ht := h.eq_of_not_ended hx (by simp [hstage])
      have hboth := h.put e.time.val i (.same (some { x.receive event with
        wire := submit proof x.wire
        stage := .checking proof })) system s.hits
      refine ⟨_, ?_, hboth⟩
      rw [attend, if_neg hclock, hwhat]
      simp only [ht, Serving.deliver, hstage, hsubmits, h.system, hstep, Option.map_some]
      rw [← h.hits]
      rfl
  | advanced i occurrence system hwhat hstep =>
      have hcall : occurrence.call = i := by
        rcases hwhat with ⟨outcome, -, rfl⟩ | ⟨-, rfl⟩ <;> rfl
      have hbegun (j : ℕ) (replica : Replica secret) (proof : Value) :
          occurrence ≠ .begin j replica proof := by
        rcases hwhat with ⟨outcome, -, rfl⟩ | ⟨-, rfl⟩ <;> simp
      obtain ⟨c, c', hc, -⟩ := step_advances hstep hbegun
      rw [hcall] at hc
      have hmoved : Matches p { s with clock := e.time.val, system }
          { t with clock := e.time.val, system } :=
        ⟨rfl, rfl, h.hits, h.handlings⟩
      refine ⟨_, ?_, hmoved.settle (h.eq_of_call hs hc)⟩
      rw [attend, if_neg hclock]
      rcases hwhat with ⟨outcome, hwhat, rfl⟩ | ⟨hwhat, rfl⟩
      · simp only [hwhat, h.system, hstep, Option.map_some]
      · simp only [hwhat, h.system, hstep, Option.map_some]

/-- Both stacks serve a request at the same gate, if its URL can be read, or both at some
gate, or neither. -/
theorem served_congr {stack stack' : List ι} (hsame : ∀ k, k ∈ stack ↔ k ∈ stack')
    (hmounts : ∀ k ∈ stack, ∀ l ∈ stack, (doors k).mount.val = (doors l).mount.val → k = l)
    (reads : Request → Bool) (req : Request) :
    served p reads doors stack req = served p reads doors stack' req ∨
      p.urlPathname (req.url.getD "/") = none ∧ ∃ k k',
        served p reads doors stack req = some k ∧ served p reads doors stack' req = some k' := by
  by_cases hreads : reads req = true
  swap
  · exact Or.inl (by rw [served, served, if_neg hreads, if_neg hreads])
  by_cases hurl : p.urlPathname (req.url.getD "/") = none
  · rw [served_of_unread hreads hurl, served_of_unread hreads hurl]
    cases stack with
    | nil =>
        have hnil : stack' = [] :=
          List.eq_nil_iff_forall_not_mem.mpr fun k hk => List.not_mem_nil ((hsame k).mpr hk)
        exact Or.inl (by rw [hnil])
    | cons k stack =>
        cases stack' with
        | nil => cases (hsame k).mp List.mem_cons_self
        | cons k' stack' => exact Or.inr ⟨hurl, k, k', rfl, rfl⟩
  · refine Or.inl (Option.ext fun k => ?_)
    rw [served_eq_some_iff hmounts hreads hurl, served_eq_some_iff ?_ hreads hurl, hsame]
    exact fun k hk l hl => hmounts k ((hsame k).mpr hk) l ((hsame l).mpr hl)

/-- A request whose URL cannot be read is refused by a gate, which only says so. -/
theorem begin_of_unread (door : Door secret) (time : TimeValue) (k : ι) {req : Request}
    (hurl : p.urlPathname (req.url.getD "/") = none) (random : RandomBytes) (found : Hits) :
    (Handling.start time k req random found).begin p door =
      { Handling.start time k req random found with
        wire := (err p 400 .badRequest false ⟨found, [], []⟩).2 } := by
  have hentered : (Handling.start time k req random found).entered p door =
      ((err p 400 .badRequest false ⟨found, [], []⟩).2, false) := by
    rw [Handling.entered, enter]
    have hsame : (Handling.start time k req random found).request.url = req.url := rfl
    rw [hsame, hurl]
    rfl
  rw [Handling.begin, hentered]
  rfl

section Order

variable [DecidableEq ι] {stack stack' : List ι}

/-- Whatever gate it is, its limiter is not asked. -/
theorem enroll_of_unread {s t : Serving ι secret S} (h : Matches p s t) (time : TimeValue)
    (i : ℕ) (k k' : ι) {req : Request} (hurl : p.urlPathname (req.url.getD "/") = none)
    (random : RandomBytes) :
    Matches p (s.enroll p doors time i k req random) (t.enroll p doors time i k' req random) := by
  obtain ⟨body, -, herr⟩ := err_eq p 400 .badRequest false
  have hroute (l : ι) : routeOf p (doors l).mount req = none := by rw [routeOf, hurl]; rfl
  rw [Serving.enroll, Serving.enroll]
  simp only [begin_of_unread _ _ _ hurl, herr, Function.update_eq_self]
  have hboth := h.put time.val i (x := { Handling.start time k req random (s.hits k) with
      wire := ⟨s.hits k, [⟨400, false, body⟩], []⟩ })
    (y := { Handling.start time k' req random (t.hits k') with
      wire := ⟨t.hits k', [⟨400, false, body⟩], []⟩ })
    (.unread _ _ hurl rfl rfl rfl rfl rfl) s.system s.hits
  exact ⟨rfl, h.system, h.hits, hboth.handlings⟩

/-- A request that is served at the same gate. -/
theorem enroll_of_matches {s t : Serving ι secret S} (h : Matches p s t) (time : TimeValue)
    (i : ℕ) (k : ι) (req : Request) (random : RandomBytes) :
    Matches p (s.enroll p doors time i k req random) (t.enroll p doors time i k req random) := by
  rw [Serving.enroll, Serving.enroll]
  simp only [h.hits]
  have hboth := h.put time.val i (.same (some ((Handling.start time k req random (s.hits k)).begin
    p (doors k)))) s.system s.hits
  exact ⟨rfl, h.system, rfl, hboth.handlings⟩

/-- What `visit` does with an event that is no request. -/
theorem visit_of_toGate {s : Site ι secret S} {e : Traffic Unit} {what : Incident ι}
    (hwhat : ∀ i req random, e.what ≠ .request i () req random)
    (hgate : toGate p fw.reads doors stack e = some ⟨e.time, what⟩) (htime : s.clock ≤ e.time.val) :
    visit p fw doors stack' s e = (attend p doors s.serving ⟨e.time, what⟩).map fun serving =>
      { s with clock := e.time, serving } := by
  rw [visit, if_neg (not_lt.mpr htime)]
  rw [toGate] at hgate
  split at hgate
  · next i _ req random heq => exact absurd heq (hwhat i req random)
  all_goals
    cases hgate
    rfl

/-- Two applications that cannot be told apart from outside. -/
structure Twins (p : Platform) (doors : ι → Door secret) (s t : Site ι secret S) : Prop where
  clock : t.clock = s.clock
  passed : t.passed = s.passed
  serving : Matches p s.serving t.serving
  consistent : s.serving.Consistent p doors
  past : s.serving.clock ≤ s.clock

/-- **One event**, with the gates in one order and in another. -/
theorem Twins.visit (hfw : fw.RunsInOrder) (hsame : ∀ k, k ∈ stack ↔ k ∈ stack')
    (hmounts : ∀ k ∈ stack, ∀ l ∈ stack, (doors k).mount.val = (doors l).mount.val → k = l)
    {s t s' : Site ι secret S} {e : Traffic Unit} (h : Twins p doors s t)
    (hvisit : visit p fw doors stack s e = some s') :
    ∃ t', Site.visit p fw doors stack' t e = some t' ∧ Twins p doors s' t' := by
  obtain ⟨htime, hvisited⟩ := visit_cases hfw hvisit
  have htime' : t.clock ≤ e.time.val := h.clock ▸ htime
  -- A request that comes in finds the same numbers taken.
  have hrequest {i : ℕ} {req : Request} {random : RandomBytes}
      (hwhat : e.what = .request i () req random) (hfree : s.serving.handlings i = none)
      (hnew : i ∉ s.passed.map Prod.fst) : Site.visit p fw doors stack' t e =
        some { dispatch p fw doors stack' e.time i req random t with clock := e.time } := by
    have halike := h.serving.handlings i
    rw [hfree] at halike
    have hfree' : t.serving.handlings i = none := by
      generalize t.serving.handlings i = y at halike
      cases halike
      rfl
    rw [Site.visit, if_neg (not_lt.mpr htime'), hwhat]
    dsimp only
    rw [if_neg]
    rw [hfree', h.passed]
    simpa using hnew
  cases hvisited with
  | served i req random k hwhat hfree hnew hserved =>
      have hkeeps := h.consistent.enroll (h.past.trans htime) hfree k req random
      rcases served_congr hsame hmounts fw.reads req with heq | ⟨hurl, l, l', hl, hl'⟩
      · refine ⟨_, hrequest hwhat hfree hnew, ?_⟩
        rw [dispatch_eq hfw, ← heq, hserved]
        exact ⟨rfl, h.passed, enroll_of_matches h.serving e.time i k req random, hkeeps, le_rfl⟩
      · obtain rfl := Option.some.inj (hserved.symm.trans hl)
        refine ⟨_, hrequest hwhat hfree hnew, ?_⟩
        rw [dispatch_eq hfw, hl']
        exact ⟨rfl, h.passed, enroll_of_unread h.serving e.time i k l' hurl random, hkeeps,
          le_rfl⟩
  | passed i req random hwhat hfree hnew hserved =>
      refine ⟨_, hrequest hwhat hfree hnew, ?_⟩
      rcases served_congr hsame hmounts fw.reads req with heq | ⟨hurl, l, l', hl, -⟩
      · rw [dispatch_eq hfw, ← heq, hserved]
        exact ⟨rfl, congrArg (· ++ [(i, req)]) h.passed, h.serving, h.consistent,
          h.past.trans htime⟩
      · cases hserved.symm.trans hl
  | attended what serving hwhat hgate hincident hattend =>
      obtain ⟨serving', hattend', hmatches⟩ :=
        h.serving.attended h.consistent hincident hattend
      refine ⟨⟨e.time, serving', t.passed⟩, ?_, rfl, h.passed, hmatches,
        h.consistent.attend hattend, (clock_of_attend hattend).2.le⟩
      rw [visit_of_toGate hwhat hgate htime', hattend']
      rfl

end Order

end Site

end EightEen
