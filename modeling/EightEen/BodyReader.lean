import EightEen.Body
import EightEen.Gate
import Mathlib.Data.List.Induction

/-!
# The Body Reader at Work

`readBody` of `src/gate.js` with what it leaves on the request: three listeners and a timer,
which `done` takes away, and the calls of `resolve` and `reject` it makes. The promise of
`EightEen.Body` is what these calls amount to (`state_run`): a promise takes the first call,
and here there is no second one to take.

## Main results

* `run_of_undecided`, `run_of_decisive`: the reader before and after the first decisive
  event.
* `reader_settles_once`: one settlement, at the first decisive event and by its kind, within
  the bound and leaving nothing behind.
* `readBody_eq_resolved_iff`: so the handler has a body exactly when the stream ends before
  anything else is decisive, and then it is all of the chunks.
-/

open Js

namespace EightEen

/-! ### The reader -/

/-- A call of `resolve` or `reject`. The two errors of the reader's own are new objects, which
no `error` event carries. -/
inductive Settlement where
  | resolve (raw : List UInt8)
  | tooLarge
  | slow
  | failed (e : Value)

/-- What `readBody` keeps while it waits, and what it has called. -/
structure BodyReader where
  chunks : List (List UInt8)
  len : ℕ
  /-- The listeners on the request. -/
  onData : Bool
  onEnd : Bool
  onErr : Bool
  /-- The timer is armed. -/
  timer : Bool
  settlements : List Settlement

namespace BodyReader

/-- The reader when the executor of the promise has run. -/
def start : BodyReader where
  chunks := []
  len := 0
  onData := true
  onEnd := true
  onErr := true
  timer := true
  settlements := []

/-- `done(fn, arg)`. -/
def done (r : BodyReader) (s : Settlement) : BodyReader :=
  { r with
    timer := false
    onData := false
    onEnd := false
    onErr := false
    settlements := r.settlements ++ [s] }

/-- What an event does: a listener that is there runs, and a timer that is armed fires. -/
def step (max : ℚ) (r : BodyReader) : BodyEvent → BodyReader
  | .data chunk =>
      if r.onData then
        let r := { r with len := r.len + chunk.length }
        if max < (r.len : ℚ) then r.done .tooLarge
        else { r with chunks := r.chunks ++ [chunk] }
      else r
  | .ended => if r.onEnd then r.done (.resolve r.chunks.flatten) else r
  | .error e => if r.onErr then r.done (.failed e) else r
  | .deadline => if r.timer then r.done .slow else r

/-- `readBody(req, max, deadlineMs)` after these events. -/
def run (max : ℚ) (events : List BodyEvent) : BodyReader :=
  events.foldl (step max) start

/-- Nothing of the reader's own is left on the request. -/
structure Detached (r : BodyReader) : Prop where
  onData : r.onData = false
  onEnd : r.onEnd = false
  onErr : r.onErr = false
  timer : r.timer = false

theorem detached_done (r : BodyReader) (s : Settlement) : (r.done s).Detached :=
  ⟨rfl, rfl, rfl, rfl⟩

/-- An event that nothing listens to does nothing. -/
theorem Detached.step {r : BodyReader} (h : r.Detached) (max : ℚ) (e : BodyEvent) :
    r.step max e = r := by
  cases e with
  | data chunk => rw [BodyReader.step, h.onData]; rfl
  | ended => rw [BodyReader.step, h.onEnd]; rfl
  | error e => rw [BodyReader.step, h.onErr]; rfl
  | deadline => rw [BodyReader.step, h.timer]; rfl

theorem Detached.foldl {r : BodyReader} (h : r.Detached) (max : ℚ) (events : List BodyEvent) :
    events.foldl (BodyReader.step max) r = r := by
  induction events with
  | nil => rfl
  | cons e events ih => rw [List.foldl_cons, h.step, ih]

/-! ### The first decisive event -/

/-- The bytes of the chunks. -/
def total (chunks : List (List UInt8)) : ℕ :=
  chunks.flatten.length

/-- The event decides what becomes of a body with these chunks. -/
def Decisive (max : ℚ) (chunks : List (List UInt8)) : BodyEvent → Prop
  | .data chunk => max < (total chunks + chunk.length : ℕ)
  | _ => True

/-- How a decisive event settles a body with these chunks. -/
def outcome (chunks : List (List UInt8)) : BodyEvent → Settlement
  | .data _ => .tooLarge
  | .ended => .resolve chunks.flatten
  | .error e => .failed e
  | .deadline => .slow

/-- The reader that has these chunks and waits. -/
def waiting (chunks : List (List UInt8)) : BodyReader :=
  { start with chunks, len := total chunks }

theorem step_waiting_data (max : ℚ) (chunks : List (List UInt8)) (chunk : List UInt8) :
    (waiting chunks).step max (.data chunk) =
      if max < ((total chunks + chunk.length : ℕ) : ℚ) then
        { waiting chunks with len := total chunks + chunk.length }.done .tooLarge
      else
        { waiting chunks with
          len := total chunks + chunk.length
          chunks := chunks ++ [chunk] } := rfl

theorem step_waiting_of_not_decisive {max : ℚ} {chunks : List (List UInt8)} {chunk : List UInt8}
    (h : (total (chunks ++ [chunk]) : ℚ) ≤ max) :
    (waiting chunks).step max (.data chunk) = waiting (chunks ++ [chunk]) := by
  have htotal : total (chunks ++ [chunk]) = total chunks + chunk.length := by simp [total]
  rw [htotal] at h
  rw [step_waiting_data, if_neg (not_lt.mpr h), ← htotal]
  rfl

/-- **Nothing decisive yet**: the reader has all chunks, and waits. -/
theorem run_of_undecided {max : ℚ} {chunks : List (List UInt8)} (h : (total chunks : ℚ) ≤ max) :
    run max (chunks.map .data) = waiting chunks := by
  induction chunks using List.reverseRecOn with
  | nil => rfl
  | append_singleton chunks chunk ih =>
      have hle : (total chunks : ℚ) ≤ max := by
        refine le_trans ?_ h
        simp [total]
      rw [List.map_append, run, List.foldl_append, ← run, ih hle]
      exact step_waiting_of_not_decisive h

/-- A decisive event is the end of it. -/
theorem step_waiting_of_decisive {max : ℚ} {chunks : List (List UInt8)} {e : BodyEvent}
    (h : Decisive max chunks e) :
    ((waiting chunks).step max e).settlements = [outcome chunks e] ∧
      ((waiting chunks).step max e).chunks = chunks ∧
        ((waiting chunks).step max e).Detached := by
  cases e with
  | data chunk =>
      have hover : max < ((total chunks + chunk.length : ℕ) : ℚ) := h
      rw [step_waiting_data, if_pos hover]
      exact ⟨rfl, rfl, detached_done _ _⟩
  | ended => exact ⟨rfl, rfl, detached_done _ _⟩
  | error e => exact ⟨rfl, rfl, detached_done _ _⟩
  | deadline => exact ⟨rfl, rfl, detached_done _ _⟩

/-- **The first decisive event** settles the body; what follows does not matter. -/
theorem run_of_decisive {max : ℚ} {chunks : List (List UInt8)} {e : BodyEvent}
    (rest : List BodyEvent) (hle : (total chunks : ℚ) ≤ max) (h : Decisive max chunks e) :
    (run max (chunks.map .data ++ e :: rest)).settlements = [outcome chunks e] ∧
      (run max (chunks.map .data ++ e :: rest)).chunks = chunks ∧
        (run max (chunks.map .data ++ e :: rest)).Detached := by
  have hstep := step_waiting_of_decisive h
  rw [run, List.foldl_append, ← run, run_of_undecided hle, List.foldl_cons,
    hstep.2.2.foldl max rest]
  exact hstep

/-- The events so far: chunks within the bound, and then nothing or a decisive event. -/
inductive Course (max : ℚ) : List BodyEvent → Prop
  | undecided (chunks : List (List UInt8)) (within : (total chunks : ℚ) ≤ max) :
      Course max (chunks.map .data)
  | decided (chunks : List (List UInt8)) (e : BodyEvent) (rest : List BodyEvent)
      (within : (total chunks : ℚ) ≤ max) (decisive : Decisive max chunks e) :
      Course max (chunks.map .data ++ e :: rest)

/-- **Every sequence of events** takes one of the two courses. -/
theorem course {max : ℚ} (hmax : 0 ≤ max) (events : List BodyEvent) : Course max events := by
  induction events using List.reverseRecOn with
  | nil => exact .undecided [] (by simpa [total] using hmax)
  | append_singleton events e ih =>
      cases ih with
      | decided chunks e' rest within decisive =>
          rw [List.append_assoc]
          exact .decided chunks e' (rest ++ [e]) within decisive
      | undecided chunks within =>
          by_cases hdecisive : Decisive max chunks e
          · exact .decided chunks e [] within hdecisive
          · cases e with
            | data chunk =>
                have hcourse : Course max ((chunks ++ [chunk]).map .data) := by
                  refine .undecided _ ?_
                  rw [Decisive, not_lt] at hdecisive
                  simpa [total] using hdecisive
                rwa [List.map_append] at hcourse
            | ended => exact absurd trivial hdecisive
            | error e => exact absurd trivial hdecisive
            | deadline => exact absurd trivial hdecisive

/-- A reader has settled when its events have decided, and then it is detached. -/
theorem settlements_run {max : ℚ} (hmax : 0 ≤ max) (events : List BodyEvent) :
    (∃ chunks, events = chunks.map .data ∧ (total chunks : ℚ) ≤ max ∧
      run max events = waiting chunks) ∨
    ∃ chunks e rest, events = chunks.map .data ++ e :: rest ∧ (total chunks : ℚ) ≤ max ∧
      Decisive max chunks e ∧ (run max events).settlements = [outcome chunks e] ∧
        (run max events).chunks = chunks ∧ (run max events).Detached := by
  cases course hmax events with
  | undecided chunks within => exact Or.inl ⟨chunks, rfl, within, run_of_undecided within⟩
  | decided chunks e rest within decisive =>
      obtain ⟨hsettled, hchunks, hdetached⟩ := run_of_decisive rest within decisive
      exact Or.inr ⟨chunks, e, rest, rfl, within, decisive, hsettled, hchunks, hdetached⟩

/-- How the body was settled says which event was the first decisive one. -/
theorem settlements_eq_singleton_iff {max : ℚ} (hmax : 0 ≤ max) {events : List BodyEvent}
    {s : Settlement} : (run max events).settlements = [s] ↔
      ∃ chunks e rest, events = chunks.map .data ++ e :: rest ∧ (total chunks : ℚ) ≤ max ∧
        Decisive max chunks e ∧ outcome chunks e = s := by
  constructor
  · intro h
    rcases settlements_run hmax events with
      ⟨chunks, -, -, hrun⟩ | ⟨chunks, e, rest, hevents, hle, hdec, hset, -⟩
    · rw [hrun] at h
      cases h
    · rw [hset] at h
      exact ⟨chunks, e, rest, hevents, hle, hdec, List.singleton_injective h⟩
  · rintro ⟨chunks, e, rest, rfl, hle, hdec, rfl⟩
    exact (run_of_decisive _ hle hdec).1

/-- It resolves with all chunks in order, when the end comes first. -/
theorem settlements_eq_resolve_iff {max : ℚ} (hmax : 0 ≤ max) {events : List BodyEvent}
    {raw : List UInt8} : (run max events).settlements = [.resolve raw] ↔
      ∃ chunks rest, events = chunks.map .data ++ .ended :: rest ∧
        (total chunks : ℚ) ≤ max ∧ raw = chunks.flatten := by
  rw [settlements_eq_singleton_iff hmax]
  constructor
  · rintro ⟨chunks, e, rest, hevents, hle, -, hout⟩
    cases e with
    | ended => exact ⟨chunks, rest, hevents, hle, (Settlement.resolve.inj hout).symm⟩
    | _ => cases hout
  · rintro ⟨chunks, rest, hevents, hle, rfl⟩
    exact ⟨chunks, .ended, rest, hevents, hle, trivial, rfl⟩

/-- It rejects the first chunk that passes the bound. -/
theorem settlements_eq_tooLarge_iff {max : ℚ} (hmax : 0 ≤ max) {events : List BodyEvent} :
    (run max events).settlements = [.tooLarge] ↔
      ∃ chunks chunk rest, events = chunks.map .data ++ .data chunk :: rest ∧
        (total chunks : ℚ) ≤ max ∧ max < (total chunks + chunk.length : ℕ) := by
  rw [settlements_eq_singleton_iff hmax]
  constructor
  · rintro ⟨chunks, e, rest, hevents, hle, hdec, hout⟩
    cases e with
    | data chunk => exact ⟨chunks, chunk, rest, hevents, hle, hdec⟩
    | _ => cases hout
  · rintro ⟨chunks, chunk, rest, hevents, hle, hover⟩
    exact ⟨chunks, .data chunk, rest, hevents, hle, hover, rfl⟩

/-- It rejects as slow, when the deadline comes first. -/
theorem settlements_eq_slow_iff {max : ℚ} (hmax : 0 ≤ max) {events : List BodyEvent} :
    (run max events).settlements = [.slow] ↔
      ∃ chunks rest, events = chunks.map .data ++ .deadline :: rest ∧
        (total chunks : ℚ) ≤ max := by
  rw [settlements_eq_singleton_iff hmax]
  constructor
  · rintro ⟨chunks, e, rest, hevents, hle, -, hout⟩
    cases e with
    | deadline => exact ⟨chunks, rest, hevents, hle⟩
    | _ => cases hout
  · rintro ⟨chunks, rest, hevents, hle⟩
    exact ⟨chunks, .deadline, rest, hevents, hle, trivial, rfl⟩

/-! ### The promise -/

/-- The promise that these calls leave: the first call counts. -/
def state (r : BodyReader) : BodyState :=
  match r.settlements with
  | [] => .reading r.len r.chunks
  | .resolve raw :: _ => .resolved raw
  | .tooLarge :: _ => .rejected payloadTooLarge
  | .slow :: _ => .rejected bodyStalled
  | .failed e :: _ => .rejected e

/-- A promise that one call has settled. -/
theorem settled_state {r : BodyReader} {s : Settlement} (h : r.settlements = [s]) :
    r.state.settled = true := by
  rw [state, h]
  cases s <;> rfl

/-- **The promise is the one that the handler waits for.** -/
theorem state_run {max : ℚ} (hmax : 0 ≤ max) (events : List BodyEvent) :
    (run max events).state = readBody max events := by
  induction events using List.reverseRecOn with
  | nil => rfl
  | append_singleton events e ih =>
      rw [run, List.foldl_append, ← run, readBody, List.foldl_append, ← readBody, ← ih]
      rcases settlements_run hmax events with
        ⟨chunks, -, -, hwaiting⟩ | ⟨chunks, e', -, -, -, -, hsettled, -, hdetached⟩
      · rw [hwaiting]
        cases e with
        | data chunk =>
            rw [List.foldl_cons, List.foldl_nil, step_waiting_data]
            have hstate : (waiting chunks).state = .reading (total chunks) chunks := rfl
            rw [List.foldl_cons, List.foldl_nil, hstate, onBody]
            split <;> rfl
        | ended => rfl
        | error e => rfl
        | deadline => rfl
      · rw [hdetached.foldl, foldl_onBody_of_settled max (settled_state hsettled)]

/-- The promise is fulfilled by one call of `resolve`, and by nothing else. -/
theorem state_eq_resolved_iff {max : ℚ} (hmax : 0 ≤ max) {events : List BodyEvent}
    {raw : List UInt8} :
    (run max events).state = .resolved raw ↔ (run max events).settlements = [.resolve raw] := by
  rcases settlements_run hmax events with ⟨chunks, -, -, hrun⟩ | ⟨chunks, e, -, -, -, -, hset, -⟩
  · rw [hrun]
    exact iff_of_false (by rintro ⟨⟩) (by rintro ⟨⟩)
  · rw [state, hset]
    cases outcome chunks e <;> simp

/-- **One settlement, at the first decisive event.** The reader resolves with all chunks in
order exactly when the end comes first, rejects a chunk exactly when that chunk is the first
to pass the bound, and rejects as slow exactly when the deadline comes first; it never keeps
more than the bound; and once it has settled it has nothing left on the request and no event
changes it. -/
theorem reader_settles_once (max : Bound) (events : List BodyEvent) :
    (((run max.val events).settlements = [] ∧
        ∃ chunks, events = chunks.map .data ∧ (total chunks : ℚ) ≤ max.val) ∨
      ∃ chunks e rest, events = chunks.map .data ++ e :: rest ∧ (total chunks : ℚ) ≤ max.val ∧
        Decisive max.val chunks e ∧ (run max.val events).settlements = [outcome chunks e]) ∧
    (∀ raw, (run max.val events).settlements = [.resolve raw] ↔
      ∃ chunks rest, events = chunks.map .data ++ .ended :: rest ∧
        (total chunks : ℚ) ≤ max.val ∧ raw = chunks.flatten) ∧
    ((run max.val events).settlements = [.tooLarge] ↔
      ∃ chunks chunk rest, events = chunks.map .data ++ .data chunk :: rest ∧
        (total chunks : ℚ) ≤ max.val ∧ max.val < (total chunks + chunk.length : ℕ)) ∧
    ((run max.val events).settlements = [.slow] ↔
      ∃ chunks rest, events = chunks.map .data ++ .deadline :: rest ∧
        (total chunks : ℚ) ≤ max.val) ∧
    (total (run max.val events).chunks : ℚ) ≤ max.val ∧
    ((run max.val events).settlements ≠ [] →
      (run max.val events).Detached ∧
        ∀ later, run max.val (events ++ later) = run max.val events) := by
  have hcases := settlements_run max.property.le events
  refine ⟨?_, fun raw => ?_, ?_, ?_, ?_, ?_⟩
  · rcases hcases with ⟨chunks, hevents, hle, hrun⟩ | ⟨chunks, e, rest, hevents, hle, hdec, hset, -⟩
    · exact Or.inl ⟨by rw [hrun]; rfl, chunks, hevents, hle⟩
    · exact Or.inr ⟨chunks, e, rest, hevents, hle, hdec, hset⟩
  · exact settlements_eq_resolve_iff max.property.le
  · exact settlements_eq_tooLarge_iff max.property.le
  · exact settlements_eq_slow_iff max.property.le
  · rcases hcases with ⟨chunks, -, hle, hrun⟩ | ⟨chunks, -, -, -, hle, -, -, hchunks, -⟩
    · rw [hrun]
      exact hle
    · rwa [hchunks]
  · intro hsettled
    rcases hcases with ⟨chunks, -, -, hrun⟩ | ⟨-, -, -, -, -, -, -, -, hdetached⟩
    · rw [hrun] at hsettled
      exact absurd rfl hsettled
    · refine ⟨hdetached, fun later => ?_⟩
      rw [run, List.foldl_append, ← run, hdetached.foldl]

end BodyReader

open BodyReader in
/-- **A body is read** exactly when the stream ends before anything else is decisive, within
the bound, and then it is all of its chunks in order. -/
theorem readBody_eq_resolved_iff {max : ℚ} (hmax : 0 ≤ max) {events : List BodyEvent}
    {raw : List UInt8} :
    readBody max events = .resolved raw ↔
      ∃ (chunks : List (List UInt8)) (rest : List BodyEvent),
        events = chunks.map .data ++ .ended :: rest ∧ raw = chunks.flatten ∧
          (raw.length : ℚ) ≤ max := by
  rw [← state_run hmax, state_eq_resolved_iff hmax, settlements_eq_resolve_iff hmax]
  constructor
  · rintro ⟨chunks, rest, hevents, hle, rfl⟩
    exact ⟨chunks, rest, hevents, rfl, hle⟩
  · rintro ⟨chunks, rest, hevents, rfl, hle⟩
    exact ⟨chunks, rest, hevents, hle, rfl⟩

end EightEen
