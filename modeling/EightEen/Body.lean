import EightEen.Js.Value
import Mathlib.Data.Rat.Cast.Order

/-!
# The Request Body

`readBody` of `src/gate.js`: the chunks of a request body are gathered up to a bound, until
the stream ends, fails, or its time runs out. Whatever is decisive first settles the promise,
and nothing after that matters.

## Main results

* `foldl_onBody_of_settled`: a promise that is settled stays as it is.
* `readBody_settled`: an end, a failure or the deadline settles it.
-/

open Js

namespace EightEen

/-- What happens to a request while its body is read. -/
inductive BodyEvent where
  | data (chunk : List UInt8)
  | ended
  | error (e : Value)
  | deadline

/-- The promise of `readBody`. -/
inductive BodyState where
  | reading (len : ℕ) (chunks : List (List UInt8))
  | resolved (raw : List UInt8)
  | rejected (e : Value)

/-- The error of the deadline. -/
def bodyStalled : Value :=
  .object [("message", .string "body stalled"), ("code", .string "SLOW")]

/-- The error of a body over the bound. -/
def payloadTooLarge : Value :=
  .object [("message", .string "payload too large"), ("code", .string "TOO_LARGE")]

/-- The listeners of `readBody`, which `done` removes. -/
def onBody (max : ℚ) : BodyState → BodyEvent → BodyState
  | .reading len chunks, .data chunk =>
      if max < ((len + chunk.length : ℕ) : ℚ) then .rejected payloadTooLarge
      else .reading (len + chunk.length) (chunks ++ [chunk])
  | .reading _ chunks, .ended => .resolved chunks.flatten
  | .reading _ _, .error e => .rejected e
  | .reading _ _, .deadline => .rejected bodyStalled
  | s, _ => s

/-- `readBody(req, max, deadlineMs)` after these events. -/
def readBody (max : ℚ) (events : List BodyEvent) : BodyState :=
  events.foldl (onBody max) (.reading 0 [])

/-- The events that settle a body whatever came before. -/
def BodyEvent.decisive : BodyEvent → Bool
  | .data _ => false
  | _ => true

/-- The promise has been settled. -/
def BodyState.settled : BodyState → Bool
  | .reading _ _ => false
  | _ => true

/-- **A settled promise stays**: no event that comes later, and no number of them, changes what a
body has come to. -/
theorem foldl_onBody_of_settled (max : ℚ) {s : BodyState} (h : s.settled = true)
    (events : List BodyEvent) : events.foldl (onBody max) s = s := by
  induction events with
  | nil => rfl
  | cons e events ih =>
      have hstep : onBody max s e = s := by
        cases s with
        | reading len chunks => exact absurd h (by simp [BodyState.settled])
        | resolved raw => rfl
        | rejected e => rfl
      rw [List.foldl_cons, hstep, ih]

/-- **A decisive event settles the body.** -/
theorem readBody_settled {max : ℚ} {events : List BodyEvent}
    (h : ∃ e ∈ events, e.decisive = true) : (readBody max events).settled = true := by
  have hgen : ∀ s : BodyState, (events.foldl (onBody max) s).settled = true := by
    induction events with
    | nil => simp at h
    | cons e events ih =>
        intro s
        rw [List.foldl_cons]
        by_cases hrest : ∃ e ∈ events, e.decisive = true
        · exact ih hrest _
        · obtain ⟨e', he', hdec⟩ := h
          obtain rfl : e' = e := (List.mem_cons.mp he').resolve_right fun hmem =>
            hrest ⟨e', hmem, hdec⟩
          have hsettled : (onBody max s e').settled = true := by
            cases s <;> cases e' <;> first | rfl | cases hdec
          rw [foldl_onBody_of_settled max hsettled]
          exact hsettled
  exact hgen _

end EightEen
