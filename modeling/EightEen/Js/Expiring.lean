import EightEen.Js.OrderedMap
import Mathlib.Order.Basic

/-!
# Maps Whose Entries Run Out

A map that a program uses as a memory with lifetimes: an entry counts until its time has
passed, and may be deleted from then on at any moment. What the program sees of such a map
is its `live` part, and the equations here say that deleting what has run out cannot be
seen, at any time to come.

## Main results

* `live_set`, `live_retain`: the live part after a `set`, and after a loop that deletes
  nothing that is alive.
* `live_later`: the live part at a later time is what is left of the present one.
-/

namespace Js

/-- When a value counts. What has stopped counting does not count again. -/
structure Lifespan (ν T : Type) [Preorder T] where
  alive : T → ν → Bool
  fades : ∀ {now later : T} {v : ν}, now ≤ later → alive later v = true → alive now v = true

namespace OrderedMap

variable {κ ν T : Type} [DecidableEq κ] [Preorder T] (L : Lifespan ν T)

/-- The value of the key, if it still counts. -/
def live (m : OrderedMap κ ν) (now : T) (k : κ) : Option ν :=
  (m.get k).filter (L.alive now)

@[simp] theorem live_empty (now : T) (k : κ) : (empty : OrderedMap κ ν).live L now k = none := rfl

theorem live_eq_some_iff {m : OrderedMap κ ν} {now : T} {k : κ} {v : ν} :
    m.live L now k = some v ↔ m.get k = some v ∧ L.alive now v = true :=
  Option.filter_eq_some_iff

theorem live_set (m : OrderedMap κ ν) (now : T) (k k' : κ) (v : ν) :
    (m.set k v).live L now k' = if k = k' then (some v).filter (L.alive now)
      else m.live L now k' := by
  rw [live, get_set]
  split <;> rfl

/-- **A deleting loop cannot be seen** if it keeps everything that is alive. -/
theorem live_retain {keep : κ → ν → Bool} {now : T} (m : OrderedMap κ ν)
    (hkeep : ∀ k v, L.alive now v = true → keep k v = true) (k : κ) :
    (m.retain keep).live L now k = m.live L now k := by
  rw [live, live, get_retain, Option.filter_filter]
  congr 1
  funext v
  cases halive : L.alive now v with
  | true => simp [hkeep k v halive]
  | false => simp

/-- **Waiting** only takes entries away. -/
theorem live_later (m : OrderedMap κ ν) {now later : T} (hle : now ≤ later) (k : κ) :
    m.live L later k = (m.live L now k).filter (L.alive later) := by
  rw [live, live, Option.filter_filter]
  congr 1
  funext v
  cases halive : L.alive later v with
  | true => simp [L.fades hle halive]
  | false => simp

end OrderedMap

end Js
