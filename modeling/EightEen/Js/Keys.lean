import EightEen.Js.Value

/-!
# Own Keys

The order in which an object shows its own properties (`Object.keys`, `Object.values`): the
names that spell an array index come first, in ascending order, and the other names follow in
the order in which they were added. What a program reads off an object through a loop over its
values is the same whatever that order, as far as it does not depend on the order of a list.

## Main results

* `ownOrder_perm`: the order shown is a permutation of the order of addition.
-/

namespace Js

/-- The array index that a name spells: decimal digits without a leading zero, of a number
below `2 ^ 32 - 1`. -/
def arrayIndex (name : String) : Option ℕ :=
  match name.toNat? with
  | some n => if toString n = name ∧ n < 4294967295 then some n else none
  | none => none

/-- The properties of an object in enumeration order, from the order of their addition. -/
def ownOrder {α : Type*} (props : List (String × α)) : List (String × α) :=
  (props.filter fun prop => (arrayIndex prop.1).isSome).mergeSort
      (fun a b => (arrayIndex a.1).getD 0 ≤ (arrayIndex b.1).getD 0) ++
    props.filter fun prop => !(arrayIndex prop.1).isSome

/-- **Nothing is lost by the order.** -/
theorem ownOrder_perm {α : Type*} (props : List (String × α)) : (ownOrder props).Perm props :=
  ((List.mergeSort_perm _ _).append_right _).trans (List.filter_append_perm _ props)

end Js
