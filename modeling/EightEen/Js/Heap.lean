import EightEen.Js.Value
import Mathlib.Data.List.Basic
import Mathlib.Logic.Function.Basic

/-!
# Objects

Objects that code shares by reference: properties with their attributes, a prototype, and
whether the object may be extended. A property is looked up along the prototypes, a write goes to
one object, and the language ignores the writes that the attributes of that object do not allow
(in strict code it also throws). `Object.freeze` takes the attributes of an object's own properties
away, and nothing else.

A property with a getter is an `accessor`; what its getter answers is for the code that has put it
there.

## Main results

* `Heap.mutate_of_frozen`: no write changes an object that is frozen.
-/

namespace Js

/-- The place of an object in the heap. -/
abbrev Ref := ℕ

/-- What a property holds: a primitive value or an object. -/
inductive Slot where
  | prim (v : Value)
  | ref (r : Ref)

/-- The key of a property: a name, the index of an element, or `Symbol.iterator`. -/
inductive Key where
  | name (s : String)
  | index (n : ℕ)
  | iterator
  deriving DecidableEq

/-- The data of a property, and whether it may be written, or a getter. -/
inductive Content where
  | data (value : Slot) (writable : Bool)
  | accessor

/-- A property; one that is not configurable is neither deleted nor defined anew. -/
structure Property where
  content : Content
  configurable : Bool

/-- An object. That of an array has a length. -/
structure Obj where
  own : Key → Option Property
  proto : Option Ref
  extensible : Bool
  length : Option ℕ

/-- The objects. -/
abbrev Heap := List Obj

namespace Obj

/-- An object literal, with this prototype. -/
def literal (props : List (Key × Slot)) (proto : Ref) : Obj where
  own key := (props.lookup key).map fun value => ⟨.data value true, true⟩
  proto := some proto
  extensible := true
  length := none

/-- An array literal. -/
def array (items : List Slot) (proto : Ref) : Obj where
  own key := match key with
    | .index i => items[i]?.map fun value => ⟨.data value true, true⟩
    | _ => none
  proto := some proto
  extensible := true
  length := some items.length

/-- `Object.freeze(obj)`, for an object that is not an array. -/
def freeze (obj : Obj) : Obj where
  own key := (obj.own key).map fun property =>
    { content := match property.content with
        | .data value _ => .data value false
        | .accessor => .accessor
      configurable := false }
  proto := obj.proto
  extensible := false
  length := obj.length

/-- The object is not an array, cannot be extended, and none of its own properties can be written
or configured. -/
structure Frozen (obj : Obj) : Prop where
  extensible : obj.extensible = false
  length : obj.length = none
  configurable : ∀ key property, obj.own key = some property → property.configurable = false
  writable : ∀ key value writable configurable,
    obj.own key = some ⟨.data value writable, configurable⟩ → writable = false

/-- `Object.freeze` leaves a frozen object, of one that is no array. -/
theorem frozen_freeze {obj : Obj} (h : obj.length = none) : obj.freeze.Frozen := by
  refine ⟨rfl, h, fun key property hkey => ?_, fun key value writable configurable hkey => ?_⟩
  · obtain ⟨before, -, rfl⟩ := Option.map_eq_some_iff.mp hkey
    rfl
  · obtain ⟨⟨content, _⟩, -, hafter⟩ := Option.map_eq_some_iff.mp hkey
    rw [Property.mk.injEq] at hafter
    cases content with
    | data before w =>
        have hcontent := hafter.1
        rw [Content.data.injEq] at hcontent
        exact hcontent.2.symm
    | accessor => cases hafter.1

/-- The own property under the key is another one. -/
def put (obj : Obj) (key : Key) (property : Option Property) : Obj :=
  { obj with own := Function.update obj.own key property }

/-- A new property. An element behind the end of an array makes the array longer. -/
def add (obj : Obj) (key : Key) (property : Property) : Obj :=
  { obj.put key (some property) with
    length := match key with
      | .index n => obj.length.map (max (n + 1))
      | _ => obj.length }

/-- The length that is left when an array of length `n` is to be cut to `length`: it is cut behind
the last element that cannot be deleted. -/
def cutTo (own : Key → Option Property) (length : ℕ) : ℕ → ℕ
  | 0 => 0
  | n + 1 =>
      if n + 1 ≤ length then n + 1
      else match own (.index n) with
        | some ⟨_, false⟩ => n + 1
        | _ => cutTo own length n

/-- `obj.length = length`, for an array. -/
def setLength (obj : Obj) (length : ℕ) : Obj :=
  match obj.length with
  | none => obj
  | some n =>
      if n ≤ length then { obj with length := some length }
      else
        { obj with
          own := fun key => match key with
            | .index i => if i < cutTo obj.own length n then obj.own key else none
            | _ => obj.own key
          length := some (cutTo obj.own length n) }

/-- `delete obj[key]`. -/
def delete (obj : Obj) (key : Key) : Obj :=
  match obj.own key with
  | some ⟨_, true⟩ => obj.put key none
  | _ => obj

/-- `Object.defineProperty(obj, key, …)`, with all the attributes given. -/
def define (obj : Obj) (key : Key) (property : Property) : Obj :=
  match obj.own key with
  | some ⟨_, true⟩ => obj.put key (some property)
  | some ⟨.data _ true, false⟩ =>
      match property with
      | ⟨.data _ _, false⟩ => obj.put key (some property)
      | _ => obj
  | some _ => obj
  | none => if obj.extensible then obj.add key property else obj

end Obj

/-- What code does to an object: an assignment, to a property or to the length of an array, the
definition of a property, a deletion, an assignment to `__proto__`; or it makes a new one. -/
inductive Mutation where
  | assign (r : Ref) (key : Key) (value : Slot)
  | setLength (r : Ref) (length : ℕ)
  | define (r : Ref) (key : Key) (property : Property)
  | delete (r : Ref) (key : Key)
  | setProto (r : Ref) (proto : Option Ref)
  | create (obj : Obj)

/-- The object that a write goes to. -/
def Mutation.target : Mutation → Option Ref
  | .assign r _ _ | .setLength r _ | .define r _ _ | .delete r _ | .setProto r _ => some r
  | .create _ => none

namespace Heap

/-- The property that is found from an object on, along at most `fuel` objects. -/
def find (heap : Heap) : ℕ → Option Ref → Key → Option Property
  | fuel + 1, some r, key =>
      match heap[r]? with
      | none => none
      | some obj =>
          match obj.own key with
          | some property => some property
          | none => find heap fuel obj.proto key
  | _, _, _ => none

/-- The property under the key of the object, its own or inherited. No prototypes go round in a
circle, so there are at most as many as there are objects. -/
def property (heap : Heap) (r : Option Ref) (key : Key) : Option Property :=
  find heap heap.length r key

/-- The object is among `fuel` prototypes from `r` on. -/
def inherits (heap : Heap) (r : Ref) : ℕ → Option Ref → Bool
  | fuel + 1, some s =>
      s = r || match heap[s]? with
        | none => false
        | some obj => inherits heap r fuel obj.proto
  | _, _ => false

/-- `obj[key] = value`, in an object that does not have the property itself. -/
def assignNew (heap : Heap) (obj : Obj) (key : Key) (value : Slot) : Obj :=
  match heap.property obj.proto key with
  | some ⟨.data _ false, _⟩ | some ⟨.accessor, _⟩ => obj
  | _ => if obj.extensible then obj.add key ⟨.data value true, true⟩ else obj

/-- `obj[key] = value`. A setter is a function of someone else, and changes nothing here. -/
def assign (heap : Heap) (obj : Obj) (key : Key) (value : Slot) : Obj :=
  match obj.own key with
  | some ⟨.data _ true, configurable⟩ => obj.put key (some ⟨.data value true, configurable⟩)
  | some _ => obj
  | none => heap.assignNew obj key value

/-- `obj.__proto__ = proto`, which is refused when the prototypes would go round in a circle. -/
def setProto (heap : Heap) (r : Ref) (obj : Obj) (proto : Option Ref) : Obj :=
  if obj.extensible ∧ heap.inherits r heap.length proto = false then { obj with proto } else obj

/-- The heap after a write. -/
def mutate (heap : Heap) : Mutation → Heap
  | .assign r key value => heap.modify r fun obj => heap.assign obj key value
  | .setLength r length => heap.modify r fun obj => obj.setLength length
  | .define r key property => heap.modify r fun obj => obj.define key property
  | .delete r key => heap.modify r fun obj => obj.delete key
  | .setProto r proto => heap.modify r fun obj => heap.setProto r obj proto
  | .create obj => heap ++ [obj]

/-! ### Frozen objects -/

variable {heap : Heap} {r : Ref} {obj : Obj}

/-- An assignment to a frozen object changes nothing. -/
theorem assign_of_frozen (heap : Heap) (h : obj.Frozen) (key : Key) (value : Slot) :
    heap.assign obj key value = obj := by
  rw [assign]
  split
  · next before configurable hown => cases h.writable _ _ _ _ hown
  · rfl
  · rw [assignNew]
    split
    · rfl
    · rfl
    · rw [h.extensible]
      rfl

/-- Nor does one to its length. -/
theorem setLength_of_frozen (h : obj.Frozen) (length : ℕ) : obj.setLength length = obj := by
  rw [Obj.setLength, h.length]

/-- Nor does a `delete`. -/
theorem delete_of_frozen (h : obj.Frozen) (key : Key) : obj.delete key = obj := by
  rw [Obj.delete]
  split
  · next content hown => cases h.configurable _ _ hown
  · rfl

/-- Nor does a definition of a property. -/
theorem define_of_frozen (h : obj.Frozen) (key : Key) (property : Property) :
    obj.define key property = obj := by
  cases hown : obj.own key with
  | none => simp [Obj.define, hown, h.extensible]
  | some before =>
      obtain ⟨content, configurable⟩ := before
      obtain rfl : configurable = false := h.configurable key _ hown
      cases content with
      | data value writable =>
          obtain rfl : writable = false := h.writable key value writable false hown
          simp [Obj.define, hown]
      | accessor => simp [Obj.define, hown]

/-- Nor does a change of its prototype. -/
theorem setProto_of_frozen (heap : Heap) (h : obj.Frozen) (r : Ref) (proto : Option Ref) :
    heap.setProto r obj proto = obj := by
  rw [setProto, h.extensible]
  simp

/-- What leaves the object at `r` alone leaves it in the heap. -/
theorem getElem?_modify_of_eq {f : Obj → Obj} (h : heap[r]? = some obj) (hf : f obj = obj)
    (s : Ref) : (heap.modify s f)[r]? = some obj := by
  rw [List.getElem?_modify, h]
  obtain rfl | hne := eq_or_ne s r
  · simp [hf]
  · simp [hne]

/-- **No write changes an object that is frozen.** -/
theorem mutate_of_frozen (h : heap[r]? = some obj) (hfrozen : obj.Frozen) (m : Mutation) :
    (heap.mutate m)[r]? = some obj := by
  cases m with
  | assign s key value => exact getElem?_modify_of_eq h (assign_of_frozen heap hfrozen key value) s
  | setLength s length => exact getElem?_modify_of_eq h (setLength_of_frozen hfrozen length) s
  | define s key property => exact getElem?_modify_of_eq h (define_of_frozen hfrozen key property) s
  | delete s key => exact getElem?_modify_of_eq h (delete_of_frozen hfrozen key) s
  | setProto s proto =>
      exact getElem?_modify_of_eq (f := fun obj => heap.setProto s obj proto) h
        (setProto_of_frozen heap hfrozen s proto) s
  | create new =>
      rw [mutate, List.getElem?_append_left]
      · exact h
      · exact (List.getElem?_eq_some_iff.mp h).1

/-- A write to an object that is frozen does nothing. -/
theorem mutate_target_frozen (h : heap[r]? = some obj) (hfrozen : obj.Frozen) {m : Mutation}
    (hm : m.target = some r) : heap.mutate m = heap := by
  have hmodify : ∀ f : Obj → Obj, f obj = obj → heap.modify r f = heap := by
    intro f hf
    refine List.ext_getElem? fun s => ?_
    rw [List.getElem?_modify]
    obtain rfl | hne := eq_or_ne r s
    · rw [h]
      simp [hf]
    · simp [hne]
  cases m with
  | assign s key value =>
      obtain rfl := Option.some.inj hm
      exact hmodify _ (assign_of_frozen heap hfrozen key value)
  | setLength s length =>
      obtain rfl := Option.some.inj hm
      exact hmodify _ (setLength_of_frozen hfrozen length)
  | define s key property =>
      obtain rfl := Option.some.inj hm
      exact hmodify _ (define_of_frozen hfrozen key property)
  | delete s key =>
      obtain rfl := Option.some.inj hm
      exact hmodify _ (delete_of_frozen hfrozen key)
  | setProto s proto =>
      obtain rfl := Option.some.inj hm
      exact hmodify _ (setProto_of_frozen heap hfrozen s proto)
  | create new => cases hm

/-- An own property is the one that is found. -/
theorem property_of_own (h : heap[r]? = some obj) {key : Key} {property : Property}
    (hown : obj.own key = some property) : heap.property (some r) key = some property := by
  have hlen := (List.getElem?_eq_some_iff.mp h).1
  obtain ⟨fuel, hfuel⟩ := Nat.exists_eq_succ_of_ne_zero (Nat.ne_zero_of_lt hlen)
  rw [Heap.property, hfuel, find, h]
  simp only [hown]

/-- A property of the prototype is found behind an object that does not have it. -/
theorem property_of_proto {s : Ref} {proto : Obj} {key : Key} {property : Property}
    (hlen : 1 < heap.length) (h : heap[r]? = some obj) (hnone : obj.own key = none)
    (hproto : obj.proto = some s) (hs : heap[s]? = some proto)
    (hown : proto.own key = some property) : heap.property (some r) key = some property := by
  obtain ⟨fuel, hfuel⟩ := Nat.exists_eq_add_of_lt hlen
  rw [Heap.property, hfuel, find, h]
  simp only [hnone, hproto]
  rw [Nat.add_comm 1 fuel, find, hs]
  simp only [hown]

end Heap

end Js
