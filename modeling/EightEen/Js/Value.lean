import Mathlib.Algebra.Order.Ring.Rat
import Mathlib.Data.Rat.Cast.Order

/-!
# JavaScript Values

The part of the language a program meets at its edges: the values that arrive from a
configuration file, an HTTP reply or a caller, and the conversions the language applies
to them without being asked. `Value` is a tree of such values, `truthy`, `nullish` and
`orElse` are the tests behind `if`, `??` and `?.`, `strictEq` is `===`, and `get` is a
property read.

Text conversion is **partial**: `template` is what `${v}` does and `stringOf` is what
`String(v)` does, and both throw on an object that shadows `toString` and `valueOf` with
something that cannot be called. An object of that shape is an ordinary JSON value.

## Main definitions

* `Number`, `Value`: the values, with doubles as exact rationals or one of the three
  values that are not finite.
* `Runtime`: the conversions whose output is only ever shown to a person, taken as fixed
  functions.
* `Value.template`, `Value.stringOf`: the two text conversions, which throw on an object
  of that shape (`template_throws_iff`).
-/

namespace Js

/-- A Number: a finite double, as the rational it denotes, or a value that is not
finite. -/
inductive Number where
  | nan
  | posInf
  | negInf
  | finite (q : ℚ)
  deriving DecidableEq

/-- The classes of binary object, by what `Buffer.from` and `instanceof` tell apart. The
width of an array class is the number of bytes of an element. -/
inductive BinaryClass where
  | buffer
  | uint8Array
  | intArray (width : ℕ)
  | floatArray (width : ℕ)
  | dataView
  | arrayBuffer
  deriving DecidableEq

/-- A value. `binary` carries the bytes its view covers; `object` carries its readable
properties in enumeration order, the order of `Object.values`. Two values of a reference
type (`function`, `symbol`, `binary`, `array`, `object`) that a program obtains from
different places are different references, which is what `strictEq` assumes. -/
inductive Value where
  | undefined
  | null
  | boolean (b : Bool)
  | number (x : Number)
  | bigint (n : ℤ)
  | string (s : String)
  | symbol (description : String)
  | function (source : String)
  | binary (cls : BinaryClass) (data : List UInt8)
  | array (items : List Value)
  | object (props : List (String × Value))

/-- What a `throw` carries: an error of the language with its message, or any value. -/
inductive Thrown where
  | typeError (message : String)
  | rangeError (message : String)
  | error (message : String)
  | other (v : Value)

/-- The end of an evaluation: a value, or something thrown. -/
abbrev Completion (α : Type) := Except Thrown α

/-- A sequence of two evaluations returns when both do. -/
theorem bind_eq_ok {α β : Type} {x : Completion α} {f : α → Completion β} {b : β} :
    x >>= f = .ok b ↔ ∃ a, x = .ok a ∧ f a = .ok b := by
  cases x with
  | ok a => simp [bind, Except.bind]
  | error e => simp [bind, Except.bind]

/-- A sequence of two evaluations throws what the first throws, or what the second
does. -/
theorem bind_eq_error {α β : Type} {x : Completion α} {f : α → Completion β} {e : Thrown} :
    x >>= f = .error e ↔ x = .error e ∨ ∃ a, x = .ok a ∧ f a = .error e := by
  cases x with
  | ok a => simp [bind, Except.bind]
  | error e => simp [bind, Except.bind]

/-- A call that has a result is one that has returned it. -/
theorem toOption_eq_some_iff {ε α : Type} {x : Except ε α} {a : α} :
    x.toOption = some a ↔ x = .ok a := by
  cases x with
  | error e => exact ⟨nofun, nofun⟩
  | ok b => rw [Except.toOption, Option.some.injEq, Except.ok.injEq]

/-- The conversions of the runtime that only produce text for people: numbers, binary
objects, and objects that bring a callable `toString` or `valueOf` of their own. -/
structure Runtime where
  numberText : Number → String
  binaryText : BinaryClass → List UInt8 → String
  methodText : List (String × Value) → Completion String

/-- The number `n`. -/
def Value.ofNat (n : ℕ) : Value := .number (.finite n)

namespace Value

/-! ### Tests -/

/-- `if (v)`. -/
def truthy : Value → Bool
  | undefined | null => false
  | boolean b => b
  | number .nan => false
  | number (.finite q) => q ≠ 0
  | number _ => true
  | bigint n => n ≠ 0
  | string s => s ≠ ""
  | _ => true

/-- `v == null`. -/
def nullish : Value → Bool
  | undefined | null => true
  | _ => false

/-- `v ?? d`. -/
def orElse (v d : Value) : Value :=
  if v.nullish then d else v

/-- The value of a parameter that was passed `v` and has the default `d`. -/
def orDefault : Value → Value → Value
  | undefined, d => d
  | v, _ => v

/-- `typeof v`. -/
def typeOf : Value → String
  | undefined => "undefined"
  | boolean _ => "boolean"
  | number _ => "number"
  | bigint _ => "bigint"
  | string _ => "string"
  | symbol _ => "symbol"
  | function _ => "function"
  | _ => "object"

/-- `v && typeof v === 'object'`: the values a program may treat as a record. -/
def isObject (v : Value) : Bool :=
  v.truthy && v.typeOf == "object"

/-- `typeof v === 'function'`. -/
def isFunction : Value → Bool
  | function _ => true
  | _ => false

/-- `typeof v === 'number' && Number.isFinite(v)`, with the number. -/
def finite? : Value → Option ℚ
  | number (.finite q) => some q
  | _ => none

/-- `v === w`. NaN differs from itself, and so do reference values from different
places. -/
def strictEq : Value → Value → Bool
  | undefined, undefined | null, null => true
  | boolean a, boolean b => a == b
  | number .nan, _ => false
  | number a, number b => a == b
  | bigint a, bigint b => a == b
  | string a, string b => a == b
  | _, _ => false

/-! ### Properties -/

/-- The property `name` among `props`, or `undefined`. -/
def lookup (props : List (String × Value)) (name : String) : Value :=
  match props.find? (fun p => p.1 == name) with
  | some p => p.2
  | none => undefined

/-- `v?.name`: no value but an object has the properties a program asks for by name. -/
def get (v : Value) (name : String) : Value :=
  match v with
  | object props => lookup props name
  | _ => undefined

/-- `Object.values(v)`. The elements of a binary object are numbers, which no caller
here looks into. -/
def values : Value → List Value
  | object props => props.map (·.2)
  | array items => items
  | _ => []

/-- The elements of an array, and nothing for a value `Array.isArray` refuses. -/
def items : Value → List Value
  | array xs => xs
  | _ => []

/-- A value without parts, of those that JSON has. -/
def isScalar : Value → Bool
  | null | boolean _ | number _ | string _ => true
  | _ => false

/-- A record of scalars. -/
def isFlat : Value → Bool
  | object props => props.all fun p => p.2.isScalar
  | _ => false

/-- `{ ...v, name: x }`. A value that is not an object spreads to nothing that is asked for
by name. -/
def withField (v : Value) (name : String) (x : Value) : Value :=
  match v with
  | object props => object ((name, x) :: props.filter fun p => p.1 != name)
  | _ => object [(name, x)]

/-! ### Text -/

/-- `toString` then `valueOf`, as an object's own properties answer: the inherited
`toString` if the object does not shadow it, the object's own method if it has one to
call, and a `TypeError` otherwise, since the inherited `valueOf` returns the object
itself. -/
def objectText (rt : Runtime) (props : List (String × Value)) : Completion String :=
  if props.any (fun p => p.1 == "toString") then
    if (lookup props "toString").isFunction || (lookup props "valueOf").isFunction then
      rt.methodText props
    else
      .error (.typeError "Cannot convert object to primitive value")
  else
    .ok "[object Object]"

mutual

/-- `${v}`. -/
def template (rt : Runtime) : Value → Completion String
  | undefined => .ok "undefined"
  | null => .ok "null"
  | boolean b => .ok (if b then "true" else "false")
  | number x => .ok (rt.numberText x)
  | bigint n => .ok (toString n)
  | string s => .ok s
  | symbol _ => .error (.typeError "Cannot convert a Symbol value to a string")
  | function source => .ok source
  | binary cls data => .ok (rt.binaryText cls data)
  | array xs =>
      match joinParts rt xs with
      | .ok parts => .ok (",".intercalate parts)
      | .error e => .error e
  | object props => objectText rt props

/-- The parts `Array.prototype.join` puts commas between: an element that is `null` or
`undefined` contributes nothing. -/
def joinParts (rt : Runtime) : List Value → Completion (List String)
  | [] => .ok []
  | x :: xs =>
      match (if x.nullish then .ok "" else template rt x), joinParts rt xs with
      | .ok part, .ok parts => .ok (part :: parts)
      | .error e, _ => .error e
      | _, .error e => .error e

end

/-- `String(v)`, which differs from `${v}` on symbols alone. -/
def stringOf (rt : Runtime) : Value → Completion String
  | symbol description => .ok ("Symbol(" ++ description ++ ")")
  | v => template rt v

mutual

/-- `${v}` has nothing to show: a symbol, an object whose own `toString` hides the inherited
one without a method to call in its place, or an array that holds a value of this kind. -/
def textless (rt : Runtime) : Value → Bool
  | symbol _ => true
  | array xs => anyTextless rt xs
  | object props =>
      props.any (fun p => p.1 == "toString") &&
        (!((lookup props "toString").isFunction || (lookup props "valueOf").isFunction) ||
          !(rt.methodText props).isOk)
  | _ => false

/-- One of the values has no text. -/
def anyTextless (rt : Runtime) : List Value → Bool
  | [] => false
  | x :: xs => textless rt x || anyTextless rt xs

end

/-- `throw new TypeError(message + v)`: the message quotes a value, whose text has to be
there. -/
def throwShowing {α : Type} (rt : Runtime) (message : String) (v : Value) : Completion α :=
  match template rt v with
  | .ok shown => .error (.typeError (message ++ shown))
  | .error e => .error e

/-! ### Basic reductions -/

/-- A `throw` never returns, whether or not the value that it shows has a text. -/
theorem throwShowing_ne_ok {α : Type} (rt : Runtime) (message : String) (v : Value) (a : α) :
    throwShowing rt message v ≠ .ok a := by
  rw [throwShowing]
  split <;> simp

/-- A string is truthy unless it is empty. -/
@[simp] theorem truthy_string (s : String) : (string s).truthy = true ↔ s ≠ "" := by
  simp [truthy]

/-- A read of an object is a lookup in its properties. -/
@[simp] theorem get_object (props : List (String × Value)) (name : String) :
    (object props).get name = lookup props name := rfl

/-- A field that was just set reads back. -/
theorem get_withField_self (v : Value) (name : String) (x : Value) :
    (v.withField name x).get name = x := by
  cases v <;> simp [withField, get, lookup]

/-- The other fields are kept. -/
theorem get_withField_of_ne (v : Value) {name name' : String} (x : Value) (h : name ≠ name') :
    (v.withField name x).get name' = v.get name' := by
  cases v with
  | object props =>
      rw [withField, get, get, lookup, lookup, List.find?_cons_of_neg (by simpa using h),
        List.find?_filter]
      congr 2
      funext p
      by_cases hp : p.1 = name'
      · simp [hp, Ne.symm h]
      · simp [hp]
  | _ => simp [withField, get, lookup, h]

/-- `?.` on a missing value reads as `undefined`. -/
@[simp] theorem get_of_nullish {v : Value} (h : v.nullish = true) (name : String) :
    v.get name = undefined := by
  cases v <;> simp_all [nullish, get]

/-- `undefined ?? d` is `d`. -/
@[simp] theorem orElse_undefined (d : Value) : undefined.orElse d = d := rfl

/-- `null ?? d` is `d`. -/
@[simp] theorem orElse_null (d : Value) : null.orElse d = d := rfl

/-- A value that is there is kept by `??`. -/
theorem orElse_of_not_nullish {v : Value} (h : v.nullish = false) (d : Value) :
    v.orElse d = v := by
  simp [orElse, h]

/-- Only the same string is `===` to a string. -/
theorem strictEq_string (v : Value) (s : String) :
    v.strictEq (string s) = true ↔ v = string s := by
  cases v with
  | number x => cases x <;> simp [strictEq]
  | _ => simp [strictEq]

/-- Only the same boolean is `===` to a boolean. -/
theorem strictEq_boolean (v : Value) (b : Bool) :
    v.strictEq (boolean b) = true ↔ v = boolean b := by
  cases v with
  | number x => cases x <;> simp [strictEq]
  | _ => simp [strictEq]

/-- Only the same number is `===` to a finite one. -/
theorem strictEq_finite (v : Value) (q : ℚ) :
    v.strictEq (number (.finite q)) = true ↔ v = number (.finite q) := by
  cases v with
  | number x => cases x <;> simp [strictEq]
  | _ => simp [strictEq]

/-- Only the same number is `===` to a whole one. -/
theorem strictEq_ofNat (v : Value) (n : ℕ) : v.strictEq (ofNat n) = true ↔ v = ofNat n :=
  strictEq_finite v n

/-- Different natural numbers are different Numbers here, where a Number is an exact rational. -/
theorem ofNat_injective {m n : ℕ} (h : ofNat m = ofNat n) : m = n := by
  have hq : (m : ℚ) = n := Number.finite.inj (Value.number.inj h)
  exact_mod_cast hq

/-- The finite part of a value is there exactly when the value is a finite number. -/
theorem finite?_eq_some_iff (v : Value) (q : ℚ) :
    v.finite? = some q ↔ v = number (.finite q) := by
  cases v with
  | number x => cases x <;> simp [finite?]
  | _ => simp [finite?]

/-- A string, a number or a missing value always has a text. -/
theorem template_string (rt : Runtime) (s : String) : (string s).template rt = .ok s := by
  rw [template]

/-- `String(s)` of a string is the string. -/
theorem stringOf_string (rt : Runtime) (s : String) : (string s).stringOf rt = .ok s := by
  rw [stringOf, template]
  simp

/-- `undefined` and `null` have a text. -/
theorem stringOf_of_nullish (rt : Runtime) {v : Value} (h : v.nullish = true) :
    ∃ t, v.stringOf rt = .ok t := by
  cases v with
  | undefined => exact ⟨_, rfl⟩
  | null => exact ⟨_, rfl⟩
  | _ => exact absurd h (by simp [nullish])

/-- **When an object has no text**: the conversion throws exactly when both of its methods are
shadowed by something that cannot be called. -/
theorem objectText_throws_iff (rt : Runtime) (props : List (String × Value)) :
    (∃ e, objectText rt props = .error e) ↔ (object props).textless rt = true := by
  rw [objectText, textless]
  split
  · next hmem =>
      split
      · next hcall =>
          cases rt.methodText props with
          | ok t => simp [hcall, Except.isOk, Except.toBool]
          | error e => simp [hmem, Except.isOk, Except.toBool]
      · next hcall => simp [hmem, hcall]
  · next hmem => simp [hmem]

mutual

/-- **`${v}` throws on the values without a text, and on no others.** -/
theorem template_throws_iff (rt : Runtime) : ∀ v : Value,
    (∃ e, v.template rt = .error e) ↔ v.textless rt = true
  | undefined | null | boolean _ | number _ | bigint _ | string _ | function _ | binary _ _ => by
      simp [template, textless]
  | symbol _ => by simp [template, textless]
  | array xs => by
      have hparts := joinParts_throws_iff rt xs
      rw [template, textless, ← hparts]
      cases joinParts rt xs with
      | ok parts => simp
      | error e => simp
  | object props => by
      rw [template, objectText_throws_iff]

/-- A `join` throws exactly when one of the parts has no text. -/
theorem joinParts_throws_iff (rt : Runtime) : ∀ xs : List Value,
    (∃ e, joinParts rt xs = .error e) ↔ anyTextless rt xs = true
  | [] => by simp [joinParts, anyTextless]
  | x :: xs => by
      have hx := template_throws_iff rt x
      have hxs := joinParts_throws_iff rt xs
      have hpart : (∃ e, (if x.nullish then .ok "" else template rt x) = Except.error e) ↔
          x.textless rt = true := by
        rw [← hx]
        cases x <;> simp [nullish, template]
      rw [joinParts, anyTextless, Bool.or_eq_true, ← hpart, ← hxs]
      cases (if x.nullish then Except.ok "" else template rt x) with
      | ok part =>
          cases joinParts rt xs with
          | ok parts => simp
          | error e => simp
      | error e => simp

end

/-- `String(v)` shows a symbol as well. -/
theorem stringOf_throws_iff (rt : Runtime) (v : Value) :
    (∃ e, v.stringOf rt = .error e) ↔ v.textless rt = true ∧ v.typeOf ≠ "symbol" := by
  rw [← template_throws_iff]
  cases v with
  | symbol d => simp [stringOf, typeOf]
  | _ => simp [stringOf, typeOf]

end Value

end Js
