import EightEen.Js.Bytes
import EightEen.Js.Value
import Mathlib.Data.Rat.Floor

/-!
# Views of a Buffer

A binary object is a window onto the bytes of an underlying buffer (`View`): a `Buffer` or a
`Uint8Array` shows them one by one, a wider array shows several of them as one number, and a
`DataView` shows nothing unless it is asked. `bufferFrom` is `Buffer.from(v)`, which takes the
bytes of an `ArrayBuffer` and otherwise **copies elements**, each reduced modulo 256.

Numbers of several bytes are stored with their lowest byte first.

## Main results

* `View.copied_eq`, `View.slice_eq`: read through the underlying buffer at its offset, a view
  shows what its bytes alone determine.
* `bufferFrom_eq_ok_iff`: a copy holds the bytes of the original exactly when its class shows
  the bytes one by one.
-/

namespace Js

/-! ### Elements -/

namespace BinaryClass

/-- The classes of the language: integers of one, two or four bytes, BigInts of eight, and
floating point numbers of two, four or eight. -/
def Exists : BinaryClass → Prop
  | intArray width => width ∈ [1, 2, 4, 8]
  | floatArray width => width ∈ [2, 4, 8]
  | _ => True

/-- The bytes that one element takes, for an object that has elements. -/
def elementWidth : BinaryClass → Option ℕ
  | buffer | uint8Array => some 1
  | intArray width | floatArray width => some width
  | dataView | arrayBuffer => none

/-- The class shows the bytes one by one, or is the buffer itself. -/
def bytewise : BinaryClass → Bool
  | arrayBuffer => true
  | cls => cls.elementWidth = some 1

end BinaryClass

/-- The integer that an element of an integer array shows, up to multiples of the range of its
width. -/
def intElement (element : List UInt8) : ℕ :=
  readBE element.reverse

/-- The widths of the exponent and of the significand of a floating point number. -/
def floatFormat (width : ℕ) : ℕ × ℕ :=
  if width = 2 then (5, 10) else if width = 4 then (8, 23) else (11, 52)

/-- The number that an element of a floating point array shows. -/
def floatElement (element : List UInt8) : Number :=
  let (exponentBits, significandBits) := floatFormat element.length
  let n := readBE element.reverse
  let significand := n % 2 ^ significandBits
  let exponent := n / 2 ^ significandBits % 2 ^ exponentBits
  let negative := n / 2 ^ (significandBits + exponentBits) % 2 = 1
  let bias : ℤ := 2 ^ (exponentBits - 1) - 1 + significandBits
  if exponent = 2 ^ exponentBits - 1 then
    if significand ≠ 0 then .nan else if negative then .negInf else .posInf
  else
    let magnitude : ℚ :=
      if exponent = 0 then significand * (2 : ℚ) ^ (1 - bias)
      else (2 ^ significandBits + significand : ℕ) * (2 : ℚ) ^ (exponent - bias)
    .finite (if negative then -magnitude else magnitude)

/-- The byte that a number is stored as: its integral part modulo 256, and 0 for a number that
is not finite. -/
def toUint8 : Number → UInt8
  | .finite q => UInt8.ofNat ((if q < 0 then ⌈q⌉ else ⌊q⌋) % 256).toNat
  | _ => 0

/-- The elements of `width` bytes each that `data` is made of. -/
def elements (width : ℕ) (data : List UInt8) : List (List UInt8) :=
  (List.range (data.length / width)).map fun i => (data.drop (i * width)).take width

/-- `Buffer.from(v)`, for an object of the class `cls` over the bytes `data`: a copy of the
elements, one byte each. BigInts have no place in it, and a `DataView` has no elements. -/
def bufferFrom (cls : BinaryClass) (data : List UInt8) : Completion (List UInt8) :=
  match cls with
  | .arrayBuffer => .ok data
  | .dataView => .ok []
  | .buffer | .uint8Array => .ok ((elements 1 data).map fun e => UInt8.ofNat (intElement e))
  | .intArray width =>
      if width = 8 ∧ data ≠ [] then
        .error (.typeError "Cannot mix BigInt and other types, use explicit conversions")
      else .ok ((elements width data).map fun e => UInt8.ofNat (intElement e))
  | .floatArray width => .ok ((elements width data).map fun e => toUint8 (floatElement e))

@[simp] theorem length_elements (width : ℕ) (data : List UInt8) :
    (elements width data).length = data.length / width := by
  simp [elements]

/-- Elements of one byte are the bytes. -/
theorem map_elements_one (data : List UInt8) :
    (elements 1 data).map (fun e => UInt8.ofNat (intElement e)) = data := by
  refine List.ext_getElem (by simp) ?_
  intro i hi hdata
  have hone : (data.drop i).take 1 = [data[i]] := by
    rw [List.drop_eq_getElem_cons hdata, List.take_succ_cons, List.take_zero]
  simp [elements, hone, intElement, readBE]

/-- **When a copy holds the bytes of the original**: exactly when the class shows the bytes one
by one. -/
theorem bufferFrom_eq_ok_iff {cls : BinaryClass} {data : List UInt8} (hcls : cls.Exists)
    (hne : data ≠ []) : bufferFrom cls data = .ok data ↔ cls.bytewise = true := by
  have hpos : 0 < data.length := List.length_pos_iff.mpr hne
  -- A wider element makes the copy shorter than the original.
  have hshort : ∀ width, 2 ≤ width → ∀ f : List UInt8 → UInt8,
      (elements width data).map f ≠ data := by
    intro width hwidth f h
    have hlen := congrArg List.length h
    rw [List.length_map, length_elements] at hlen
    exact absurd hlen (Nat.div_lt_self hpos hwidth).ne
  cases cls with
  | arrayBuffer => simp [bufferFrom, BinaryClass.bytewise]
  | dataView =>
      simpa [bufferFrom, BinaryClass.bytewise, BinaryClass.elementWidth] using hne
  | buffer =>
      simp [bufferFrom, BinaryClass.bytewise, BinaryClass.elementWidth, map_elements_one]
  | uint8Array =>
      simp [bufferFrom, BinaryClass.bytewise, BinaryClass.elementWidth, map_elements_one]
  | intArray width =>
      by_cases hone : width = 1
      · subst hone
        simp [bufferFrom, BinaryClass.bytewise, BinaryClass.elementWidth, map_elements_one]
      · have hwidth : 2 ≤ width := by
          simp only [BinaryClass.Exists, List.mem_cons, List.not_mem_nil, or_false] at hcls
          omega
        refine iff_of_false ?_ (by simpa [BinaryClass.bytewise, BinaryClass.elementWidth])
        intro h
        rw [bufferFrom] at h
        split at h
        · cases h
        · exact hshort width hwidth _ (Except.ok.inj h)
  | floatArray width =>
      have hwidth : 2 ≤ width := by
        simp only [BinaryClass.Exists, List.mem_cons, List.not_mem_nil, or_false] at hcls
        omega
      refine iff_of_false ?_ ?_
      · intro h
        exact hshort width hwidth _ (Except.ok.inj h)
      · simp only [BinaryClass.bytewise, BinaryClass.elementWidth, Option.some.injEq,
          decide_eq_true_eq]
        omega

/-! ### Windows -/

/-- A binary object: the bytes of the underlying buffer and the window of them that it covers,
which lies inside the buffer and is aligned to the elements. An `ArrayBuffer` covers itself. -/
structure View where
  cls : BinaryClass
  buffer : List UInt8
  byteOffset : ℕ
  byteLength : ℕ
  exists_cls : cls.Exists
  fits : byteOffset + byteLength ≤ buffer.length
  aligned : ∀ width, cls.elementWidth = some width → width ∣ byteOffset ∧ width ∣ byteLength
  covers : cls = .arrayBuffer → byteOffset = 0 ∧ byteLength = buffer.length

namespace View

/-- The bytes that the view covers. -/
def bytes (v : View) : List UInt8 :=
  (v.buffer.drop v.byteOffset).take v.byteLength

/-- The value that a program holds. -/
def toValue (v : View) : Value :=
  .binary v.cls v.bytes

@[simp] theorem length_bytes (v : View) : v.bytes.length = v.byteLength := by
  have hfits := v.fits
  rw [bytes, List.length_take, List.length_drop]
  omega

/-- The view is empty exactly when it covers no bytes. -/
theorem byteLength_eq_zero_iff (v : View) : v.byteLength = 0 ↔ v.bytes = [] := by
  rw [← v.length_bytes, List.length_eq_zero_iff]

/-- The elements, read through the underlying buffer: the `i`-th one lies `i * width` bytes
behind the offset. -/
def elements (v : View) (width : ℕ) : List (List UInt8) :=
  (List.range (v.byteLength / width)).map fun i =>
    (v.buffer.drop (v.byteOffset + i * width)).take width

/-- **Elements do not depend on where the window lies.** -/
theorem elements_eq (v : View) (width : ℕ) : v.elements width = Js.elements width v.bytes := by
  rw [elements, Js.elements, length_bytes]
  refine List.map_congr_left ?_
  intro i hi
  have hend : (i + 1) * width ≤ v.byteLength :=
    (Nat.mul_le_mul_right width (List.mem_range.mp hi)).trans (Nat.div_mul_le_self _ _)
  rw [bytes, List.drop_take, List.take_take, List.drop_drop, Nat.min_eq_left]
  rw [Nat.succ_mul] at hend
  omega

/-- `Buffer.from(v)`, read through the underlying buffer. -/
def copied (v : View) : Completion (List UInt8) :=
  match v.cls with
  | .arrayBuffer => .ok v.buffer
  | .dataView => .ok []
  | .buffer | .uint8Array => .ok ((v.elements 1).map fun e => UInt8.ofNat (intElement e))
  | .intArray width =>
      if width = 8 ∧ v.byteLength ≠ 0 then
        .error (.typeError "Cannot mix BigInt and other types, use explicit conversions")
      else .ok ((v.elements width).map fun e => UInt8.ofNat (intElement e))
  | .floatArray width => .ok ((v.elements width).map fun e => toUint8 (floatElement e))

/-- **A copy is determined by the class and the bytes.** -/
theorem copied_eq (v : View) : v.copied = bufferFrom v.cls v.bytes := by
  cases hcls : v.cls with
  | arrayBuffer =>
      obtain ⟨hoffset, hlength⟩ := v.covers hcls
      simp [copied, hcls, bufferFrom, bytes, hoffset, hlength]
  | intArray width =>
      simp only [copied, hcls, bufferFrom, elements_eq, ne_eq, byteLength_eq_zero_iff]
  | floatArray width => simp only [copied, hcls, bufferFrom, elements_eq]
  | buffer | uint8Array => simp only [copied, hcls, bufferFrom, elements_eq]
  | dataView => simp only [copied, hcls, bufferFrom]

/-- `Buffer.from(buffer, byteOffset, length)`: a window of its own onto the same bytes. -/
def slice (buffer : List UInt8) (byteOffset length : ℕ) : List UInt8 :=
  (buffer.drop byteOffset).take length

theorem slice_eq (v : View) : slice v.buffer v.byteOffset v.byteLength = v.bytes := rfl

end View

end Js
