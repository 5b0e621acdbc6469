import Mathlib.Algebra.Order.Ring.Nat
import Mathlib.Data.List.Nodup

/-!
# Bytes and Numbers

What a program does between a number and its bytes: a big-endian stamp written and read
back (`writeBE`, `readBE`), the conversion of an integer to a Number, which rounds past
`2 ^ 53` (`toDouble`), and the base64url and base64 texts of a byte string (`base64Url`,
`base64`), with the reader of the latter (`unbase64`).

## Main results

* `readBE_writeBE`: a stamp that fits its width reads back as what was written.
* `toDouble_toDouble`: the conversion changes no integer twice, so a stamp that came from
  a Number is read back exactly.
* `base64Url_injective`: distinct byte strings have distinct texts.
* `unbase64_base64`: a base64 text reads back as the bytes it was made of.
-/

namespace Js

/-! ### Big-endian stamps -/

/-- The last `width` bytes of `n`, most significant first. -/
def writeBE : ℕ → ℕ → List UInt8
  | 0, _ => []
  | width + 1, n => writeBE width (n / 256) ++ [UInt8.ofNat (n % 256)]

/-- The number that the bytes spell, most significant first. -/
def readBE (bytes : List UInt8) : ℕ :=
  bytes.foldl (fun n byte => 256 * n + byte.toNat) 0

@[simp] theorem length_writeBE (width n : ℕ) : (writeBE width n).length = width := by
  induction width generalizing n with
  | zero => rfl
  | succ width ih => rw [writeBE, List.length_append, ih, List.length_singleton]

/-- **The stamp round trip.** -/
theorem readBE_writeBE {width n : ℕ} (h : n < 256 ^ width) : readBE (writeBE width n) = n := by
  induction width generalizing n with
  | zero =>
      rw [pow_zero, Nat.lt_one_iff] at h
      rw [h]
      rfl
  | succ width ih =>
      have hdiv : n / 256 < 256 ^ width := by
        rw [Nat.div_lt_iff_lt_mul (by decide), ← pow_succ]
        exact h
      have hlast : (UInt8.ofNat (n % 256)).toNat = n % 256 := by
        rw [UInt8.toNat_ofNat']
        exact Nat.mod_mod n 256
      rw [writeBE, readBE, List.foldl_append, ← readBE, ih hdiv, List.foldl_cons,
        List.foldl_nil, hlast]
      exact Nat.div_add_mod n 256

/-! ### Conversion to a Number -/

/-- `Number(n)` for a BigInt: the nearest double, and the even one of two that are equally
near. -/
def toDouble (n : ℕ) : ℕ :=
  if n < 2 ^ 53 then n
  else
    let ulp := 2 ^ (n.log2 - 52)
    let low := n / ulp * ulp
    if 2 * (n % ulp) < ulp ∨ (2 * (n % ulp) = ulp ∧ n / ulp % 2 = 0) then low else low + ulp

/-- Below `2 ^ 53` every integer is a double. -/
theorem toDouble_of_lt {n : ℕ} (h : n < 2 ^ 53) : toDouble n = n := by
  rw [toDouble, if_pos h]

/-- An integer with a significand of 53 bits is a double. -/
theorem toDouble_mul_two_pow {m : ℕ} (k : ℕ) (hm : m ≤ 2 ^ 53) :
    toDouble (m * 2 ^ k) = m * 2 ^ k := by
  by_cases hsmall : m * 2 ^ k < 2 ^ 53
  · exact toDouble_of_lt hsmall
  have hne : m * 2 ^ k ≠ 0 := by
    intro h0
    rw [h0] at hsmall
    exact hsmall (by decide)
  have hdvd : 2 ^ ((m * 2 ^ k).log2 - 52) ∣ m * 2 ^ k := by
    rcases Nat.lt_or_eq_of_le hm with hlt | rfl
    · have hlog : (m * 2 ^ k).log2 < 53 + k := by
        rw [Nat.log2_lt hne, pow_add]
        exact Nat.mul_lt_mul_of_pos_right hlt (Nat.two_pow_pos k)
      exact Dvd.dvd.mul_left (pow_dvd_pow 2 (by omega)) m
    · rw [← pow_add, Nat.log2_two_pow]
      exact pow_dvd_pow 2 (by omega)
  have hmod := Nat.mod_eq_zero_of_dvd hdvd
  rw [toDouble, if_neg hsmall]
  simp only [hmod, Nat.mul_zero, Nat.two_pow_pos, true_or, if_true]
  exact Nat.div_mul_cancel hdvd

/-- **A converted integer is a double already.** -/
theorem toDouble_toDouble (n : ℕ) : toDouble (toDouble n) = toDouble n := by
  by_cases hsmall : n < 2 ^ 53
  · rw [toDouble_of_lt hsmall, toDouble_of_lt hsmall]
  have hne : n ≠ 0 := by
    rintro rfl
    exact hsmall (by decide)
  -- The significand has 53 bits, and rounding up may carry it to `2 ^ 53`.
  have hlog : 53 ≤ n.log2 := (Nat.le_log2 hne).mpr (not_lt.mp hsmall)
  have hq : n / 2 ^ (n.log2 - 52) < 2 ^ 53 := by
    rw [Nat.div_lt_iff_lt_mul (Nat.two_pow_pos _), ← pow_add]
    have hexp : 53 + (n.log2 - 52) = n.log2 + 1 := by omega
    rw [hexp]
    exact Nat.lt_log2_self
  obtain ⟨m, k, hm, heq⟩ : ∃ m k, m ≤ 2 ^ 53 ∧ toDouble n = m * 2 ^ k := by
    rw [toDouble, if_neg hsmall]
    dsimp only
    split
    · exact ⟨_, _, hq.le, rfl⟩
    · exact ⟨n / 2 ^ (n.log2 - 52) + 1, _, hq, (Nat.succ_mul _ _).symm⟩
  rw [heq, toDouble_mul_two_pow k hm]

/-! ### Base64url -/

/-- The alphabet of base64url. -/
def alphabet : List Char :=
  "ABCDEFGHIJKLMNOPQRSTUVWXYZabcdefghijklmnopqrstuvwxyz0123456789-_".toList

/-- The character for six bits. -/
def sextet (n : ℕ) : Char :=
  alphabet.getD n '='

theorem sextet_inj {m n : ℕ} (hm : m < 64) (hn : n < 64) (h : sextet m = sextet n) : m = n := by
  have hnodup : alphabet.Nodup := by decide
  have hlen : alphabet.length = 64 := by decide
  have hm' : m < alphabet.length := hlen.symm ▸ hm
  have hn' : n < alphabet.length := hlen.symm ▸ hn
  rw [sextet, sextet, List.getD_eq_getElem?_getD, List.getD_eq_getElem?_getD,
    List.getElem?_eq_getElem hm', List.getElem?_eq_getElem hn'] at h
  exact (hnodup.getElem_inj_iff).mp h

/-- `buf.toString('base64url')`: four characters for three bytes, and no padding. -/
def base64Url : List UInt8 → List Char
  | [] => []
  | [a] => [sextet (a.toNat / 4), sextet (a.toNat % 4 * 16)]
  | [a, b] =>
      [sextet (a.toNat / 4), sextet (a.toNat % 4 * 16 + b.toNat / 16),
        sextet (b.toNat % 16 * 4)]
  | a :: b :: c :: rest =>
      sextet (a.toNat / 4) :: sextet (a.toNat % 4 * 16 + b.toNat / 16) ::
        sextet (b.toNat % 16 * 4 + c.toNat / 64) :: sextet (c.toNat % 64) :: base64Url rest

/-- **Distinct byte strings have distinct texts.** -/
theorem base64Url_injective : ∀ {xs ys : List UInt8}, base64Url xs = base64Url ys → xs = ys := by
  have inj : ∀ {m n : ℕ}, m < 64 → n < 64 → sextet m = sextet n → m = n := sextet_inj
  intro xs
  induction xs using base64Url.induct with
  | case1 =>
      intro ys h
      match ys with
      | [] => rfl
      | [_] | [_, _] | _ :: _ :: _ :: _ => simp [base64Url] at h
  | case2 a =>
      intro ys h
      match ys with
      | [] | [_, _] | _ :: _ :: _ :: _ => simp [base64Url] at h
      | [a'] =>
          have ha := a.toNat_lt
          have ha' := a'.toNat_lt
          simp only [base64Url, List.cons.injEq, and_true] at h
          have h1 := inj (by omega) (by omega) h.1
          have h2 := inj (by omega) (by omega) h.2
          rw [UInt8.toNat_inj.mp (show a.toNat = a'.toNat by omega)]
  | case3 a b =>
      intro ys h
      match ys with
      | [] | [_] | _ :: _ :: _ :: _ => simp [base64Url] at h
      | [a', b'] =>
          have ha := a.toNat_lt
          have ha' := a'.toNat_lt
          have hb := b.toNat_lt
          have hb' := b'.toNat_lt
          simp only [base64Url, List.cons.injEq, and_true] at h
          obtain ⟨h1, h2, h3⟩ := h
          replace h1 := inj (by omega) (by omega) h1
          replace h2 := inj (by omega) (by omega) h2
          replace h3 := inj (by omega) (by omega) h3
          rw [UInt8.toNat_inj.mp (show a.toNat = a'.toNat by omega),
            UInt8.toNat_inj.mp (show b.toNat = b'.toNat by omega)]
  | case4 a b c rest ih =>
      intro ys h
      match ys with
      | [] | [_] | [_, _] => simp [base64Url] at h
      | a' :: b' :: c' :: rest' =>
          have ha := a.toNat_lt
          have ha' := a'.toNat_lt
          have hb := b.toNat_lt
          have hb' := b'.toNat_lt
          have hc := c.toNat_lt
          have hc' := c'.toNat_lt
          simp only [base64Url, List.cons.injEq] at h
          obtain ⟨h1, h2, h3, h4, hrest⟩ := h
          replace h1 := inj (by omega) (by omega) h1
          replace h2 := inj (by omega) (by omega) h2
          replace h3 := inj (by omega) (by omega) h3
          replace h4 := inj (by omega) (by omega) h4
          rw [UInt8.toNat_inj.mp (show a.toNat = a'.toNat by omega),
            UInt8.toNat_inj.mp (show b.toNat = b'.toNat by omega),
            UInt8.toNat_inj.mp (show c.toNat = c'.toNat by omega), ih hrest]

/-! ### Base64 -/

/-- The alphabet of base64. -/
def base64Alphabet : List Char :=
  "ABCDEFGHIJKLMNOPQRSTUVWXYZabcdefghijklmnopqrstuvwxyz0123456789+/".toList

/-- The character of base64 for six bits. -/
def base64Char (n : ℕ) : Char :=
  base64Alphabet.getD n '='

/-- The six bits that a character of base64 stands for. -/
def base64Value (c : Char) : Option ℕ :=
  base64Alphabet.idxOf? c

/-- `buf.toString('base64')`: four characters for three bytes, the last group padded. -/
def base64 : List UInt8 → List Char
  | [] => []
  | [a] => [base64Char (a.toNat / 4), base64Char (a.toNat % 4 * 16), '=', '=']
  | [a, b] =>
      [base64Char (a.toNat / 4), base64Char (a.toNat % 4 * 16 + b.toNat / 16),
        base64Char (b.toNat % 16 * 4), '=']
  | a :: b :: c :: rest =>
      base64Char (a.toNat / 4) :: base64Char (a.toNat % 4 * 16 + b.toNat / 16) ::
        base64Char (b.toNat % 16 * 4 + c.toNat / 64) :: base64Char (c.toNat % 64) :: base64 rest

/-- The bytes that a base64 text stands for, and `none` for a text that is not one: padding
stands in the last group only. -/
def unbase64 : List Char → Option (List UInt8)
  | [] => some []
  | c₁ :: c₂ :: c₃ :: c₄ :: rest =>
      match base64Value c₁, base64Value c₂, base64Value c₃, base64Value c₄ with
      | some p, some q, some r, some s =>
          (unbase64 rest).map fun bytes =>
            UInt8.ofNat (p * 4 + q / 16) :: UInt8.ofNat (q % 16 * 16 + r / 4) ::
              UInt8.ofNat (r % 4 * 64 + s) :: bytes
      | some p, some q, some r, none =>
          if c₄ = '=' ∧ rest = [] then
            some [UInt8.ofNat (p * 4 + q / 16), UInt8.ofNat (q % 16 * 16 + r / 4)]
          else none
      | some p, some q, none, none =>
          if c₃ = '=' ∧ c₄ = '=' ∧ rest = [] then some [UInt8.ofNat (p * 4 + q / 16)] else none
      | _, _, _, _ => none
  | _ => none

theorem base64Value_base64Char {n : ℕ} (h : n < 64) : base64Value (base64Char n) = some n := by
  revert n
  decide

theorem base64Value_padding : base64Value '=' = none := by
  decide

/-- **A base64 text reads back as its bytes.** -/
theorem unbase64_base64 (bytes : List UInt8) : unbase64 (base64 bytes) = some bytes := by
  have byteOf : ∀ (a : UInt8) (n : ℕ), n = a.toNat → UInt8.ofNat n = a := by
    rintro a n rfl
    exact UInt8.ofNat_toNat
  induction bytes using base64.induct with
  | case1 => rfl
  | case2 a =>
      have ha := a.toNat_lt
      simp only [base64, unbase64, base64Value_padding,
        base64Value_base64Char (show a.toNat / 4 < 64 by omega),
        base64Value_base64Char (show a.toNat % 4 * 16 < 64 by omega), and_self, if_true]
      rw [byteOf a _ (by omega)]
  | case3 a b =>
      have ha := a.toNat_lt
      have hb := b.toNat_lt
      simp only [base64, unbase64, base64Value_padding,
        base64Value_base64Char (show a.toNat / 4 < 64 by omega),
        base64Value_base64Char (show a.toNat % 4 * 16 + b.toNat / 16 < 64 by omega),
        base64Value_base64Char (show b.toNat % 16 * 4 < 64 by omega), and_self, if_true]
      rw [byteOf a _ (by omega), byteOf b _ (by omega)]
  | case4 a b c rest ih =>
      have ha := a.toNat_lt
      have hb := b.toNat_lt
      have hc := c.toNat_lt
      simp only [base64, unbase64, ih, Option.map_some,
        base64Value_base64Char (show a.toNat / 4 < 64 by omega),
        base64Value_base64Char (show a.toNat % 4 * 16 + b.toNat / 16 < 64 by omega),
        base64Value_base64Char (show b.toNat % 16 * 4 + c.toNat / 64 < 64 by omega),
        base64Value_base64Char (show c.toNat % 64 < 64 by omega)]
      rw [byteOf a _ (by omega), byteOf b _ (by omega), byteOf c _ (by omega)]

end Js
