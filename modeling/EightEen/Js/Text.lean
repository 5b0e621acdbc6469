import Mathlib.Algebra.Order.BigOperators.Group.List
import Mathlib.Data.List.DropRight
import Mathlib.Algebra.Order.Ring.Nat
import Mathlib.Data.List.Infix

/-!
# Text Search

The string operations and the fragment of regular expressions that line-reading programs
use, on lists of characters: trimming, a literal found anywhere (`/literal/`), a literal
followed by a capture (`/literal(class{n})/`, `/literal(\d+)literal/`), and a whole-line
pattern (`/^literal(\d+)$/`). A pattern that is not anchored is tried at every position
from the left by `search`, which returns the leftmost match as `match` does.

## Main results

* `trim_eq_nil_iff`: trimming leaves nothing exactly when there is only whitespace.
* `containsText_iff`: the unanchored literal search is the infix relation.
* `wholeNumeral_iff`: `/^literal(\d+)$/` matches exactly the literal followed by a
  nonempty run of decimal digits, and captures that run.
-/

namespace Js

/-! ### Character classes -/

/-- `\s`, and what `trim` removes: the white space and line terminators of the
language. -/
def isSpace (c : Char) : Bool :=
  c.toNat ∈ [0x09, 0x0A, 0x0B, 0x0C, 0x0D, 0x20, 0xA0, 0x1680, 0x2028, 0x2029, 0x202F, 0x205F,
    0x3000, 0xFEFF] || (0x2000 ≤ c.toNat && c.toNat ≤ 0x200A)

/-- `\d`. -/
def isDecimal (c : Char) : Bool :=
  0x30 ≤ c.toNat && c.toNat ≤ 0x39

/-- `[0-9a-f]`. -/
def isLowerHex (c : Char) : Bool :=
  isDecimal c || (0x61 ≤ c.toNat && c.toNat ≤ 0x66)

/-! ### Trimming -/

/-- `s.trim()`. -/
def trim (s : List Char) : List Char :=
  (s.dropWhile isSpace).rdropWhile isSpace

/-- Nothing is left of a text exactly when it is all white space. -/
theorem trim_eq_nil_iff (s : List Char) : trim s = [] ↔ ∀ c ∈ s, isSpace c = true := by
  rw [trim, List.rdropWhile_eq_nil_iff]
  constructor
  · intro h c hc
    by_contra hns
    have hsplit : c ∈ s.takeWhile isSpace ++ s.dropWhile isSpace := by
      rwa [List.takeWhile_append_dropWhile]
    rcases List.mem_append.mp hsplit with htake | hdrop
    · exact hns (List.mem_takeWhile_imp htake)
    · exact hns (h c hdrop)
  · intro h c hc
    exact h c (List.dropWhile_subset isSpace hc)

/-- A text with a character that is not white space is not blank. -/
theorem trim_ne_nil {s : List Char} {c : Char} (hc : c ∈ s) (h : isSpace c = false) :
    trim s ≠ [] := by
  intro hblank
  rw [(trim_eq_nil_iff s).mp hblank c hc] at h
  exact absurd h (by simp)

/-! ### Search -/

/-- The rest of `s` after `literal`, when `s` starts with it. -/
def stripLiteral (literal s : List Char) : Option (List Char) :=
  if literal.isPrefixOf s then some (s.drop literal.length) else none

theorem stripLiteral_eq_some_iff {literal s rest : List Char} :
    stripLiteral literal s = some rest ↔ s = literal ++ rest := by
  unfold stripLiteral
  constructor
  · intro h
    split at h
    · next hp =>
        obtain ⟨t, rfl⟩ := List.isPrefixOf_iff_prefix.mp hp
        rw [List.drop_left, Option.some.injEq] at h
        rw [h]
    · exact absurd h (by simp)
  · rintro rfl
    rw [if_pos (List.isPrefixOf_iff_prefix.mpr (List.prefix_append _ _)), List.drop_left]

/-- `s.match(re)` for a pattern without anchors: the first position from the left at which
`atPosition` matches. -/
def search {α : Type} (atPosition : List Char → Option α) : List Char → Option α
  | [] => atPosition []
  | c :: s => (atPosition (c :: s)).or (search atPosition s)

/-- What `search` finds, it finds at the start of a suffix. -/
theorem exists_suffix_of_search {α : Type} {atPosition : List Char → Option α} {s : List Char}
    {a : α} (h : search atPosition s = some a) : ∃ t, t <:+ s ∧ atPosition t = some a := by
  induction s with
  | nil => exact ⟨[], List.suffix_refl [], h⟩
  | cons c s ih =>
      rw [search, Option.or_eq_some_iff] at h
      rcases h with hhere | ⟨-, hlater⟩
      · exact ⟨c :: s, List.suffix_refl _, hhere⟩
      · obtain ⟨t, hsuffix, ht⟩ := ih hlater
        exact ⟨t, hsuffix.trans (List.suffix_cons c s), ht⟩

/-- `/literal/.test(s)`. -/
def containsText (literal s : List Char) : Bool :=
  (search (stripLiteral literal) s).isSome

/-- **The unanchored literal search is the infix relation.** -/
theorem containsText_iff (literal s : List Char) :
    containsText literal s = true ↔ literal <:+: s := by
  unfold containsText
  induction s with
  | nil =>
      rw [search]
      constructor
      · intro h
        obtain ⟨rest, hrest⟩ := Option.isSome_iff_exists.mp h
        exact ⟨[], rest, by rw [List.nil_append, ← stripLiteral_eq_some_iff.mp hrest]⟩
      · intro h
        obtain rfl := List.infix_nil.mp h
        rfl
  | cons c s ih =>
      rw [search, Option.isSome_or, Bool.or_eq_true, ih, List.infix_cons_iff]
      refine or_congr ?_ Iff.rfl
      rw [Option.isSome_iff_exists]
      constructor
      · rintro ⟨rest, hrest⟩
        exact ⟨rest, (stripLiteral_eq_some_iff.mp hrest).symm⟩
      · rintro ⟨rest, hrest⟩
        exact ⟨rest, stripLiteral_eq_some_iff.mpr hrest.symm⟩

/-- `/literal/i.test(s)` for a literal in lower case ASCII: without the `u` flag no
character outside ASCII folds into ASCII. -/
def containsTextCaseless (literal s : List Char) : Bool :=
  containsText literal (s.map Char.toLower)

/-- The number of matches of `/literal/g` in what is left of `s` after `skip` characters: the
next match starts behind the last one. -/
def countText (literal : List Char) : ℕ → List Char → ℕ
  | _, [] => 0
  | skip + 1, _ :: s => countText literal skip s
  | 0, c :: s =>
      if literal.isPrefixOf (c :: s) then 1 + countText literal (literal.length - 1) s
      else countText literal 0 s

/-! ### Captures -/

/-- `class{n}` at the start of `s`, with the characters it captures. -/
def takeClass (cls : Char → Bool) (n : ℕ) (s : List Char) : Option (List Char) :=
  if n ≤ s.length ∧ (s.take n).all cls then some (s.take n) else none

/-- The value of a decimal numeral, most significant digit first. -/
def numeralValue (digits : List Char) : ℕ :=
  digits.foldl (fun n c => 10 * n + (c.toNat - 0x30)) 0

/-- `/^literal(\d+)$/`, with the digits. Without the `m` flag `$` is the end of the text
and nothing else. -/
def wholeNumeral (literal s : List Char) : Option (List Char) :=
  match stripLiteral literal s with
  | some digits => if digits ≠ [] ∧ digits.all isDecimal then some digits else none
  | none => none

/-- **The anchored numeral pattern** matches the literal followed by a nonempty run of
digits, and nothing else. -/
theorem wholeNumeral_iff {literal s digits : List Char} :
    wholeNumeral literal s = some digits ↔
      s = literal ++ digits ∧ digits ≠ [] ∧ ∀ c ∈ digits, isDecimal c = true := by
  unfold wholeNumeral
  cases h : stripLiteral literal s with
  | none =>
      refine ⟨fun hc => absurd hc (by simp), ?_⟩
      rintro ⟨hs, -⟩
      rw [stripLiteral_eq_some_iff.mpr hs] at h
      exact absurd h (by simp)
  | some rest =>
      have hs : s = literal ++ rest := stripLiteral_eq_some_iff.mp h
      simp only [List.all_eq_true]
      constructor
      · intro hm
        split at hm
        · next hcond =>
            obtain rfl := Option.some.inj hm
            exact ⟨hs, hcond⟩
        · exact absurd hm (by simp)
      · rintro ⟨hs', hne, hall⟩
        obtain rfl : rest = digits := List.append_cancel_left (hs ▸ hs')
        rw [if_pos ⟨hne, hall⟩]

/-- `/literal(\d+)suffix/` at the start of `s`, with the value of the numeral. The suffix
does not start with a digit, so the greedy run of digits is the one that matches. -/
def numeralBetween (literal suffix s : List Char) : Option ℕ :=
  match stripLiteral literal s with
  | some rest =>
      if rest.takeWhile isDecimal ≠ [] ∧ suffix.isPrefixOf (rest.dropWhile isDecimal) then
        some (numeralValue (rest.takeWhile isDecimal))
      else none
  | none => none

/-! ### Lengths -/

/-- `s.length`: the number of UTF-16 code units. -/
def utf16Length (s : String) : ℕ :=
  (s.toList.map fun c => if c.toNat < 0x10000 then 1 else 2).sum

/-- The number of bytes of the UTF-8 encoding. -/
def utf8Length (s : String) : ℕ :=
  (s.toList.map Char.utf8Size).sum

/-- Every character has at least as many bytes as code units. -/
theorem utf16Length_le_utf8Length (s : String) : utf16Length s ≤ utf8Length s := by
  unfold utf16Length utf8Length
  refine List.sum_le_sum fun c _ => ?_
  have hone : 1 ≤ c.utf8Size := Char.utf8Size_pos c
  have htwo : 0x10000 ≤ c.toNat → 2 ≤ c.utf8Size := by
    intro hc
    by_contra hlt
    have hval : c.val ≤ 127 := Char.utf8Size_eq_one_iff.mp (by omega)
    have hnat : c.toNat ≤ 127 := UInt32.le_iff_toNat_le.mp hval
    omega
  split <;> omega

end Js
