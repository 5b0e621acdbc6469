import EightEen.Js.Text

/-!
# Code Units

A string of the language is a sequence of UTF-16 code units, and a string that arrives in
pieces may be cut between any two of them, within a character too. `utf16` writes characters
as the units they take, and splitting at a separator (`split`) is followed through a cut and
through the encoding.

## Main results

* `splitOn_append`: the pieces of two strings joined are those of the first, the last of
  which runs on into the second.
* `utf16_splitOn`: encoding commutes with splitting at a line end.
-/

namespace Js

/-! ### Splitting -/

/-- The unterminated end of `s.split(sep)`. -/
def lastPiece {α : Type*} [BEq α] (sep : α) (s : List α) : List α :=
  (s.splitOn sep).getLast?.getD []

/-- A split always has a last piece, behind all the others. -/
theorem splitOn_eq_concat {α : Type*} [BEq α] (sep : α) (s : List α) :
    s.splitOn sep = (s.splitOn sep).dropLast ++ [lastPiece sep s] := by
  have hne : s.splitOn sep ≠ [] := List.splitOn_ne_nil sep s
  conv => lhs; rw [← List.dropLast_concat_getLast hne]
  rw [lastPiece, List.getLast?_eq_some_getLast hne, Option.getD_some]

/-- Lists with one element behind them are equal when both parts are. -/
theorem concat_inj {α : Type*} {s t : List α} {a b : α} (h : s ++ [a] = t ++ [b]) :
    s = t ∧ a = b := by
  obtain ⟨hinit, hlast⟩ := List.append_inj' h rfl
  exact ⟨hinit, List.singleton_inj.mp hlast⟩

/-- With the last piece of the first string at hand, what is joined to the string is joined to
that piece. -/
theorem splitOn_append_of_eq {α : Type*} [BEq α] [LawfulBEq α] {sep : α} {s last : List α}
    {init : List (List α)} (h : s.splitOn sep = init ++ [last]) (t : List α) :
    (s ++ t).splitOn sep = init ++ (last ++ t).splitOn sep := by
  induction s generalizing init last with
  | nil =>
      have hnil : [] ++ [[]] = init ++ [last] := h
      obtain ⟨rfl, rfl⟩ := concat_inj hnil
      rfl
  | cons c s ih =>
      have hpieces := splitOn_eq_concat sep s
      rw [List.splitOn_cons_eq_if_modifyHead] at h
      rw [List.cons_append, List.splitOn_cons_eq_if_modifyHead, ih hpieces]
      split at h
      · next hc =>
          rw [hpieces, ← List.cons_append] at h
          obtain ⟨rfl, rfl⟩ := concat_inj h
          rw [if_pos hc, List.cons_append]
      · next hc =>
          rw [if_neg hc]
          cases hinit : (s.splitOn sep).dropLast with
          | nil =>
              rw [hpieces, hinit] at h
              have hnil : [] ++ [c :: lastPiece sep s] = init ++ [last] := h
              obtain ⟨rfl, rfl⟩ := concat_inj hnil
              rw [List.cons_append, List.splitOn_cons_eq_if_modifyHead, if_neg hc]
              rfl
          | cons piece pieces =>
              rw [hpieces, hinit] at h
              have hcons : ((c :: piece) :: pieces) ++ [lastPiece sep s] = init ++ [last] := h
              obtain ⟨rfl, rfl⟩ := concat_inj hcons
              rfl

/-- **The last piece of the first string runs on into the second.** -/
theorem splitOn_append {α : Type*} [BEq α] [LawfulBEq α] (sep : α) (s t : List α) :
    (s ++ t).splitOn sep = (s.splitOn sep).dropLast ++ (lastPiece sep s ++ t).splitOn sep :=
  splitOn_append_of_eq (splitOn_eq_concat sep s) t

/-- Units that are not the separator are put in front of the first piece. -/
theorem splitOn_append_of_not_mem {α : Type*} [BEq α] [LawfulBEq α] {sep : α} {s : List α}
    (hs : sep ∉ s) (t : List α) :
    (s ++ t).splitOn sep = (t.splitOn sep).modifyHead (s ++ ·) := by
  induction s with
  | nil => exact (List.modifyHead_id ▸ rfl)
  | cons c s ih =>
      have hc : ¬(c == sep) = true := fun h => hs (eq_of_beq h ▸ List.mem_cons_self)
      rw [List.cons_append, List.splitOn_cons_eq_if_modifyHead, if_neg hc,
        ih fun h => hs (List.mem_cons_of_mem c h), List.modifyHead_modifyHead]
      rfl

/-! ### Encoding -/

/-- The code units of a character: one, or the two of a surrogate pair. -/
def charUnits (c : Char) : List UInt16 :=
  if c.toNat < 0x10000 then [UInt16.ofNat c.toNat]
  else
    [UInt16.ofNat (0xD800 + (c.toNat - 0x10000) / 0x400),
      UInt16.ofNat (0xDC00 + (c.toNat - 0x10000) % 0x400)]

/-- The code units of a text. -/
def utf16 (s : List Char) : List UInt16 :=
  s.flatMap charUnits

/-- No characters take no units. -/
@[simp] theorem utf16_nil : utf16 [] = [] :=
  rfl

/-- The units of a text are those of its first part, and then those of its second. -/
theorem utf16_append (s t : List Char) : utf16 (s ++ t) = utf16 s ++ utf16 t :=
  List.flatMap_append

/-- The units of many texts joined are the units of each, joined. -/
theorem utf16_flatten (texts : List (List Char)) :
    utf16 texts.flatten = (texts.map utf16).flatten := by
  induction texts with
  | nil => rfl
  | cons text texts ih => rw [List.flatten_cons, utf16_append, ih, List.map_cons, List.flatten_cons]

/-- The units of a first character come first. -/
theorem utf16_cons (c : Char) (s : List Char) : utf16 (c :: s) = charUnits c ++ utf16 s :=
  List.flatMap_cons

/-- The unit of a line end. -/
def lineEnd : UInt16 := 0x0A

/-- No other character has the unit of a line end in its code. -/
theorem lineEnd_not_mem_charUnits {c : Char} (hc : c ≠ '\n') : lineEnd ∉ charUnits c := by
  have hval : c.toNat ≠ 0x0A := fun h => hc (Char.toNat_inj.mp h)
  have hmax : c.toNat < 0x110000 := c.valid.elim (fun h => h.trans (by decide)) And.right
  rw [charUnits]
  intro hmem
  split at hmem
  · next hbmp =>
      have heq := congrArg UInt16.toNat (List.mem_singleton.mp hmem)
      rw [UInt16.toNat_ofNat_of_lt' hbmp] at heq
      exact hval heq.symm
  · next hbmp =>
      have hhigh : 0xD800 + (c.toNat - 0x10000) / 0x400 < UInt16.size := by
        have := Nat.div_lt_of_lt_mul (show c.toNat - 0x10000 < 0x400 * 0x400 by omega)
        simp only [UInt16.size]
        omega
      have hlow : 0xDC00 + (c.toNat - 0x10000) % 0x400 < UInt16.size := by
        have := Nat.mod_lt (c.toNat - 0x10000) (show 0 < 0x400 by decide)
        simp only [UInt16.size]
        omega
      rcases List.mem_cons.mp hmem with h | h
      · have heq := congrArg UInt16.toNat h
        rw [UInt16.toNat_ofNat_of_lt' hhigh] at heq
        simp only [lineEnd, UInt16.reduceToNat] at heq
        omega
      · have heq := congrArg UInt16.toNat (List.mem_singleton.mp h)
        rw [UInt16.toNat_ofNat_of_lt' hlow] at heq
        simp only [lineEnd, UInt16.reduceToNat] at heq
        omega

/-- **Encoding commutes with splitting at a line end.** -/
theorem utf16_splitOn (s : List Char) :
    (utf16 s).splitOn lineEnd = (s.splitOn '\n').map utf16 := by
  induction s with
  | nil => rfl
  | cons c s ih =>
      rw [utf16_cons, List.splitOn_cons_eq_if_modifyHead]
      by_cases hc : c = '\n'
      · rw [hc, if_pos (by decide)]
        change List.splitOn lineEnd (lineEnd :: utf16 s) = _
        rw [List.splitOn_cons_eq_if_modifyHead, if_pos (by decide), ih]
        rfl
      · have hnot := lineEnd_not_mem_charUnits hc
        have hunits : ∀ pieces : List (List Char),
            (pieces.map utf16).modifyHead (charUnits c ++ ·) =
              (pieces.modifyHead (List.cons c)).map utf16 := by
          intro pieces
          cases pieces with
          | nil => rfl
          | cons piece pieces => rfl
        rw [if_neg (by simpa using hc), splitOn_append_of_not_mem hnot, ih, hunits]

end Js
