import EightEen.Js.Counts
import EightEen.Js.Text

/-!
# The Child's Log

The log of the verifier process, as `src/service.js` reads it: text arrives in chunks that
may end in the middle of a line (`splitLines`), and every complete line is tried against
the patterns of the circuits, the issuer certificates and the announcement
(`Log.absorbLine`). What the service knows about its child is the `Log` that results.

One residual serves both pipes of the child. The counts of lines are exact, where the source has
Numbers that take `2 ^ 53` lines; what the child says of a trust list can be any numeral, and is
added up as Numbers are (`sumCounts`).

## Main results

* `splitLines_eq_iff`: the text is cut at its line ends and nowhere else.
* `splitLines_append`: where the chunks end does not matter.
* `Log.adds_absorbLines`: each count of the log is a count over the lines absorbed, whatever
  their order.
* `Log.Reads.absorb`: what a log says of the text that has been read.
-/

open Js

namespace EightEen

/-! ### Lines -/

/-- What `splitLines` returns. -/
structure SplitLines where
  lines : List (List Char)
  residual : List Char
  deriving DecidableEq

/-- `splitLines(residual, chunk)`. -/
def splitLines (residual chunk : List Char) : SplitLines :=
  let parts := (residual ++ chunk).splitOn '\n'
  { lines := parts.dropLast, residual := parts.getLast?.getD [] }

/-- The lines with their line ends. -/
def unlines (lines : List (List Char)) : List Char :=
  lines.flatMap fun line => line ++ ['\n']

/-- The lines of two texts one behind the other, with their line ends. -/
theorem unlines_append (xs ys : List (List Char)) :
    unlines (xs ++ ys) = unlines xs ++ unlines ys :=
  List.flatMap_append

/-- Splitting lines with their ends, and a rest without one, gives the lines and the rest. -/
theorem splitOn_unlines {lines : List (List Char)} {rest : List Char} (hrest : '\n' ∉ rest)
    (hlines : ∀ line ∈ lines, '\n' ∉ line) :
    (unlines lines ++ rest).splitOn '\n' = lines ++ [rest] := by
  induction lines with
  | nil => exact List.splitOn_eq_singleton hrest
  | cons line lines ih =>
      have htext : unlines (line :: lines) ++ rest = line ++ '\n' :: (unlines lines ++ rest) := by
        simp [unlines]
      rw [htext, List.splitOn_append_cons_self_of_not_mem (hlines line List.mem_cons_self),
        ih fun l hl => hlines l (List.mem_cons_of_mem _ hl), List.cons_append]

/-- Every text is a sequence of lines and an unterminated rest. -/
theorem exists_unlines (text : List Char) :
    ∃ lines rest, text = unlines lines ++ rest ∧ '\n' ∉ rest ∧ ∀ line ∈ lines, '\n' ∉ line := by
  induction text with
  | nil => exact ⟨[], [], rfl, by simp, by simp⟩
  | cons c text ih =>
      obtain ⟨lines, rest, htext, hrest, hlines⟩ := ih
      by_cases hc : c = '\n'
      · refine ⟨[] :: lines, rest, by rw [hc, htext]; simp [unlines], hrest, ?_⟩
        rintro line (_ | ⟨_, hline⟩)
        · simp
        · exact hlines line hline
      · cases lines with
        | nil =>
            refine ⟨[], c :: rest, by rw [htext]; simp [unlines], ?_, by simp⟩
            simp [Ne.symm hc, hrest]
        | cons line lines =>
            refine ⟨(c :: line) :: lines, rest, by rw [htext]; simp [unlines], hrest, ?_⟩
            rintro l (_ | ⟨_, hl⟩)
            · simp [Ne.symm hc, hlines line List.mem_cons_self]
            · exact hlines l (List.mem_cons_of_mem _ hl)

/-- A text that is given as lines and a rest is split into these lines and this rest. -/
theorem splitLines_of_unlines {residual chunk rest : List Char} {lines : List (List Char)}
    (htext : residual ++ chunk = unlines lines ++ rest) (hrest : '\n' ∉ rest)
    (hlines : ∀ line ∈ lines, '\n' ∉ line) : splitLines residual chunk = ⟨lines, rest⟩ := by
  rw [splitLines, htext, splitOn_unlines hrest hlines, List.dropLast_concat,
    List.getLast?_concat]
  rfl

/-- **The text is cut at its line ends**, and nowhere else. -/
theorem splitLines_eq_iff {residual chunk rest : List Char} {lines : List (List Char)} :
    splitLines residual chunk = ⟨lines, rest⟩ ↔
      residual ++ chunk = unlines lines ++ rest ∧ '\n' ∉ rest ∧
        ∀ line ∈ lines, '\n' ∉ line := by
  constructor
  · intro h
    obtain ⟨lines', rest', htext, hrest, hlines⟩ := exists_unlines (residual ++ chunk)
    rw [splitLines_of_unlines htext hrest hlines] at h
    obtain ⟨rfl, rfl⟩ := SplitLines.mk.inj h
    exact ⟨htext, hrest, hlines⟩
  · rintro ⟨htext, hrest, hlines⟩
    exact splitLines_of_unlines htext hrest hlines

/-- **What `splitLines` leaves out is nothing**: its lines with their ends and its residual are
the text, and no line end is within any of them. -/
theorem splitLines_spec (residual chunk : List Char) :
    residual ++ chunk =
        unlines (splitLines residual chunk).lines ++ (splitLines residual chunk).residual ∧
      '\n' ∉ (splitLines residual chunk).residual ∧
      ∀ line ∈ (splitLines residual chunk).lines, '\n' ∉ line :=
  splitLines_eq_iff.mp rfl

/-- **Where a chunk ends does not matter**: two chunks give the lines that their text gives
at once, and leave the same residual. -/
theorem splitLines_append (residual a b : List Char) :
    splitLines residual (a ++ b) =
      ⟨(splitLines residual a).lines ++ (splitLines (splitLines residual a).residual b).lines,
        (splitLines (splitLines residual a).residual b).residual⟩ := by
  obtain ⟨hfirst, -, hlines⟩ := splitLines_spec residual a
  obtain ⟨hsecond, hrest, hlines'⟩ := splitLines_spec (splitLines residual a).residual b
  refine splitLines_eq_iff.mpr ⟨?_, hrest, ?_⟩
  · calc residual ++ (a ++ b) = residual ++ a ++ b := (List.append_assoc ..).symm
      _ = unlines (splitLines residual a).lines ++
            ((splitLines residual a).residual ++ b) := by rw [hfirst, List.append_assoc]
      _ = _ := by rw [hsecond, unlines_append, List.append_assoc]
  · intro line hline
    rcases List.mem_append.mp hline with h | h
    · exact hlines line h
    · exact hlines' line h

/-! ### Patterns -/

/-- `Read ([0-9a-f]{64})\s*$` at the start of `s`. -/
def readsCircuit (s : List Char) : Bool :=
  match stripLiteral "Read ".toList s with
  | some rest => (takeClass isLowerHex 64 rest).isSome && (rest.drop 64).all isSpace
  | none => false

/-- `CIRCUIT_LOADED.test(line)`: at the start of the line, or behind white space. -/
def circuitLoaded (line : List Char) : Bool :=
  readsCircuit line ||
    (search (fun
      | c :: s => if isSpace c && readsCircuit s then some () else none
      | [] => none) line).isSome

/-- `line.match(CIRCUIT_SKIPPED)`, with the name of the file. -/
def circuitSkipped (line : List Char) : Option (List Char) :=
  search (fun s => (stripLiteral "ignoring file ".toList s).bind (takeClass isLowerHex 64)) line

/-- `CIRCUIT_FILE.test(f)`. -/
def circuitFile (f : List Char) : Bool :=
  f.length == 64 && f.all isLowerHex

/-- `ISSUER_CA.test(line)`. -/
def issuerCa (line : List Char) : Bool :=
  containsText "adding Issuer CA ".toList line

/-- `line.match(VICAL_LOADED)`, with the `Number` of certificates. -/
def vicalLoaded (line : List Char) : Option ℕ∞ :=
  (search (numeralBetween "Loaded ".toList " certificates from VICAL".toList) line).map
    fun n : ℕ => roundCount n

/-- `SERVER_STARTED.test(line)`. -/
def serverStarted (line : List Char) : Bool :=
  containsText "\"msg\":\"Starting server\"".toList line

/-- `countPemCertificates(file)`, on what reading the file returns. -/
def countPemCertificates : Option (List Char) → ℕ
  | some text => countText "-----BEGIN CERTIFICATE-----".toList 0 text
  | none => 0

/-- `countCircuitFiles(dir)`, on what reading the directory returns. -/
def countCircuitFiles : Option (List (List Char)) → ℕ
  | some names => names.countP circuitFile
  | none => 0

/-! ### The log -/

/-- What the service has read off the log of its child. -/
structure Log where
  circuits : ℕ
  skipped : List (List Char)
  anchors : ℕ
  vical : ℕ∞
  started : Bool
  residual : List Char
  logTail : List (List Char)

namespace Log

/-- The log before the first chunk. -/
def empty : Log where
  circuits := 0
  skipped := []
  anchors := 0
  vical := 0
  started := false
  residual := []
  logTail := []

/-- `#logTail.push(line)`, which keeps the last fifty lines. -/
def pushTail (logTail : List (List Char)) (line : List Char) : List (List Char) :=
  if 50 < (logTail ++ [line]).length then (logTail ++ [line]).tail else logTail ++ [line]

/-- The body of the loop of `#absorb`. -/
def absorbLine (log : Log) (line : List Char) : Log :=
  if trim line = [] then log
  else
    { log with
      logTail := pushTail log.logTail line
      circuits := if circuitLoaded line then log.circuits + 1 else log.circuits
      anchors := if issuerCa line then log.anchors + 1 else log.anchors
      started := log.started || serverStarted line
      skipped := log.skipped ++ (circuitSkipped line).toList
      vical := sumCounts log.vical (vicalLoaded line).toList }

/-- The loop of `#absorb`. -/
def absorbLines (log : Log) (lines : List (List Char)) : Log :=
  lines.foldl absorbLine log

/-- `#absorb(chunk)`. -/
def absorb (log : Log) (chunk : List Char) : Log :=
  let split := splitLines log.residual chunk
  { log with residual := split.residual }.absorbLines split.lines

/-! ### Blank lines -/

/-- A line in which a pattern finds a literal is not blank. -/
theorem trim_ne_nil_of_literal {literal line t rest : List Char} {c : Char}
    (hsuffix : t <:+ line) (hlit : stripLiteral literal t = some rest) (hc : c ∈ literal)
    (hns : isSpace c = false) : trim line ≠ [] := by
  have ht : t = literal ++ rest := stripLiteral_eq_some_iff.mp hlit
  exact trim_ne_nil (hsuffix.subset (ht ▸ List.mem_append_left rest hc)) hns

/-- A line that contains a text with a visible character is not blank. -/
theorem trim_ne_nil_of_containsText {literal line : List Char} {c : Char}
    (h : containsText literal line = true) (hc : c ∈ literal) (hns : isSpace c = false) :
    trim line ≠ [] :=
  trim_ne_nil (((containsText_iff literal line).mp h).subset hc) hns

/-- A line with `Read ` and a digest at its end is not blank. -/
theorem trim_ne_nil_of_readsCircuit {line t : List Char} (hsuffix : t <:+ line)
    (h : readsCircuit t = true) : trim line ≠ [] := by
  rw [readsCircuit] at h
  split at h
  · next rest hrest => exact trim_ne_nil_of_literal hsuffix hrest (c := 'R') (by decide) (by decide)
  · exact absurd h (by simp)

/-- A line that reports a circuit is not blank, so the loop does not skip it. -/
theorem trim_ne_nil_of_circuitLoaded {line : List Char} (h : circuitLoaded line = true) :
    trim line ≠ [] := by
  rw [circuitLoaded, Bool.or_eq_true] at h
  rcases h with hstart | hlater
  · exact trim_ne_nil_of_readsCircuit (List.suffix_refl line) hstart
  · obtain ⟨u, hu⟩ := Option.isSome_iff_exists.mp hlater
    obtain ⟨t, hsuffix, ht⟩ := exists_suffix_of_search hu
    cases t with
    | nil => exact absurd ht (by simp)
    | cons c t =>
        dsimp only at ht
        split at ht
        · next hc =>
            rw [Bool.and_eq_true] at hc
            exact trim_ne_nil_of_readsCircuit ((List.suffix_cons c t).trans hsuffix) hc.2
        · exact absurd ht (by simp)

/-- Nor is one that reports a circuit that was skipped. -/
theorem trim_ne_nil_of_circuitSkipped {line file : List Char}
    (h : circuitSkipped line = some file) : trim line ≠ [] := by
  obtain ⟨t, hsuffix, ht⟩ := exists_suffix_of_search h
  obtain ⟨rest, hrest, -⟩ := Option.bind_eq_some_iff.mp ht
  exact trim_ne_nil_of_literal hsuffix hrest (c := 'i') (by decide) (by decide)

/-- Nor is one that counts certificates. -/
theorem trim_ne_nil_of_vicalLoaded {line : List Char} {n : ℕ∞} (h : vicalLoaded line = some n) :
    trim line ≠ [] := by
  obtain ⟨value, hvalue, -⟩ := Option.map_eq_some_iff.mp h
  obtain ⟨t, hsuffix, ht⟩ := exists_suffix_of_search hvalue
  rw [numeralBetween] at ht
  split at ht
  · next rest hrest => exact trim_ne_nil_of_literal hsuffix hrest (c := 'L') (by decide) (by decide)
  · exact absurd ht (by simp)

/-! ### Counts -/

/-- What reading these lines adds to a log. -/
structure Adds (lines : List (List Char)) (log log' : Log) : Prop where
  circuits : log'.circuits = log.circuits + lines.countP circuitLoaded
  anchors : log'.anchors = log.anchors + lines.countP issuerCa
  started : log'.started = (log.started || lines.any serverStarted)
  skipped : log'.skipped = log.skipped ++ lines.filterMap circuitSkipped
  vical : log'.vical = sumCounts log.vical (lines.filterMap vicalLoaded)

/-- No lines add nothing to a log. -/
theorem Adds.refl (log : Log) : Adds [] log log :=
  ⟨rfl, rfl, (Bool.or_false _).symm, (List.append_nil _).symm, rfl⟩

/-- Lines that are absorbed after others add to what those have added. -/
theorem Adds.trans {xs ys : List (List Char)} {a b c : Log} (h : Adds xs a b)
    (h' : Adds ys b c) : Adds (xs ++ ys) a c where
  circuits := by rw [h'.circuits, h.circuits, List.countP_append, Nat.add_assoc]
  anchors := by rw [h'.anchors, h.anchors, List.countP_append, Nat.add_assoc]
  started := by rw [h'.started, h.started, List.any_append, Bool.or_assoc]
  skipped := by rw [h'.skipped, h.skipped, List.filterMap_append, List.append_assoc]
  vical := by rw [h'.vical, h.vical, List.filterMap_append, sumCounts_append]

/-- No pattern matches a blank line. -/
theorem adds_of_blank (log : Log) {line : List Char} (hblank : trim line = []) :
    Adds [line] log log := by
  have hcircuit : ¬circuitLoaded line = true := fun h =>
    trim_ne_nil_of_circuitLoaded h hblank
  have hanchor : ¬issuerCa line = true := fun h =>
    trim_ne_nil_of_containsText h (c := 'a') (by decide) (by decide) hblank
  have hstarted : ¬serverStarted line = true := fun h =>
    trim_ne_nil_of_containsText h (c := 'm') (by decide) (by decide) hblank
  have hskipped : circuitSkipped line = none :=
    Option.eq_none_iff_forall_ne_some.mpr fun _ h => trim_ne_nil_of_circuitSkipped h hblank
  have hvical : vicalLoaded line = none :=
    Option.eq_none_iff_forall_ne_some.mpr fun _ h => trim_ne_nil_of_vicalLoaded h hblank
  constructor <;> simp [hcircuit, hanchor, hstarted, hskipped, hvical, sumCounts]

/-- **Every pattern is looked for in every line.** -/
theorem adds_absorbLine (log : Log) (line : List Char) :
    Adds [line] log (log.absorbLine line) := by
  rw [absorbLine]
  split
  · next hblank => exact adds_of_blank log hblank
  · constructor <;> dsimp only
    · rw [List.countP_singleton]
      split <;> rfl
    · rw [List.countP_singleton]
      split <;> rfl
    · rw [List.any_cons, List.any_nil, Bool.or_false]
    · cases h : circuitSkipped line with
      | none => rw [List.filterMap_cons_none h]; rfl
      | some file => rw [List.filterMap_cons_some h]; rfl
    · cases h : vicalLoaded line with
      | none => rw [List.filterMap_cons_none h]; rfl
      | some n => rw [List.filterMap_cons_some h]; rfl

/-- **Each count of the log grows by a count over the lines** that are absorbed, in whatever state
the log is. -/
theorem adds_absorbLines (log : Log) (lines : List (List Char)) :
    Adds lines log (log.absorbLines lines) := by
  induction lines generalizing log with
  | nil => exact Adds.refl log
  | cons line lines ih => exact (adds_absorbLine log line).trans (ih (log.absorbLine line))

/-- Who is trusted stays so, whatever is read on. -/
theorem trusting_sumCounts {anchors anchors' : ℕ} {vical : ℕ∞} (hanchors : anchors ≤ anchors')
    (h : 0 < anchors + vical) (counts : List ℕ∞) : 0 < anchors' + sumCounts vical counts := by
  rw [pos_iff_ne_zero] at h ⊢
  intro hzero
  obtain ⟨hnone, hsum⟩ := add_eq_zero.mp hzero
  have hless : anchors = 0 := by
    have hnone' : anchors' = 0 := by exact_mod_cast hnone
    omega
  refine h (add_eq_zero.mpr ⟨by exact_mod_cast hless, (sumCounts_eq_zero_iff.mp hsum).1⟩)

/-! ### Chunks -/

/-- Absorbing a line neither reads the residual nor writes it. -/
theorem absorbLine_with_residual (log : Log) (line residual : List Char) :
    { log with residual }.absorbLine line = { log.absorbLine line with residual } := by
  rw [absorbLine, absorbLine]
  split <;> rfl

/-- Nor does the loop over the lines of a chunk. -/
theorem absorbLines_with_residual (log : Log) (lines : List (List Char))
    (residual : List Char) :
    { log with residual }.absorbLines lines = { log.absorbLines lines with residual } := by
  induction lines generalizing log with
  | nil => rfl
  | cons line lines ih =>
      rw [absorbLines, List.foldl_cons, absorbLine_with_residual]
      exact ih (log.absorbLine line)

/-- A chunk is absorbed line by line, and leaves its residual. -/
theorem absorb_eq (log : Log) (chunk : List Char) :
    log.absorb chunk =
      { log.absorbLines (splitLines log.residual chunk).lines with
        residual := (splitLines log.residual chunk).residual } :=
  absorbLines_with_residual log _ _

/-- A chunk adds its complete lines. -/
theorem adds_absorb (log : Log) (chunk : List Char) :
    Adds (splitLines log.residual chunk).lines log (log.absorb chunk) := by
  rw [absorb_eq]
  obtain ⟨h₁, h₂, h₃, h₄, h₅⟩ := adds_absorbLines log (splitLines log.residual chunk).lines
  exact ⟨h₁, h₂, h₃, h₄, h₅⟩

/-! ### The text behind a log -/

/-- The log is what has been read off the text. -/
structure Reads (log : Log) (text : List Char) : Prop where
  residual : log.residual = (splitLines [] text).residual
  circuits : log.circuits = (splitLines [] text).lines.countP circuitLoaded
  anchors : log.anchors = (splitLines [] text).lines.countP issuerCa
  started : log.started = (splitLines [] text).lines.any serverStarted
  skipped : log.skipped = (splitLines [] text).lines.filterMap circuitSkipped
  vical : log.vical = sumCounts 0 ((splitLines [] text).lines.filterMap vicalLoaded)

/-- The empty log is what an empty text says. -/
theorem reads_empty : Reads empty [] :=
  ⟨rfl, rfl, rfl, rfl, rfl, rfl⟩

/-- **A chunk extends the text behind the log.** -/
theorem Reads.absorb {log : Log} {text : List Char} (h : Reads log text) (chunk : List Char) :
    Reads (log.absorb chunk) (text ++ chunk) := by
  have hadds := adds_absorb log chunk
  constructor <;> rw [splitLines_append] <;> dsimp only
  · rw [absorb_eq, h.residual]
  · rw [hadds.circuits, h.circuits, h.residual, List.countP_append]
  · rw [hadds.anchors, h.anchors, h.residual, List.countP_append]
  · rw [hadds.started, h.started, h.residual, List.any_append]
  · rw [hadds.skipped, h.skipped, h.residual, List.filterMap_append]
  · rw [hadds.vical, h.vical, h.residual, List.filterMap_append, sumCounts_append]

end Log

end EightEen
