import EightEen.Js.Units
import EightEen.Log

/-!
# Lines of a Stream

`splitLines` over a whole stream, as `#absorb` calls it: the residual of one chunk is put in
front of the next. The log is modelled on characters (`EightEen.splitLines`); the function
itself works on the code units of strings, where a chunk may end between the two units of a
character, and there it is followed here. On chunks that end between characters the two are
the same function (`Units.splitLines_utf16`).

## Main results

* `Units.stream_eq`: the lines of a stream are those of its text, however it is cut, and those of
  the log where it is cut between characters.
-/

open Js

namespace EightEen

namespace Units

/-- What `splitLines` returns. -/
structure SplitLines where
  lines : List (List UInt16)
  residual : List UInt16
  deriving DecidableEq

/-- `splitLines(residual, chunk)`, on code units. -/
def splitLines (residual chunk : List UInt16) : SplitLines :=
  let parts := (residual ++ chunk).splitOn lineEnd
  { lines := parts.dropLast, residual := parts.getLast?.getD [] }

/-- One chunk of a stream: its lines follow those of the chunks before it. -/
def push (sofar : SplitLines) (chunk : List UInt16) : SplitLines :=
  let split := splitLines sofar.residual chunk
  { lines := sofar.lines ++ split.lines, residual := split.residual }

/-- The chunks of a stream, from an empty residual. -/
def stream (chunks : List (List UInt16)) : SplitLines :=
  chunks.foldl push ⟨[], []⟩

/-- `split`, with the last piece apart. -/
def whole (s : List UInt16) : SplitLines where
  lines := (s.splitOn lineEnd).dropLast
  residual := lastPiece lineEnd s

/-- A chunk extends the text that has been split. -/
theorem push_whole (s chunk : List UInt16) : push (whole s) chunk = whole (s ++ chunk) := by
  have hne := List.splitOn_ne_nil lineEnd (lastPiece lineEnd s ++ chunk)
  have hlines : ((s ++ chunk).splitOn lineEnd).dropLast =
      (s.splitOn lineEnd).dropLast ++
        ((lastPiece lineEnd s ++ chunk).splitOn lineEnd).dropLast := by
    rw [splitOn_append, List.dropLast_append_of_ne_nil hne]
  have hresidual : lastPiece lineEnd (s ++ chunk) =
      lastPiece lineEnd (lastPiece lineEnd s ++ chunk) := by
    rw [lastPiece, splitOn_append, List.getLast?_append_of_ne_nil _ hne]
    rfl
  rw [whole, whole, hlines, hresidual]
  rfl

/-- On units that encode characters it is the function of the log. -/
theorem splitLines_utf16 (residual chunk : List Char) :
    splitLines (utf16 residual) (utf16 chunk) =
      { lines := (EightEen.splitLines residual chunk).lines.map utf16
        residual := utf16 (EightEen.splitLines residual chunk).residual } := by
  rw [splitLines, EightEen.splitLines, ← utf16_append, utf16_splitOn, List.getLast?_map,
    List.map_dropLast]
  dsimp only
  rw [splitOn_eq_concat '\n' (residual ++ chunk), List.getLast?_concat]
  rfl

/-- **The lines of a stream are those of its text**, all but the last piece, which is the
residual. Where the chunks end between characters, they are the lines that the log goes through. -/
theorem stream_eq (chunks : List (List UInt16)) :
    (stream chunks).lines = (chunks.flatten.splitOn lineEnd).dropLast ∧
      (chunks.flatten.splitOn lineEnd).getLast? = some (stream chunks).residual ∧
      ∀ texts : List (List Char), chunks = texts.map utf16 →
        stream chunks =
          { lines := (EightEen.splitLines [] texts.flatten).lines.map utf16
            residual := utf16 (EightEen.splitLines [] texts.flatten).residual } := by
  have hrun : ∀ s, chunks.foldl push (whole s) = whole (s ++ chunks.flatten) := by
    induction chunks with
    | nil => intro s; rw [List.flatten_nil, List.append_nil]; rfl
    | cons chunk chunks ih =>
        intro s
        rw [List.foldl_cons, push_whole, ih, List.flatten_cons, List.append_assoc]
  have hstream : stream chunks = whole chunks.flatten := hrun []
  rw [hstream]
  refine ⟨rfl, ?_, ?_⟩
  · rw [splitOn_eq_concat lineEnd chunks.flatten, List.getLast?_concat]
    rfl
  · rintro texts rfl
    rw [← utf16_flatten]
    exact splitLines_utf16 [] texts.flatten

end Units

end EightEen
