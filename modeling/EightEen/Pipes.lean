import EightEen.Audit

/-!
# The Two Pipes

How far the counts of the log depend on the way in which the child's two pipes are cut into
chunks and delivered against each other. The specification reads each stream on its own:
`linesApart` cuts it at its own line ends, and every line is matched by itself. The service
reads the chunks as they come, and one residual serves both pipes.

Where the chunks of one pipe end is of no consequence. A chunk that comes in while a line of
the **other** pipe is unfinished is: the unfinished line is continued by foreign text, and
what follows of it is taken for a line of its own. The numbers of certificates are added as
Numbers are: up to `2 ^ 53` the sum does not depend on the order of the lines.

## Main results

* `merged_iff_uninterrupted`: the two pipes are kept apart exactly when no line is
  interrupted.
* `absorbAll_countsApart`: the counts of two streams, however they are cut, as long as no
  line is interrupted and no sum is rounded.
* `interrupted_line_is_lost`: a circuit that is lost.
-/

open Js Transition

namespace EightEen

/-! ### Counting each stream by itself -/

/-- The lines of two streams, each cut at its own line ends. -/
def linesApart (out err : List Char) : List (List Char) :=
  (splitLines [] out).lines ++ (splitLines [] err).lines

/-- The log counts what is found in the lines of the two streams. -/
structure Log.CountsApart (log : Log) (out err : List Char) : Prop where
  circuits : log.circuits = (linesApart out err).countP circuitLoaded
  anchors : log.anchors = (linesApart out err).countP issuerCa
  vical : log.vical = ((linesApart out err).filterMap vicalLoaded).sum
  skipped : log.skipped.Perm ((linesApart out err).filterMap circuitSkipped)
  started : log.started = (linesApart out err).any serverStarted

/-- The certificates that the two streams announce can be counted in a Number: a sum up to
`2 ^ 53` is not rounded, in whatever order it is taken. -/
def Countable (out err : List Char) : Prop :=
  ((linesApart out err).filterMap vicalLoaded).sum ≤ 2 ^ 53

/-- Counts do not depend on the order of the lines. -/
theorem Log.Reads.countsApart {log : Log} {text out err : List Char} (h : log.Reads text)
    (hperm : (splitLines [] text).lines.Perm (linesApart out err)) (hsmall : Countable out err) :
    log.CountsApart out err where
  circuits := h.circuits.trans (hperm.countP_eq circuitLoaded)
  anchors := h.anchors.trans (hperm.countP_eq issuerCa)
  vical := by
    have hsum := (hperm.filterMap vicalLoaded).sum_eq
    have hexact : 0 + ((splitLines [] text).lines.filterMap vicalLoaded).sum ≤ 2 ^ 53 := by
      rw [zero_add, hsum]
      exact hsmall
    rw [h.vical, sumCounts_of_le hexact, zero_add, hsum]
  skipped := h.skipped ▸ hperm.filterMap circuitSkipped
  started := h.started.trans (hperm.any_eq)

namespace VerifierService

/-! ### Interrupted lines -/

/-- A text that ends a line ends it whatever stands in front of it. -/
theorem residual_eq_nil_of_ends {residual chunk : List Char} (hresidual : '\n' ∉ residual)
    (hne : chunk ≠ []) (hends : (splitLines [] chunk).residual = []) :
    (splitLines residual chunk).residual = [] := by
  obtain ⟨htext, -, hlines⟩ := splitLines_spec [] chunk
  rw [hends, List.nil_append, List.append_nil] at htext
  cases hsplit : (splitLines [] chunk).lines with
  | nil =>
      rw [hsplit] at htext
      exact absurd htext hne
  | cons line lines =>
      rw [hsplit] at htext hlines
      have hfirst : splitLines residual chunk = ⟨(residual ++ line) :: lines, []⟩ := by
        refine splitLines_eq_iff.mpr ⟨by rw [htext]; simp [unlines], by simp, ?_⟩
        rintro l (_ | ⟨_, hl⟩)
        · rw [List.mem_append, not_or]
          exact ⟨hresidual, hlines line List.mem_cons_self⟩
        · exact hlines l (List.mem_cons_of_mem _ hl)
      rw [hfirst]

/-- Of two pipes of which one has an unfinished line, the other has none. -/
theorem Merged.residual_of_pending {events : List Event} (h : Merged events) {pipe : Pipe}
    (hpending : pending pipe.other events ≠ []) :
    pending pipe events = [] ∧
      (splitLines [] (delivered events)).residual = pending pipe.other events := by
  obtain ⟨pipe', hres, hfree⟩ := h.residual
  cases pipe <;> cases pipe'
  · exact absurd hfree hpending
  · exact ⟨hfree, hres⟩
  · exact ⟨hfree, hres⟩
  · exact absurd hfree hpending

/-- A chunk that interrupts a line mixes the two pipes up. -/
theorem Merged.uninterrupted {done : List Event} {e : Event} (h : Merged done)
    (hnext : Merged (done ++ [e])) : Uninterrupted done e := by
  rintro pipe chunk rfl hne
  by_contra hpending
  have hother : (Event.data pipe chunk).textOf pipe.other = [] := by cases pipe <;> rfl
  have hself : (Event.data pipe chunk).textOf pipe = chunk := if_pos rfl
  have hkept : pending pipe.other (done ++ [.data pipe chunk]) = pending pipe.other done := by
    rw [pending_concat, hother, splitLines_pending]
  obtain ⟨hfree, hres⟩ := h.residual_of_pending hpending
  obtain ⟨hends, hres'⟩ := hnext.residual_of_pending (hkept.symm ▸ hpending)
  rw [pending_concat, hself, hfree] at hends
  -- The chunk ends a line, and with it the one that it interrupts.
  have hgone := residual_eq_nil_of_ends (splitLines_spec [] (received pipe.other done)).2.1 hne
    hends
  rw [delivered_concat, splitLines_append, hres, hkept] at hres'
  exact hpending (hres'.symm.trans hgone)

/-- **The two pipes are kept apart at every moment** exactly when no chunk interrupts a
line. -/
theorem merged_iff_uninterrupted (events : List Event) :
    (∀ before, before <+: events → Merged before) ↔ Along Uninterrupted [] events := by
  constructor
  · intro h
    induction events using List.reverseRecOn with
    | nil => trivial
    | append_singleton events e ih =>
        have hprefix : events <+: events ++ [e] := List.prefix_append _ _
        refine along_append_iff.mpr ⟨ih fun before hb => h before (hb.trans hprefix), ?_, trivial⟩
        exact (h events hprefix).uninterrupted (h _ (List.prefix_refl _))
  · rintro h before ⟨after, rfl⟩
    exact along_induction (fun _ _ hdone hok => Merged.concat hdone hok)
      (along_append_iff.mp h).1 merged_nil

/-! ### Chunks -/

/-- A chunk as one of the pipes delivers it. -/
structure Chunk where
  pipe : Pipe
  text : List Char

/-- `#absorb` of the chunks in the order of their delivery, on a log that is still empty. -/
def absorbAll (chunks : List Chunk) : Log :=
  chunks.foldl (fun log c => log.absorb c.text) Log.empty

/-- The stream that the chunks of a pipe make up. -/
def streamOf (pipe : Pipe) (chunks : List Chunk) : List Char :=
  (chunks.filter fun c => c.pipe = pipe).flatMap Chunk.text

/-- The delivery of the chunk `c` after those in `done` interrupts no line: it is empty, or
the stream of the other pipe stands at the beginning of a line. -/
def KeepsLinesWhole (done : List Chunk) (c : Chunk) : Prop :=
  c.text ≠ [] → (splitLines [] (streamOf c.pipe.other done)).residual = []

instance (done : List Chunk) (c : Chunk) : Decidable (KeepsLinesWhole done c) :=
  inferInstanceAs (Decidable (_ → _))

/-- The deliveries as events of the service. -/
def deliveries (chunks : List Chunk) : List Event :=
  chunks.map fun c => .data c.pipe c.text

theorem deliveries_concat (chunks : List Chunk) (c : Chunk) :
    deliveries (chunks ++ [c]) = deliveries chunks ++ [.data c.pipe c.text] := by
  rw [deliveries, List.map_append, ← deliveries]
  rfl

theorem received_deliveries (pipe : Pipe) (chunks : List Chunk) :
    received pipe (deliveries chunks) = streamOf pipe chunks := by
  induction chunks with
  | nil => rfl
  | cons c chunks ih =>
      have hcons : received pipe (deliveries (c :: chunks)) =
          (if c.pipe = pipe then c.text else []) ++ received pipe (deliveries chunks) := rfl
      rw [hcons, ih, streamOf, streamOf]
      by_cases hpipe : c.pipe = pipe
      · rw [if_pos hpipe, List.filter_cons_of_pos (by simpa using hpipe), List.flatMap_cons]
      · rw [if_neg hpipe, List.filter_cons_of_neg (by simpa using hpipe), List.nil_append]

/-- What has been absorbed was read off the text in the order of its delivery. -/
theorem reads_absorbAll (chunks : List Chunk) :
    (absorbAll chunks).Reads (delivered (deliveries chunks)) := by
  induction chunks using List.reverseRecOn with
  | nil => exact Log.reads_empty
  | append_singleton chunks c ih =>
      rw [absorbAll, List.foldl_append, ← absorbAll, deliveries_concat, delivered_concat]
      exact ih.absorb c.text

/-- **The counts do not depend on the chunks**, however the two streams are cut and delivered
against each other, as long as no chunk comes in while a line of the other pipe is
unfinished: at every moment at which the certificates that have been announced can be counted,
they are those of the two streams read separately. -/
theorem absorbAll_countsApart {chunks before : List Chunk}
    (hwhole : Along KeepsLinesWhole [] chunks) (hbefore : before <+: chunks)
    (hsmall : Countable (streamOf .stdout before) (streamOf .stderr before)) :
    (absorbAll before).CountsApart (streamOf .stdout before) (streamOf .stderr before) := by
  obtain ⟨after, rfl⟩ := hbefore
  have hkept : Along Uninterrupted [] (deliveries before) := by
    refine along_induction (J := fun done => Along Uninterrupted [] (deliveries done)) ?_
      (along_append_iff.mp hwhole).1 trivial
    intro done c hdone hok
    rw [deliveries_concat]
    refine along_append_iff.mpr ⟨hdone, ?_, trivial⟩
    intro pipe chunk he hne
    obtain ⟨rfl, rfl⟩ := Event.data.inj he
    rw [List.nil_append, pending, received_deliveries]
    exact hok hne
  have hmerged : Merged (deliveries before) :=
    (merged_iff_uninterrupted _).mpr hkept _ (List.prefix_refl _)
  have hlines : (absorbed (deliveries before)).Perm
      (linesApart (received .stdout (deliveries before)) (received .stderr (deliveries before))) :=
    hmerged.lines
  rw [received_deliveries, received_deliveries] at hlines
  exact (reads_absorbAll before).countsApart hlines hsmall

/-- Lines that are cut, with two of the other pipe between them. -/
def wholeChunks : List Chunk :=
  [⟨.stdout, "Read ".toList⟩, ⟨.stdout, sampleCircuit ++ "\n".toList⟩,
    ⟨.stderr, "adding Issuer CA CN=Root\n".toList⟩, ⟨.stdout, "Read ".toList⟩,
    ⟨.stdout, sampleCircuit ++ "\n".toList⟩, ⟨.stderr, "Loaded 3 certific".toList⟩,
    ⟨.stderr, "ates from VICAL\n".toList⟩]

/-- The two circuits and the three certificates of the two streams are counted. -/
theorem absorbAll_countsApart_wholeChunks :
    (absorbAll wholeChunks).circuits = 2 ∧ (absorbAll wholeChunks).vical = 3 ∧
      (absorbAll wholeChunks).CountsApart (streamOf .stdout wholeChunks)
        (streamOf .stderr wholeChunks) := by
  have hwhole : Along KeepsLinesWhole [] wholeChunks := by
    refine ⟨?_, ?_, ?_, ?_, ?_, ?_, ?_, trivial⟩ <;> decide +kernel
  have hsmall : Countable (streamOf .stdout wholeChunks) (streamOf .stderr wholeChunks) := by
    have hlines : (linesApart (streamOf .stdout wholeChunks)
        (streamOf .stderr wholeChunks)).filterMap vicalLoaded = [3] := by decide +kernel
    rw [Countable, hlines, List.sum_singleton]
    exact_mod_cast (by decide : 3 ≤ 2 ^ 53)
  exact ⟨by decide +kernel, by decide +kernel,
    absorbAll_countsApart hwhole (List.prefix_refl _) hsmall⟩

/-- A line of one pipe in two chunks, and a line of the other pipe between them. -/
def interruptedChunks : List Chunk :=
  [⟨.stdout, "Read ".toList⟩, ⟨.stderr, "adding Issuer CA CN=Root\n".toList⟩,
    ⟨.stdout, sampleCircuit ++ "\n".toList⟩]

/-- **An interrupted line is lost**: the circuit that its stream reports is not counted. -/
theorem interrupted_line_is_lost :
    (absorbAll interruptedChunks).circuits = 0 ∧
      streamOf .stdout interruptedChunks = "Read ".toList ++ sampleCircuit ++ "\n".toList ∧
      ¬(absorbAll interruptedChunks).CountsApart (streamOf .stdout interruptedChunks)
        (streamOf .stderr interruptedChunks) := by
  have hnone : (absorbAll interruptedChunks).circuits = 0 := by decide +kernel
  refine ⟨hnone, by decide +kernel, ?_⟩
  intro h
  have hone : (linesApart (streamOf .stdout interruptedChunks)
      (streamOf .stderr interruptedChunks)).countP circuitLoaded = 1 := by decide +kernel
  have hcircuits := h.circuits
  rw [hnone, hone] at hcircuits
  cases hcircuits

end VerifierService

end EightEen
