import EightEen.Service
import Mathlib.Data.List.Perm.Subperm

/-!
# The Start-up Audit

The audit of `#assertTrustAnchors` runs over counts, and trusts that they are complete once
the child's announcement has been read: the log is taken for one ordered stream. It is two.
This module compares what a child has written (`Write`, in the order of writing) with what
the service has read of it (`absorbed`), over every way in which the two pipes can be
delivered against each other.

One residual serves both pipes, so a chunk of one pipe that comes in while a line of the
other is still unfinished spoils both lines. And nothing holds an announcement back that
overtakes the lines of the other pipe.

## Main results

* `reads_of_run`: the log of a run is what was read off the chunks in their order.
* `merged_of_along`: as long as no chunk interrupts a line, the lines absorbed are those of the
  two pipes.
* `audit_sees_everything`: the schedules and children for which the audit is complete.
* `announcement_overtakes`: an announcement that overtakes a trust list on the other pipe
  goes through the audit.
-/

open Js Transition

namespace EightEen

namespace VerifierService

variable {p : Platform} {o : ServiceOptions} {files : Files}

/-! ### What is written and what is read -/

/-- A line that the child writes to one of its pipes. -/
structure Write where
  pipe : Pipe
  line : List Char
  unbroken : '\n' ∉ line

/-- The lines written to a pipe. -/
def writtenTo (pipe : Pipe) (child : List Write) : List (List Char) :=
  (child.filter fun w => w.pipe = pipe).map Write.line

/-- The writes before the child announces itself. -/
def beforeAnnouncement (child : List Write) : List Write :=
  child.takeWhile fun w => !serverStarted w.line

/-- The text of a chunk. -/
def Event.text : Event → List Char
  | .data _ chunk => chunk
  | _ => []

/-- The text of a chunk of this pipe. -/
def Event.textOf (pipe : Pipe) : Event → List Char
  | .data pipe' chunk => if pipe' = pipe then chunk else []
  | _ => []

/-- The text of all chunks in the order of their delivery. -/
def delivered (events : List Event) : List Char :=
  events.flatMap Event.text

/-- The text that has come in through a pipe. -/
def received (pipe : Pipe) (events : List Event) : List Char :=
  events.flatMap (Event.textOf pipe)

/-- The lines that `#absorb` has gone through. -/
def absorbed (events : List Event) : List (List Char) :=
  (splitLines [] (delivered events)).lines

/-- The complete lines that have come in through a pipe. -/
def linesOf (pipe : Pipe) (events : List Event) : List (List Char) :=
  (splitLines [] (received pipe events)).lines

/-- The unfinished line of a pipe. -/
def pending (pipe : Pipe) (events : List Event) : List Char :=
  (splitLines [] (received pipe events)).residual

/-- The other pipe. -/
def Pipe.other : Pipe → Pipe
  | .stdout => .stderr
  | .stderr => .stdout

/-- The chunks of each pipe are a beginning of what the child has written to it, cut
anywhere. -/
def Delivers (child : List Write) (events : List Event) : Prop :=
  ∀ pipe, received pipe events <+: unlines (writtenTo pipe child)

/-! ### The log of a run -/

/-- **What a step does to the log**: a chunk is absorbed, and nothing else is read. -/
theorem step_log_cases {s s' : VerifierService} {e : Event}
    (hstep : step p o files s e = some s') :
    (∃ pipe chunk, e = .data pipe chunk ∧ s'.log = s.log.absorb chunk) ∨
      e.text = [] ∧ ∃ logTail, s'.log = { s.log with logTail } := by
  cases Step.of_step hstep with
  | data pipe chunk hchild => exact Or.inl ⟨pipe, chunk, rfl, rfl⟩
  | spawned clock now hphase =>
      exact Or.inr ⟨rfl, s.log.logTail, (awaitReady_kept s clock now).log⟩
  | health alive hphase => exact Or.inr ⟨rfl, s.log.logTail, (afterProbe_kept s alive).log⟩
  | wake now hphase => exact Or.inr ⟨rfl, s.log.logTail, (onward_loopTop s now).kept.log⟩
  | _ => exact Or.inr ⟨rfl, _, rfl⟩

/-- What has been delivered grows by the text of the event. -/
theorem delivered_concat (events : List Event) (e : Event) :
    delivered (events ++ [e]) = delivered events ++ e.text := by
  rw [delivered, List.flatMap_append, List.flatMap_singleton, ← delivered]

/-- The log of a run is what was read off the chunks in the order of their delivery. -/
theorem reads_of_run {s : VerifierService} {events : List Event}
    (hrun : exec (step p o files) init events = some s) : s.log.Reads (delivered events) := by
  refine exec_history (J := fun done s => s.log.Reads (delivered done))
    (fun done s e s' hreads hstep => ?_) hrun Log.reads_empty
  rw [delivered_concat]
  rcases step_log_cases hstep with ⟨pipe, chunk, rfl, h⟩ | ⟨htext, logTail, h⟩
  · rw [h]
    exact hreads.absorb chunk
  · rw [h, htext, List.append_nil]
    exact ⟨hreads.1, hreads.2, hreads.3, hreads.4, hreads.5, hreads.6⟩

/-! ### Where `start()` resolves -/

/-- No stretch of `start()` but the last resolves it. -/
theorem Onward.phase_ne {s s' : VerifierService} (h : Onward p o s s') :
    s'.phase ≠ .resolved := by
  cases h with
  | stops reason =>
      rcases beginStop_cases p o s reason with ⟨-, h⟩ | ⟨-, -, h⟩ | ⟨-, h⟩ <;> rw [h] <;> simp
  | _ => simp

/-- `start()` resolves when a probe is answered and the audit passes. -/
theorem step_resolved_cases {s s' : VerifierService} {e : Event}
    (hstep : step p o files s e = some s') (hresolved : s'.phase = .resolved) :
    s.phase = .resolved ∨
      e = .health true ∧ s.phase = .probing ∧ assertTrustAnchors p o s = .ok () := by
  cases Step.of_step hstep with
  | spawned clock now hphase =>
      obtain ⟨deadline, honward⟩ := onward_awaitReady (p := p) (o := o) s clock now
      exact absurd hresolved honward.phase_ne
  | health alive hphase =>
      rcases afterProbe_cases p o s alive with ⟨rfl, haudit, -⟩ | honward
      · exact Or.inr ⟨rfl, hphase, haudit⟩
      · exact absurd hresolved honward.phase_ne
  | wake now hphase => exact absurd hresolved (onward_loopTop s now).phase_ne
  | exit code signal hrunning hphase => exact Or.inl hresolved
  | error code message hchild hphase => exact Or.inl hresolved
  | data pipe chunk hchild => exact Or.inl hresolved
  | stop => exact Or.inl hresolved
  | _ => cases hresolved

/-- **The moment of resolution** in a run that has resolved. -/
theorem resolution_of_run {s : VerifierService} {events : List Event}
    (hrun : exec (step p o files) init events = some s) (hresolved : s.phase = .resolved) :
    ∃ before after s₀, events = before ++ .health true :: after ∧
      exec (step p o files) init before = some s₀ ∧ s₀.phase = .probing ∧
      assertTrustAnchors p o s₀ = .ok () := by
  have hhistory := exec_history (J := fun done s =>
    exec (step p o files) init done = some s ∧ (s.phase = .resolved →
      ∃ before after s₀, done = before ++ .health true :: after ∧
        exec (step p o files) init before = some s₀ ∧ s₀.phase = .probing ∧
        assertTrustAnchors p o s₀ = .ok ())) ?_ hrun ⟨rfl, fun h => by cases h⟩
  · exact hhistory.2 hresolved
  · rintro done s e s' ⟨hdone, ih⟩ hstep
    refine ⟨exec_append_eq_some_iff.mpr ⟨s, hdone, exec_cons_eq_some_iff.mpr ⟨s', hstep, rfl⟩⟩,
      fun hresolved' => ?_⟩
    rcases step_resolved_cases hstep hresolved' with hold | ⟨rfl, hprobing, haudit⟩
    · obtain ⟨before, after, s₀, rfl, h⟩ := ih hold
      exact ⟨before, after ++ [e], s₀, by simp, h⟩
    · exact ⟨done, [], s, rfl, hdone, hprobing, haudit⟩

/-! ### Two pipes -/

/-- What the order of delivery has to respect: no chunk interrupts a line of the other
pipe, and when a probe is answered, no announcement has overtaken lines that the child wrote
to the other pipe before it announced itself. -/
def InOrder (child : List Write) (done : List Event) : Event → Prop
  | .data pipe _ => pending pipe.other done = []
  | .health true => ∀ pipe, (linesOf pipe.other done).any serverStarted = true →
      writtenTo pipe (beforeAnnouncement child) <+: linesOf pipe done
  | _ => True

/-- No text comes in through one pipe while a line of the other is unfinished. -/
def Uninterrupted (done : List Event) (e : Event) : Prop :=
  ∀ pipe chunk, e = .data pipe chunk → chunk ≠ [] → pending pipe.other done = []

/-- A child whose pipes are delivered in the order of its writes interrupts no line, since each of
its writes is a whole line. -/
theorem InOrder.uninterrupted {child : List Write} {done : List Event} {e : Event}
    (h : InOrder child done e) : Uninterrupted done e := by
  rintro pipe chunk rfl -
  exact h

/-- What a pipe has delivered grows by what the event brings on that pipe. -/
theorem received_concat (pipe : Pipe) (events : List Event) (e : Event) :
    received pipe (events ++ [e]) = received pipe events ++ e.textOf pipe := by
  rw [received, List.flatMap_append, List.flatMap_singleton, ← received]

/-- An event without text brings none on either pipe. -/
theorem Event.textOf_of_text_eq_nil {e : Event} (h : e.text = []) (pipe : Pipe) :
    e.textOf pipe = [] := by
  cases e with
  | data pipe' chunk =>
      rw [Event.textOf]
      split
      · exact h
      · rfl
  | _ => rfl

/-- The lines of both pipes, and the line that is still unfinished, when chunks do not
interrupt lines. -/
structure Merged (events : List Event) : Prop where
  lines : (absorbed events).Perm (linesOf .stdout events ++ linesOf .stderr events)
  residual : ∃ pipe, (splitLines [] (delivered events)).residual = pending pipe events ∧
    pending pipe.other events = []

/-- Before the first event both pipes are at the beginning of a line. -/
theorem merged_nil : Merged [] :=
  ⟨List.Perm.refl _, .stdout, rfl, rfl⟩

/-- The residual is that of the pipe that is read, unless a line is interrupted. -/
theorem Merged.residual_eq {events : List Event} (h : Merged events) {pipe : Pipe}
    (hother : pending pipe.other events = []) :
    (splitLines [] (delivered events)).residual = pending pipe events := by
  obtain ⟨pipe', hres, hother'⟩ := h.residual
  cases pipe <;> cases pipe'
  · exact hres
  · exact (hres.trans hother).trans hother'.symm
  · exact (hres.trans hother).trans hother'.symm
  · exact hres

/-- An event adds to the lines that were absorbed those which its text ends. -/
theorem absorbed_concat (done : List Event) (e : Event) :
    absorbed (done ++ [e]) =
      absorbed done ++ (splitLines (splitLines [] (delivered done)).residual e.text).lines := by
  rw [absorbed, delivered_concat, splitLines_append, absorbed]

/-- An event adds to the lines of a pipe those which its text on that pipe ends. -/
theorem linesOf_concat (pipe : Pipe) (done : List Event) (e : Event) :
    linesOf pipe (done ++ [e]) =
      linesOf pipe done ++ (splitLines (pending pipe done) (e.textOf pipe)).lines := by
  rw [linesOf, received_concat, splitLines_append, linesOf, pending]

/-- What is left unfinished on a pipe is what its text leaves behind the last line end. -/
theorem pending_concat (pipe : Pipe) (done : List Event) (e : Event) :
    pending pipe (done ++ [e]) = (splitLines (pending pipe done) (e.textOf pipe)).residual := by
  rw [pending, received_concat, splitLines_append, pending]

/-- A chunk without text changes nothing. -/
theorem splitLines_pending (pipe : Pipe) (done : List Event) :
    splitLines (pending pipe done) [] = ⟨[], pending pipe done⟩ := by
  refine splitLines_eq_iff.mpr ⟨by simp [unlines], (splitLines_spec _ _).2.1, by simp⟩

/-- What is delivered without interrupting a line keeps the two pipes apart. -/
theorem Merged.concat {done : List Event} {e : Event} (h : Merged done)
    (hok : Uninterrupted done e) : Merged (done ++ [e]) := by
  have hquiet : ∀ pipe, e.textOf pipe = [] →
      linesOf pipe (done ++ [e]) = linesOf pipe done ∧
        pending pipe (done ++ [e]) = pending pipe done := by
    intro pipe htext
    rw [linesOf_concat, pending_concat, htext, splitLines_pending]
    exact ⟨List.append_nil _, rfl⟩
  by_cases hdata : ∃ pipe chunk, e = .data pipe chunk ∧ chunk ≠ []
  · obtain ⟨pipe, chunk, rfl, hne⟩ := hdata
    have hfree := hok pipe chunk rfl hne
    have hres := h.residual_eq hfree
    have hother : (Event.data pipe chunk).textOf pipe.other = [] := by cases pipe <;> rfl
    have hself : (Event.data pipe chunk).textOf pipe = chunk := if_pos rfl
    obtain ⟨hlines, hpending⟩ := hquiet pipe.other hother
    constructor
    · rw [absorbed_concat, hres]
      change (absorbed done ++ (splitLines (pending pipe done) chunk).lines).Perm _
      have hnew := linesOf_concat pipe done (.data pipe chunk)
      rw [hself] at hnew
      cases pipe with
      | stdout =>
          rw [show linesOf .stderr _ = linesOf .stderr done from hlines, hnew]
          refine (h.lines.append_right _).trans ?_
          rw [List.append_assoc, List.append_assoc]
          exact List.perm_append_comm.append_left _
      | stderr =>
          rw [show linesOf .stdout _ = linesOf .stdout done from hlines, hnew,
            ← List.append_assoc]
          exact h.lines.append_right _
    · refine ⟨pipe, ?_, hpending.trans hfree⟩
      rw [delivered_concat, splitLines_append, pending_concat, hself, hres]
      rfl
  · have htext : e.text = [] := by
      cases e with
      | data pipe chunk =>
          by_contra hne
          exact hdata ⟨pipe, chunk, rfl, hne⟩
      | _ => rfl
    have hquiet' := fun pipe => hquiet pipe (Event.textOf_of_text_eq_nil htext pipe)
    have hdelivered : delivered (done ++ [e]) = delivered done := by
      rw [delivered_concat, htext, List.append_nil]
    constructor
    · rw [absorbed, hdelivered, (hquiet' .stdout).1, (hquiet' .stderr).1]
      exact h.lines
    · obtain ⟨pipe, hres, hother⟩ := h.residual
      refine ⟨pipe, ?_, (hquiet' pipe.other).2.trans hother⟩
      rw [hdelivered, (hquiet' pipe).2]
      exact hres

/-- **As long as no chunk interrupts a line**, the lines absorbed are those of the two
pipes. -/
theorem merged_of_along {child : List Write} {events : List Event}
    (h : Along (InOrder child) [] events) : Merged events :=
  along_induction (fun _ _ hdone hok => hdone.concat hok.uninterrupted) h merged_nil

/-! ### Reading what was written -/

/-- The lines of a child in the order in which it writes them. -/
def linesWritten (child : List Write) : List (List Char) :=
  child.map Write.line

/-- No line that a child writes has a line end within it. -/
theorem writtenTo_unbroken (pipe : Pipe) (child : List Write) :
    ∀ line ∈ writtenTo pipe child, '\n' ∉ line := by
  intro line hline
  obtain ⟨w, -, rfl⟩ := List.mem_map.mp hline
  exact w.unbroken

/-- What a child writes is what it writes to the one pipe and to the other. -/
theorem perm_writtenTo (child : List Write) :
    (linesWritten child).Perm (writtenTo .stdout child ++ writtenTo .stderr child) := by
  have hstderr : child.filter (fun w => w.pipe = .stderr) =
      child.filter fun w => !decide (w.pipe = .stdout) := by
    refine List.filter_congr fun w _ => ?_
    cases w.pipe <;> rfl
  rw [linesWritten, writtenTo, writtenTo, hstderr, ← List.map_append]
  exact (List.filter_append_perm _ child).symm.map Write.line

/-- The complete lines of a text that is the beginning of some lines are the first of
those. -/
theorem prefix_lines {text : List Char} {lines : List (List Char)}
    (h : text <+: unlines lines) (hlines : ∀ line ∈ lines, '\n' ∉ line) :
    (splitLines [] text).lines <+: lines := by
  obtain ⟨rest, hrest⟩ := h
  have hall : splitLines [] (text ++ rest) = ⟨lines, []⟩ :=
    splitLines_eq_iff.mpr ⟨by rw [hrest]; simp, by simp, hlines⟩
  rw [splitLines_append] at hall
  exact ⟨_, (SplitLines.mk.inj hall).1⟩

/-- **What a pipe has delivered is what was written to it**, up to some line. -/
theorem Delivers.prefix_linesOf {child : List Write} {events : List Event}
    (h : Delivers child events) (pipe : Pipe) : linesOf pipe events <+: writtenTo pipe child :=
  prefix_lines (h pipe) (writtenTo_unbroken pipe child)

/-- What was delivered before an event is a beginning, too. -/
theorem Delivers.of_append {child : List Write} {before after : List Event}
    (h : Delivers child (before ++ after)) : Delivers child before := by
  intro pipe
  refine List.IsPrefix.trans ?_ (h pipe)
  rw [received, received, List.flatMap_append]
  exact List.prefix_append _ _

/-- What a child writes to a pipe before it announces itself comes first on that pipe. -/
theorem prefix_writtenTo_before (pipe : Pipe) (child : List Write) :
    writtenTo pipe (beforeAnnouncement child) <+: writtenTo pipe child :=
  ((List.takeWhile_prefix _).filter _).map _

/-- An announcement that has come in through a pipe has everything in front of it that was
written to the pipe before. -/
theorem Delivers.prefix_before {child : List Write} {events : List Event}
    (h : Delivers child events) {pipe : Pipe}
    (hannounced : (linesOf pipe events).any serverStarted = true) :
    writtenTo pipe (beforeAnnouncement child) <+: linesOf pipe events := by
  rcases List.prefix_or_prefix_of_prefix (prefix_writtenTo_before pipe child)
    (h.prefix_linesOf pipe) with hpre | hpre
  · exact hpre
  · obtain ⟨line, hline, hstarted⟩ := List.any_eq_true.mp hannounced
    obtain ⟨w, hw, rfl⟩ := List.mem_map.mp (hpre.subset hline)
    have hquiet := List.mem_takeWhile_imp (List.mem_filter.mp hw).1
    rw [hstarted] at hquiet
    exact absurd hquiet (by simp)

/-- What is absorbed was written. -/
theorem absorbed_subperm {child : List Write} {events : List Event}
    (hdelivers : Delivers child events) (hmerged : Merged events) :
    (absorbed events).Subperm (linesWritten child) := by
  have hparts := ((hdelivers.prefix_linesOf .stdout).sublist.append
    (hdelivers.prefix_linesOf .stderr).sublist).subperm
  exact hmerged.lines.subperm.trans (hparts.trans (perm_writtenTo child).symm.subperm)

/-- What was written before the announcement is absorbed, if each pipe has delivered its
part. -/
theorem subperm_absorbed {child : List Write} {events : List Event} (hmerged : Merged events)
    (hbefore : ∀ pipe, writtenTo pipe (beforeAnnouncement child) <+: linesOf pipe events) :
    (linesWritten (beforeAnnouncement child)).Subperm (absorbed events) := by
  have hparts := ((hbefore .stdout).sublist.append (hbefore .stderr).sublist).subperm
  exact (perm_writtenTo _).subperm.trans (hparts.trans hmerged.lines.symm.subperm)

/-! ### The audit -/

/-- What must not be served: before its announcement the child shows a trust list that was
never asked for, fewer issuers than the bundle holds, or an ignored circuit file. -/
def ShowsTrouble (o : ServiceOptions) (files : Files) (child : List Write) : Prop :=
  (o.vicalUrl.truthy = false ∧
      ∃ line ∈ linesWritten (beforeAnnouncement child), (vicalLoaded line).getD 0 ≠ 0) ∨
    (linesWritten (beforeAnnouncement child)).countP issuerCa <
      countPemCertificates files.bundle ∨
    ∃ line ∈ linesWritten (beforeAnnouncement child), circuitSkipped line ≠ none

/-- A child that does not make up later for what was missing: issuers that are short at the
announcement stay short, and where a file is ignored not every circuit is reported. -/
structure Forthright (files : Files) (child : List Write) : Prop where
  issuers : (linesWritten (beforeAnnouncement child)).countP issuerCa <
      countPemCertificates files.bundle →
    (linesWritten child).countP issuerCa < countPemCertificates files.bundle
  circuits : (∃ line ∈ linesWritten (beforeAnnouncement child), circuitSkipped line ≠ none) →
    (linesWritten child).countP circuitLoaded < countCircuitFiles files.listing

/-- Lines that were absorbed stay absorbed, whatever comes after them. -/
theorem prefix_absorbed (before after : List Event) :
    absorbed before <+: absorbed (before ++ after) := by
  rw [absorbed, absorbed, delivered, delivered, List.flatMap_append, splitLines_append]
  exact List.prefix_append _ _

/-- An announcement that was read came in through one of the pipes. -/
theorem Merged.exists_pipe {events : List Event} (h : Merged events)
    (hannounced : (absorbed events).any serverStarted = true) :
    ∃ pipe, (linesOf pipe events).any serverStarted = true := by
  obtain ⟨line, hline, hstarted⟩ := List.any_eq_true.mp hannounced
  rcases List.mem_append.mp (h.lines.mem_iff.mp hline) with hout | herr
  · exact ⟨.stdout, List.any_eq_true.mpr ⟨line, hout, hstarted⟩⟩
  · exact ⟨.stderr, List.any_eq_true.mpr ⟨line, herr, hstarted⟩⟩

/-- The audit fails on a log that holds everything a troublesome child wrote before its
announcement. -/
theorem no_trouble_of_audit {child : List Write} {events : List Event} {s : VerifierService}
    (hsound : Sound files s) (hphase : s.phase ≠ .idle) (hreads : s.log.Reads (delivered events))
    (hloaded : Loaded s) (haudit : assertTrustAnchors p o s = .ok ())
    (hchild : Forthright files child)
    (hsub : (linesWritten (beforeAnnouncement child)).Subperm (absorbed events))
    (hall : (absorbed events).Subperm (linesWritten child)) : ¬ShowsTrouble o files child := by
  obtain ⟨hasked, henough, -⟩ := (assertTrustAnchors_ok_iff p o s).mp haudit
  obtain ⟨hexpected, hanchors⟩ := hsound.counted hphase
  rintro (⟨hurl, line, hline, hne⟩ | hissuers | hskipped)
  · cases hl : vicalLoaded line with
    | none => exact hne (by rw [hl]; rfl)
    | some n =>
        rw [hl, Option.getD_some] at hne
        have hmem : n ∈ (absorbed events).filterMap vicalLoaded :=
          List.mem_filterMap.mpr ⟨line, hsub.subset hline, hl⟩
        have hsum : s.log.vical ≠ 0 := by
          rw [hreads.vical]
          exact fun hzero => hne ((sumCounts_eq_zero_iff.mp hzero).2 n hmem)
        rw [hasked hsum] at hurl
        exact absurd hurl (by simp)
  · have hshort := hchild.issuers hissuers
    have hle : s.log.anchors ≤ (linesWritten child).countP issuerCa :=
      hreads.anchors ▸ hall.countP_le issuerCa
    omega
  · have hshort := hchild.circuits hskipped
    have hle : s.log.circuits ≤ (linesWritten child).countP circuitLoaded :=
      hreads.circuits ▸ hall.countP_le circuitLoaded
    have hcircuits := hloaded.circuits
    omega

/-- **The audit sees everything** that a forthright child wrote before it announced itself,
when its pipes are delivered in order: if `start()` has resolved, all of that was absorbed,
and none of it is a reason not to serve. -/
theorem audit_sees_everything {child : List Write} {events : List Event} {s : VerifierService}
    (hrun : exec (step p o files) init events = some s) (hdelivers : Delivers child events)
    (horder : Along (InOrder child) [] events) (hchild : Forthright files child)
    (hresolved : s.phase = .resolved) :
    (linesWritten (beforeAnnouncement child)).Subperm (absorbed events) ∧
      ¬ShowsTrouble o files child := by
  obtain ⟨before, after, s₀, rfl, hrun₀, hprobing, haudit⟩ := resolution_of_run hrun hresolved
  obtain ⟨horder₀, hprobe, -⟩ := along_append_iff.mp horder
  have hdelivers₀ : Delivers child before := hdelivers.of_append
  have hmerged : Merged before := merged_of_along horder₀
  have hreads := reads_of_run hrun₀
  have hsound : Sound files s₀ := sound_of_run hrun₀
  have hloaded : Loaded s₀ := (hprobing ▸ hsound.facts : PhaseFacts s₀ .probing).1
  -- The announcement came in through one of the pipes, behind everything written to it before.
  obtain ⟨pipe, hpipe⟩ := hmerged.exists_pipe (hreads.started.symm.trans hloaded.started)
  have hbefore : ∀ pipe', writtenTo pipe' (beforeAnnouncement child) <+: linesOf pipe' before := by
    intro pipe'
    by_cases hsame : pipe' = pipe
    · exact hsame ▸ hdelivers₀.prefix_before hpipe
    · have hother : pipe'.other = pipe := by cases pipe <;> cases pipe' <;> simp_all [Pipe.other]
      exact hprobe pipe' (hother ▸ hpipe)
  have hsub := subperm_absorbed hmerged hbefore
  exact ⟨hsub.trans (prefix_absorbed _ _).sublist.subperm,
    no_trouble_of_audit hsound (by simp [hprobing]) hreads hloaded haudit hchild hsub
      (absorbed_subperm hdelivers₀ hmerged)⟩

/-- A child that writes to both pipes in turn, and announces itself last. -/
def twoPipeChild : List Write :=
  [⟨.stdout, "Read ".toList ++ sampleCircuit, by decide⟩,
    ⟨.stderr, "adding Issuer CA CN=Root".toList, by decide⟩,
    ⟨.stdout, "\"msg\":\"Starting server\"".toList, by decide⟩]

/-- Its lines come in one by one. -/
def twoPipeStart : List Event :=
  [.start true, .spawned (sampleTime 0) (sampleTime 0),
    .data .stdout (unlines ["Read ".toList ++ sampleCircuit]),
    .data .stderr (unlines ["adding Issuer CA CN=Root".toList]),
    .data .stdout (unlines ["\"msg\":\"Starting server\"".toList]),
    .wake (sampleTime 250), .health true]

/-- What this child has written to either pipe was absorbed before the service was ready. -/
theorem audit_sees_everything_twoPipeChild :
    (linesWritten (beforeAnnouncement twoPipeChild)).Subperm (absorbed twoPipeStart) ∧
      ¬ShowsTrouble sampleOptions sampleFiles twoPipeChild := by
  have hrun : (exec (step .sample sampleOptions sampleFiles) init twoPipeStart).map
      (fun s => s.phase.isResolved) = some true := by
    decide +kernel
  obtain ⟨s, hs, hresolved⟩ := Option.map_eq_some_iff.mp hrun
  have hdelivers : Delivers twoPipeChild twoPipeStart := by
    rintro (_ | _) <;> decide +kernel
  have horder : Along (InOrder twoPipeChild) [] twoPipeStart := by
    refine ⟨trivial, trivial, rfl, rfl, rfl, trivial, ?_, trivial⟩
    rintro (_ | _) <;> decide +kernel
  have hchild : Forthright sampleFiles twoPipeChild :=
    ⟨by decide +kernel, by decide +kernel⟩
  exact audit_sees_everything hs hdelivers horder hchild (Phase.isResolved_iff.mp hresolved)

/-- A child that writes to one pipe. -/
def sampleChild : List Write :=
  [⟨.stdout, "Read ".toList ++ sampleCircuit, by decide⟩,
    ⟨.stdout, "adding Issuer CA CN=Root".toList, by decide⟩,
    ⟨.stdout, "\"msg\":\"Starting server\"".toList, by decide⟩]

/-- A trust list on the other pipe. -/
def sampleTrustList : Write :=
  ⟨.stderr, "Loaded 3 certificates from VICAL".toList, by decide⟩

/-- **An announcement overtakes a trust list.** The child reports a trust list on one pipe
and then announces itself on the other; the second pipe is delivered first, and `start()`
resolves on a log that does not show the list. -/
theorem announcement_overtakes :
    Delivers (sampleTrustList :: sampleChild) sampleStart ∧
      (∃ s, exec (step .sample sampleOptions sampleFiles) init sampleStart = some s ∧
        s.phase = .resolved) ∧
      sampleTrustList.line ∈ linesWritten (beforeAnnouncement (sampleTrustList :: sampleChild)) ∧
      sampleTrustList.line ∉ absorbed sampleStart ∧
      ShowsTrouble sampleOptions sampleFiles (sampleTrustList :: sampleChild) := by
  obtain ⟨s, hs, hresolved, -⟩ := sampleStart_resolves
  refine ⟨by rintro (_ | _) <;> decide +kernel, ⟨s, hs, hresolved⟩, by decide +kernel,
    by decide +kernel, Or.inl ⟨rfl, sampleTrustList.line, by decide +kernel, by decide +kernel⟩⟩

end VerifierService

end EightEen
