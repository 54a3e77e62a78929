import FlowCanvas.Proofs.Diagram.NormalForm
import FlowCanvas.Proofs.Diagram.Reference
import FlowCanvas.Proofs.Diagram.Significance
import FlowCanvas.Proofs.Diagram.Unwrapping
import FlowCanvas.Proofs.Pipeline.Plan

namespace FlowCanvas.Pipeline
open Diagram

/-- The results that a run of a text can end with: at once, or when the layout engine has answered,
whatever has become of the pipeline by then. -/
inductive EndsWith (p : Pipeline) (text : String) : Result → Prop where
  | atOnce (result : Result) (h : (p.run text).2 = .finished result) : EndsWith p text result
  | answered (run : Run) (h : (p.run text).2 = .awaitsEngine run) (q : Pipeline)
      (outcome : Except Layout.EngineFailure Layout.Positions) :
      EndsWith p text (q.resume run outcome).2

theorem endsWith_runWith (p : Pipeline) (engine : LayoutEngine) (text : String) :
    EndsWith p text (p.runWith engine text).2 := by
  rcases hrun : p.run text with ⟨q, result | run⟩
  · rw [runWith, hrun]
    exact .atOnce result (by rw [hrun])
  · rw [runWith, hrun]
    exact .answered run (by rw [hrun]) q _

section Conclude
variable (p : Pipeline) (run : Run) (placement : Layout.Placement)

/-- The last step of a run fails only where the canvas refuses the diagram. -/
theorem conclude_not_diagram (e : Diagram.Error) :
    (p.conclude run placement).2.status ≠ .failed (.diagram e) := by
  obtain ⟨-, store, -, -, hstatus⟩ | ⟨-, rejection, -, -, hstatus⟩ | ⟨-, -, hstatus⟩ :=
    conclude_cases p run placement <;> simp [hstatus]

theorem dangling_of_conclude {d : DanglingReference}
    (h : .dangling d ∈ (p.conclude run placement).2.warnings) : d ∈ run.dangling := by
  unfold conclude at h
  simp only at h
  split at h
  · split at h
    · simpa using h
    · simp [fail] at h
  · simpa using h

end Conclude

section Run
variable (p : Pipeline) (text : String)

/-- A run fails at once with the error of its unwrapped text, or it plans the document that the text
is read as and concludes the plan, either at once or after the layout engine has answered. -/
theorem run_cases :
    (∃ e, parse (unwrap text) = .error e ∧
      (p.run text).2 = .finished (p.issue.1.fail (.diagram e) (p.latest + 1) [.parsing]).2) ∨
    (∃ document, parse (unwrap text) = .ok document ∧
      ((∃ placement, (p.run text).2 =
          .finished ((started p).conclude (planned p document) placement).2) ∨
        (p.run text).2 = .awaitsEngine (planned p document))) := by
  rw [run_eq]
  cases hparse : parse (unwrap text) with
  | error e => exact .inl ⟨e, rfl, by simp [execute, hparse]⟩
  | ok document =>
    refine .inr ⟨document, rfl, ?_⟩
    cases hplaced : Layout.withoutEngine? (planned p document).options
        (planned p document).nodes with
    | some placement =>
      have hexecute := execute_of_some p.issue.1 (p.latest + 1) p.store.snapshot hparse hplaced
      exact .inl ⟨placement, by rw [hexecute]; rfl⟩
    | none =>
      have hexecute := execute_of_none p.issue.1 (p.latest + 1) p.store.snapshot hparse hplaced
      exact .inr (by rw [hexecute]; rfl)

end Run

/-- A run fails with the error of its unwrapped text, or its warnings are those of the document that
the text is read as. -/
theorem EndsWith.cases_parse {p : Pipeline} {text : String} {result : Result}
    (h : EndsWith p text result) :
    (∃ e, parse (unwrap text) = .error e ∧ result.status = .failed (.diagram e) ∧
      result.warnings = []) ∨
    (∃ document, parse (unwrap text) = .ok document ∧
      (∀ e, result.status ≠ .failed (.diagram e)) ∧
      ∀ d, .dangling d ∈ result.warnings → d ∈ document.dangling) := by
  -- The last step looks at a pipeline that other calls may have changed, so this is for every `q`.
  have hconclude (q : Pipeline) (document : Document) (placement : Layout.Placement) :
      (∀ e, (q.conclude (planned p document) placement).2.status ≠ .failed (.diagram e)) ∧
      ∀ d, .dangling d ∈ (q.conclude (planned p document) placement).2.warnings →
        d ∈ document.dangling :=
    ⟨conclude_not_diagram q _ placement, fun _ hd => dangling_of_conclude q _ placement hd⟩
  cases h with
  | atOnce result hfinished =>
    obtain ⟨e, hparse, hrun⟩ | ⟨document, hparse, ⟨placement, hrun⟩ | hrun⟩ := run_cases p text
    · obtain rfl := Progress.finished.inj (hrun.symm.trans hfinished)
      exact .inl ⟨e, hparse, rfl, rfl⟩
    · obtain rfl := Progress.finished.inj (hrun.symm.trans hfinished)
      exact .inr ⟨document, hparse, hconclude _ document placement⟩
    · cases hrun.symm.trans hfinished
  | answered run hwaits q outcome =>
    obtain ⟨e, hparse, hrun⟩ | ⟨document, hparse, ⟨placement, hrun⟩ | hrun⟩ := run_cases p text
    · cases hrun.symm.trans hwaits
    · cases hrun.symm.trans hwaits
    · obtain rfl := Progress.awaitsEngine.inj (hrun.symm.trans hwaits)
      exact .inr ⟨document, hparse, hconclude q document _⟩

/-- The offending line of a text that is refused, and its place in the text. -/
theorem offence_standsAt {text : String} {e : Diagram.Error} (h : parse (unwrap text) = .error e) :
    ∃ before line after place, linesOf (unwrap text) = before ++ line :: after ∧ Readable before ∧
      Offends before line e ∧ StandsAt text line place ∧
      place.number = e.line + leftOut text place.number ∧
      ∀ n ∈ e.numbers, ∃ named stand, named ∈ before ++ [line] ∧ named.number = n ∧
        StandsAt text named stand := by
  obtain ⟨before, line, after, hsplit, hreadable, hoffends⟩ := parse_eq_error_iff.1 h
  have hmem : ∀ named ∈ before ++ [line], named ∈ linesOf (unwrap text) := by
    intro named hnamed
    rw [hsplit, List.append_cons]
    exact List.mem_append_left _ hnamed
  have hline : line ∈ before ++ [line] := List.mem_append_right _ List.mem_cons_self
  obtain ⟨place, hplace⟩ := exists_standsAt (hmem line hline) hoffends.kind_ne.1
  refine ⟨before, line, after, place, hsplit, hreadable, hoffends, hplace, ?_, fun n hn => ?_⟩
  · rw [hoffends.line_eq]
    exact hplace.number
  · rcases hoffends.mem_numbers n hn with rfl | ⟨first, hfirst, hnumber, hkind⟩
    · exact ⟨line, place, hline, rfl, hplace⟩
    · have hnamed : first ∈ before ++ [line] := List.mem_append_left _ hfirst
      obtain ⟨stand, hstand⟩ := exists_standsAt (hmem first hnamed) (by simp [hkind])
      exact ⟨first, stand, hnamed, hnumber, hstand⟩

/-- The line of a connection that is left out, and its place in the text. -/
theorem dangling_standsAt {text : String} {document : Document}
    (h : parse (unwrap text) = .ok document) {d : DanglingReference} (hd : d ∈ document.dangling) :
    ∃ line place, StandsAt text line place ∧
      (∃ edge ∈ line.edges, edge.source = d.source ∧ edge.target = d.target) ∧
      place.number = d.line + leftOut text place.number := by
  obtain ⟨-, hdocument⟩ := parse_eq_ok_iff.1 h
  have hedges : document.edges = (linesOf (unwrap text)).flatMap Line.edges := by
    rw [hdocument, declared]
  rw [Document.dangling_eq] at hd
  obtain ⟨edge, hedge, hreference⟩ := List.mem_map.1 hd
  have hmem := List.mem_of_mem_filter hedge
  rw [hedges] at hmem
  obtain ⟨line, hline, hdeclares⟩ := List.mem_flatMap.1 hmem
  obtain ⟨place, hplace⟩ := exists_standsAt hline (by simp [(Line.mem_edges hdeclares).1])
  obtain ⟨hnumber, -⟩ := isNormal_of_mem_edges hdeclares
  refine ⟨line, place, hplace, ⟨edge, hdeclares, ?_⟩, ?_⟩
  · rw [← hreference]
    exact ⟨rfl, rfl⟩
  · rw [← hreference, hnumber]
    exact hplace.number

/-- A run fails for its text just if the lines of the unwrapped text are not readable, and then the
number that it reports, and every other that the error names, is that of the line in the unwrapped
text. In the text that was given the line stands further down, by the lines left out before it; and
the same holds of the connection that a warning is about. Only in a bare text are the numbers those
of the text itself for certain. -/
theorem reported_lines_fall_short {p : Pipeline} {text : String} {result : Result}
    (h : EndsWith p text result) :
    ((∃ e, result.status = .failed (.diagram e)) ↔ ¬ Readable (linesOf (unwrap text))) ∧
    (∀ e, result.status = .failed (.diagram e) →
      ∃ before line after place, linesOf (unwrap text) = before ++ line :: after ∧
        Readable before ∧ Offends before line e ∧ StandsAt text line place ∧
        place.number = e.line + leftOut text place.number ∧
        ∀ n ∈ e.numbers, ∃ named stand, named ∈ before ++ [line] ∧ named.number = n ∧
          StandsAt text named stand) ∧
    (∀ d, .dangling d ∈ result.warnings → ∃ line place, StandsAt text line place ∧
      (∃ edge ∈ line.edges, edge.source = d.source ∧ edge.target = d.target) ∧
      place.number = d.line + leftOut text place.number) ∧
    (IsBare text → ∀ line place, StandsAt text line place → leftOut text place.number = 0) := by
  refine ⟨?_, ?_, ?_, ?_⟩
  · obtain ⟨e, hparse, hstatus, -⟩ | ⟨document, hparse, hstatus, -⟩ := h.cases_parse
    · refine iff_of_true ⟨e, hstatus⟩ fun hreadable => ?_
      cases hparse.symm.trans (parse_eq_ok_iff.2 ⟨hreadable, rfl⟩)
    · refine iff_of_false (fun ⟨e, he⟩ => hstatus e he) (not_not.2 ?_)
      exact (parse_eq_ok_iff.1 hparse).1
  · intro e he
    obtain ⟨e', hparse, hstatus, -⟩ | ⟨document, -, hstatus, -⟩ := h.cases_parse
    · obtain rfl : e' = e := by simpa [hstatus] using he
      exact offence_standsAt hparse
    · exact absurd he (hstatus e)
  · intro d hd
    obtain ⟨e, -, -, hwarnings⟩ | ⟨document, hparse, -, hdangling⟩ := h.cases_parse
    · simp [hwarnings] at hd
    · exact dangling_standsAt hparse (hdangling d hd)
  · intro hbare line place hplace
    have hsame := hbare.number_eq hplace
    have hnumber := hplace.number
    omega

def fencedText : String :=
  "\x60\x60\x60\nflow\n???\n\x60\x60\x60"

def loweredText : String :=
  "\n[start] A\nA -> B"

def freshPipeline : Pipeline :=
  ofStore { nodes := [], edges := [], commits := 0, lock := none } {}

def idleEngine (_ : List Node) (_ : List Edge) (_ : Layout.Options) :
    Except Layout.EngineFailure Layout.Positions :=
  .ok []

def Warning.line? : Warning → Option Nat
  | dangling reference => some reference.line
  | layout _ => none

/-- Both texts are reported with line 2, where another line stands. -/
theorem reported_line_is_another :
    (freshPipeline.runWith idleEngine fencedText).2.status =
        .failed (.diagram (.malformed .unrecognised 2 "???")) ∧
      (linesOf fencedText).map (·.text) =
        ["\x60\x60\x60", "flow", "???", "\x60\x60\x60"] ∧
      (freshPipeline.runWith idleEngine loweredText).2.warnings.filterMap Warning.line? = [2] ∧
      (linesOf loweredText).map (·.text) = ["", "[start] A", "A -> B"] := by
  decide +kernel

theorem fenced_offence_stands_below :
    EndsWith freshPipeline fencedText (freshPipeline.runWith idleEngine fencedText).2 ∧
      ∃ line place, StandsAt fencedText line place ∧ line.number = 2 ∧ place.number = 3 := by
  have hends := endsWith_runWith freshPipeline idleEngine fencedText
  refine ⟨hends, ?_⟩
  obtain ⟨-, hoffence, -⟩ := reported_lines_fall_short hends
  have hstatus : (freshPipeline.runWith idleEngine fencedText).2.status =
      .failed (.diagram (.malformed .unrecognised 2 "???")) := by decide +kernel
  obtain ⟨before, line, after, place, -, -, hoffends, hplace, hnumber, -⟩ := hoffence _ hstatus
  refine ⟨line, place, hplace, hoffends.line_eq.symm, ?_⟩
  have hlines : diagramLines fencedText = [⟨.header, 2, "flow"⟩, ⟨.unknown, 3, "???"⟩] := by
    decide +kernel
  have hmem := hplace.place_mem
  rw [hlines] at hmem
  rcases List.mem_cons.1 hmem with rfl | hmem
  · have hleft : leftOut fencedText 2 = 1 := by decide +kernel
    simp [Diagram.Error.line, hleft] at hnumber
  · obtain rfl := List.mem_singleton.1 hmem
    rfl

end FlowCanvas.Pipeline
