import FlowCanvas.Proofs.Decimal.Numerals
import FlowCanvas.Proofs.Diagram.Acceptance
import FlowCanvas.Proofs.Diagram.Connections
import FlowCanvas.Proofs.Pipeline.LineNumbers
import FlowCanvas.Proofs.Pipeline.Plan

namespace FlowCanvas

def Number.IsUsable : Number → Prop
  | int n => 0 < n
  | float x => Decimal.IsUsable x

instance : DecidablePred Decimal.IsUsable :=
  fun x => inferInstanceAs (Decidable (x.isFinite = true ∧ 0 < x))

instance : DecidablePred Number.IsUsable
  | .int n => inferInstanceAs (Decidable (0 < n))
  | .float x => inferInstanceAs (Decidable (Decimal.IsUsable x))

def Edge.width? (e : Edge) : Option Number :=
  match Fields.get "strokeWidth" e.style with
  | .number w => some w
  | _ => none

namespace Diagram

def Line.widthText? (line : Line) : Option String :=
  let attributes := attributesOf ((splitBlock line.text.toList).2.getD [])
  (filled? attributes "width").or (Table.get? "strokewidth" attributes)

/-- The exact number in that text, which is the first numeral inside it. -/
def Line.width? (line : Line) : Option ℚ :=
  line.widthText?.bind fun text => (Decimal.firstNumeral? text.toList).bind Decimal.valueOf?

theorem width_of_mem_connect {look : Look} {number : Nat} {source : String}
    {targets : List (List Char × String)} {e : EdgeDecl}
    (h : e ∈ connect look number source targets) : e.width = look.width := by
  induction targets generalizing source with
  | nil => cases h
  | cons first r ih =>
    rw [connect] at h
    rcases List.mem_cons.1 h with rfl | h
    · rfl
    · exact ih h

theorem width_of_mem_edges {line : Line} {e : EdgeDecl} (h : e ∈ line.edges) :
    e.width = line.widthText?.bind numberIn? := by
  obtain ⟨-, edges, hread, he⟩ := Line.mem_edges h
  unfold readEdges at hread
  simp only [bind_eq_ok_iff] at hread
  obtain ⟨look, hlook, source, -, targets, -, hedges⟩ := hread
  obtain rfl := Except.ok.inj hedges
  rw [width_of_mem_connect he]
  obtain ⟨style, -, hstyle⟩ := bind_eq_ok_iff.1 hlook
  obtain rfl := Except.ok.inj hstyle
  rfl

/-- A line has a width of its own just if it gives a number for it, and that number alone decides
whether the width is usable. -/
theorem width_of_line {line : Line} {e : EdgeDecl} (h : e ∈ line.edges) :
    (e.width = none ∧ line.width? = none) ∨
      ∃ q x, line.width? = some q ∧ e.width = some x ∧
        (Decimal.IsUsable x ↔ Decimal.underflow < q ∧ q < Decimal.overflow) := by
  rw [width_of_mem_edges h, Line.width?]
  cases line.widthText? with
  | none => exact .inl ⟨rfl, rfl⟩
  | some text =>
    simp only [Option.bind_some, numberIn?]
    cases hnumeral : Decimal.firstNumeral? text.toList with
    | none => exact .inl ⟨rfl, rfl⟩
    | some numeral =>
      obtain ⟨q, x, hq, hx, husable⟩ := Decimal.isUsable_floatOfText? hnumeral
      exact .inr ⟨q, x, hq, hx, husable⟩

end Diagram

namespace Pipeline
open Diagram Identity

theorem forall₂_style_plan (settings : Settings) (document : Document) (token : Nat)
    (base : Snapshot) :
    List.Forall₂ (fun d e => e.style = Styling.lineFields d settings.edges) document.soundEdges
      (Run.plan settings document token base).edges := by
  rw [plan_edges, List.forall₂_map_right_iff, reconcile_links]
  refine (forall₂_linkFrom _ 0 document.soundEdges).imp fun d l h => ?_
  rw [← h.1]
  rfl

/-- How wide the edge of a connection line is drawn: as the settings say if the line gives no
number, and usably if no number or one in range is given. -/
def DrawsWidth (settings : Settings) (line : Line) (e : Edge) : Prop :=
  ∃ w, e.width? = some w ∧
    (line.width? = none → w = settings.edges.width) ∧
    (w.IsUsable ↔ ∀ q, line.width? = some q → Decimal.underflow < q ∧ q < Decimal.overflow)

theorem drawsWidth_of_style {settings : Settings} (hwidth : settings.edges.width.IsUsable)
    {line : Line} {d : EdgeDecl} (hd : d ∈ line.edges) {e : Edge}
    (he : e.style = Styling.lineFields d settings.edges) : DrawsWidth settings line e := by
  have hw : e.width? = some ((d.width.map Number.float).getD settings.edges.width) := by
    rw [Edge.width?, he, Styling.lineFields]
    cases d.width <;> rfl
  refine ⟨_, hw, ?_⟩
  obtain ⟨hnone, hline⟩ | ⟨q, x, hline, hx, husable⟩ := width_of_line hd
  · rw [hnone]
    exact ⟨fun _ => rfl, iff_of_true hwidth (by simp [hline])⟩
  · rw [hx]
    refine ⟨fun hempty => ?_, husable.trans ?_⟩
    · cases hline.symm.trans hempty
    · simp [hline]

/-- Where the settings have a finite width above zero, so has every edge that a run commits but for
those whose line asks for another: a number that is not above zero, or that a double takes for zero
or infinity. -/
theorem widths_usable_iff {p : Pipeline} (engine : LayoutEngine) {text : String}
    (hwidth : p.settings.edges.width.IsUsable)
    (h : (p.runWith engine text).2.status = .committed) :
    ∃ document, parse (unwrap text) = .ok document ∧
      List.Forall₂ (fun d e => ∃ line ∈ linesOf (unwrap text), d ∈ line.edges ∧
          DrawsWidth p.settings line e)
        (document.edges.filter document.isSound) (p.runWith engine text).1.store.edges := by
  obtain ⟨document, hparse, hlock⟩ := runWith_committed engine h
  obtain ⟨-, hleft⟩ := runWith_of_unlocked engine hparse hlock
  obtain ⟨-, hdocument⟩ := parse_eq_ok_iff.1 hparse
  have hedges : document.edges = (linesOf (unwrap text)).flatMap Line.edges := by
    rw [hdocument, declared]
  -- Edges are drawn for the sound connections in their order, and each of these comes from a line.
  have hlines : ∀ d ∈ document.soundEdges, ∃ line ∈ linesOf (unwrap text), d ∈ line.edges := by
    intro d hd
    rw [Document.soundEdges_eq] at hd
    have hdeclared := List.mem_of_mem_filter hd
    rw [hedges] at hdeclared
    exact List.mem_flatMap.1 hdeclared
  have hcanvas : (p.runWith engine text).1.store.edges = (planned p document).edges :=
    congrArg (·.store.edges) hleft
  refine ⟨document, hparse, ?_⟩
  rw [hcanvas, ← Document.soundEdges_eq]
  have hstyle := forall₂_style_plan p.settings document (p.latest + 1) p.store.snapshot
  refine List.forall₂_iff_get.2 ⟨hstyle.length_eq, fun i hi hi' => ?_⟩
  obtain ⟨line, hline, hd⟩ := hlines _ (List.get_mem document.soundEdges ⟨i, hi⟩)
  exact ⟨line, hline, hd,
    drawsWidth_of_style hwidth hd ((List.forall₂_iff_get.1 hstyle).2 i hi hi')⟩

/-- An edge without a usable width comes from a line that asks for none. -/
theorem exists_line_of_unusable {settings : Settings} {lines : List Line} {ds : List EdgeDecl}
    {es : List Edge}
    (h : List.Forall₂
      (fun d e => ∃ line ∈ lines, d ∈ line.edges ∧ DrawsWidth settings line e) ds es)
    (hunusable : ∃ e ∈ es, ∀ w ∈ e.width?, ¬w.IsUsable) :
    ∃ line ∈ lines, ∃ q, line.width? = some q ∧
      ¬(Decimal.underflow < q ∧ q < Decimal.overflow) := by
  obtain ⟨e, he, hbad⟩ := hunusable
  obtain ⟨i, hi, rfl⟩ := List.mem_iff_getElem.1 he
  obtain ⟨line, hline, -, w, hw, -, husable⟩ :=
    (List.forall₂_iff_get.1 h).2 i (by rwa [h.length_eq]) hi
  refine ⟨line, hline, ?_⟩
  by_contra hno
  push Not at hno
  exact hbad w hw (husable.2 hno)

def widthsText : String :=
  "[start] A\nA -> A \x7b width: 0 \x7d\nA -> A \x7b width: -3 \x7d\n" ++
    "A -> A \x7b width: 1e999 \x7d"

/-- A run commits widths that no settings may have. -/
theorem unusable_widths_committed :
    freshPipeline.settings.edges.width.IsUsable ∧
      (freshPipeline.runWith idleEngine widthsText).2.status = .committed ∧
      ((freshPipeline.runWith idleEngine widthsText).1.store.edges.filterMap Edge.width?).map
        (fun w => decide w.IsUsable) = [false, false, false] := by
  decide +kernel

theorem unusable_width_asked_for :
    freshPipeline.settings.edges.width.IsUsable ∧
      (freshPipeline.runWith idleEngine widthsText).2.status = .committed ∧
      ∃ line ∈ linesOf (unwrap widthsText), ∃ q, line.width? = some q ∧
        ¬(Decimal.underflow < q ∧ q < Decimal.overflow) := by
  have hwidth : freshPipeline.settings.edges.width.IsUsable := by decide +kernel
  have hcommitted : (freshPipeline.runWith idleEngine widthsText).2.status = .committed := by
    decide +kernel
  obtain ⟨document, -, hdraws⟩ := widths_usable_iff idleEngine hwidth hcommitted
  exact ⟨hwidth, hcommitted, exists_line_of_unusable hdraws (by decide +kernel)⟩

end Pipeline
end FlowCanvas
