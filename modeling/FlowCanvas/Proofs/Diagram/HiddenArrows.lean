import FlowCanvas.Proofs.Diagram.Attributes
import FlowCanvas.Proofs.Diagram.NormalForm

namespace FlowCanvas.Diagram
open Text

/-- A line whose arrows all stand in its attribute block. -/
def HidesArrows (cs : List Char) : Prop :=
  ∃ body block, splitBlock cs = (body, some block) ∧ arrow <:+: block ∧ ¬ arrow <:+: body

section Lines
variable {number : Nat} {cs : List Char}

/-- A connection line has an arrow in its body or hides all that it has. -/
theorem hidesArrows_iff (h : classify cs = .edge) :
    HidesArrows cs ↔ ¬ arrow <:+: (splitBlock cs).1 := by
  constructor
  · rintro ⟨body, block, hsplit, -, hbody⟩
    rwa [hsplit]
  intro hbody
  have hdash : isBlank '-' = false := by decide
  have htip : isBlank '>' = false := by decide
  have harrow : arrow <:+: trimEnd cs :=
    (pair_infix_trimEnd_iff hdash htip).2 (arrow_infix_of_classify h)
  obtain hnone | ⟨before, inside, heq, -, hsome⟩ := splitBlock_cases cs
  · rw [hnone] at hbody
    exact absurd harrow hbody
  · rw [hsome] at hbody
    refine ⟨_, _, hsome, ?_, hbody⟩
    rw [arrow, pair_infix_trimEnd_iff hdash htip] at hbody
    rw [arrow, pair_infix_trim_iff hdash htip]
    -- No arrow reaches over a brace.
    rw [arrow, heq, pair_infix_append_iff, List.infix_cons_iff, pair_infix_append_iff] at harrow
    have hclosing : ¬ ['-', '>'] <:+: ['\x7d'] := by decide
    simpa [hbody, hclosing] using harrow

theorem readEdges_eq_ok_nil_iff :
    readEdges number cs = .ok [] ↔
      ¬ arrow <:+: (splitBlock cs).1 ∧
      (∃ look, lookOf (attributesOf ((splitBlock cs).2.getD [])) = .ok look) ∧
      ∃ name, readEndpoint (splitBlock cs).1 = .ok name := by
  constructor
  · intro h
    have hhops := length_of_readEdges h
    have hbody := splitArrows_snd_eq_nil_iff.1 (List.length_eq_zero_iff.1 hhops.symm)
    unfold readEdges at h
    simp only [bind_eq_ok_iff] at h
    obtain ⟨look, hlook, source, hsource, -⟩ := h
    rw [splitArrows_of_no_arrow hbody] at hsource
    exact ⟨hbody, ⟨look, hlook⟩, source, hsource⟩
  · rintro ⟨hbody, ⟨look, hlook⟩, name, hname⟩
    simp [readEdges, splitArrows_of_no_arrow hbody, hlook, hname, bind, Except.bind, pure,
      Except.pure, connect]

/-- A line that is read declares the connections of the document that carry its number. -/
theorem exists_mem_edges_iff {text : String} {document : Document}
    (h : parse text = .ok document) {line : Line} (hline : line ∈ linesOf text) :
    (∃ e ∈ document.edges, e.line = line.number) ↔ line.edges ≠ [] := by
  obtain ⟨-, rfl⟩ := parse_eq_ok_iff.1 h
  constructor
  · rintro ⟨e, he, hnumber⟩
    obtain ⟨other, hother, he⟩ := List.mem_flatMap.1 he
    have hsame : other.number = line.number := (isNormal_of_mem_edges he).1.symm.trans hnumber
    have hnodup : ((linesOf text).map (·.number)).Nodup :=
      (numbers_increase text).imp Nat.ne_of_lt
    obtain rfl := List.inj_on_of_nodup_map hnodup hother hline hsame
    exact List.ne_nil_of_mem he
  · intro hne
    obtain ⟨e, he⟩ := List.exists_mem_of_ne_nil _ hne
    exact ⟨e, List.mem_flatMap.2 ⟨line, hline, he⟩, (isNormal_of_mem_edges he).1⟩

end Lines

/-- A line that is classified as a connection is refused, or declares a connection for each arrow of
its body. It is accepted without declaring any just if it hides its arrows in its attribute block
and the rest of it is in order; so in a document that is read it has left no connection just if it
hides its arrows. -/
theorem connections_lost_iff_arrows_hidden (cs : List Char) (hclass : classify cs = .edge) :
    (∀ number edges, readEdges number cs = .ok edges →
      edges.length = (splitArrows (splitBlock cs).1).2.length ∧ (edges = [] ↔ HidesArrows cs)) ∧
    (∀ number, readEdges number cs = .ok [] ↔ HidesArrows cs ∧
      (∃ look, lookOf (attributesOf ((splitBlock cs).2.getD [])) = .ok look) ∧
      ∃ name, readEndpoint (splitBlock cs).1 = .ok name) ∧
    (∀ text document, parse text = .ok document → ∀ line ∈ linesOf text, line.text.toList = cs →
      ((∃ e ∈ document.edges, e.line = line.number) ↔ ¬ HidesArrows cs)) := by
  have hempty {number : Nat} {edges : List EdgeDecl} (hread : readEdges number cs = .ok edges) :
      edges = [] ↔ HidesArrows cs := by
    rw [hidesArrows_iff hclass, ← splitArrows_snd_eq_nil_iff, ← List.length_eq_zero_iff,
      length_of_readEdges hread, List.length_eq_zero_iff]
  refine ⟨fun number edges hread => ?_, fun number => ?_, ?_⟩
  · exact ⟨length_of_readEdges hread, hempty hread⟩
  · rw [hidesArrows_iff hclass]
    exact readEdges_eq_ok_nil_iff
  · intro text document hparse line hline htext
    have hkind : line.kind = .edge := by rw [kind_eq_classify hline, htext, hclass]
    have haccepted := (parse_eq_ok_iff.1 hparse).1.accepted line hline
    simp only [Line.IsAccepted, hkind] at haccepted
    obtain ⟨edges, hread⟩ := haccepted
    -- In a document a connection is found by the number of its line.
    rw [exists_mem_edges_iff hparse hline, Line.edges_of_read hkind hread, Ne]
    rw [htext] at hread
    rw [hempty hread]

def hiddenArrowText : String :=
  "[start] A\n[end] B\nA -> B \x7b color: -> \x7d\nA \x7b sub: -> B \x7d"

/-- The connection that the last line seems to declare is lost without an error. -/
theorem hidden_arrow_is_lost :
    classify "A \x7b sub: -> B \x7d".toList = .edge ∧
      (readEdges 1 "A \x7b sub: -> B \x7d".toList).toOption.map (·.length) = some 0 ∧
      (parse hiddenArrowText).toOption.map (·.edges.map (·.line)) = some [3] := by
  decide +kernel

theorem hiding_line_leaves_nothing :
    (∃ document, parse hiddenArrowText = .ok document ∧
      (∃ e ∈ document.edges, e.line = 3) ∧ ¬ ∃ e ∈ document.edges, e.line = 4) ∧
      ∀ edges, readEdges 1 "A -> B -> C".toList = .ok edges → edges.length = 2 := by
  constructor
  · cases hparse : parse hiddenArrowText with
    | error error =>
      have hok : (parse hiddenArrowText).toOption.isSome = true := by decide +kernel
      simp [hparse, Except.toOption] at hok
    | ok document =>
      have hseen : (⟨.edge, 3, "A -> B \x7b color: -> \x7d"⟩ : Line) ∈ linesOf hiddenArrowText := by
        decide +kernel
      have hlost : (⟨.edge, 4, "A \x7b sub: -> B \x7d"⟩ : Line) ∈ linesOf hiddenArrowText := by
        decide +kernel
      obtain ⟨-, -, hreadSeen⟩ := connections_lost_iff_arrows_hidden
        "A -> B \x7b color: -> \x7d".toList (by decide)
      obtain ⟨-, -, hreadLost⟩ := connections_lost_iff_arrows_hidden
        "A \x7b sub: -> B \x7d".toList (by decide)
      refine ⟨document, rfl, ?_, ?_⟩
      · rw [hreadSeen _ _ hparse _ hseen rfl, hidesArrows_iff (by decide)]
        decide
      · rw [hreadLost _ _ hparse _ hlost rfl, not_not, hidesArrows_iff (by decide)]
        decide
  · intro edges hedges
    obtain ⟨hlines, -⟩ := connections_lost_iff_arrows_hidden "A -> B -> C".toList (by decide)
    rw [(hlines 1 edges hedges).1]
    decide +kernel

end FlowCanvas.Diagram
