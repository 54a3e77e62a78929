import Mathlib.Data.List.Induction
import FlowCanvas.Proofs.Diagram.Lines

namespace FlowCanvas.Diagram

/-- Lines that make up a document: none is unknown, headers come before nodes and nodes before
connections, each line is accepted by itself, and no id is declared twice. -/
structure Readable (lines : List Line) : Prop where
  recognised : ∀ line ∈ lines, line.kind ≠ .unknown
  headersFirst : lines.Pairwise fun earlier later => later.kind = .header → ¬ earlier.IsBody
  nodesFirst : lines.Pairwise fun earlier later => later.kind = .node → earlier.kind ≠ .edge
  accepted : ∀ line ∈ lines, line.IsAccepted
  distinct : ((lines.filterMap Line.node?).map (·.id)).Nodup

/-- What is wrong with a line, given the lines before it. A place that is wrong comes before
anything else that may be wrong with the line. -/
inductive Offends (before : List Line) (line : Line) : Error → Prop where
  | unrecognised (hkind : line.kind = .unknown) :
      Offends before line (.malformed .unrecognised line.number line.text)
  | lateHeader (hkind : line.kind = .header) (hlate : ∃ l ∈ before, l.IsBody) :
      Offends before line (.malformed .lateHeader line.number line.text)
  | header (hkind : line.kind = .header) (hplace : ∀ l ∈ before, ¬ l.IsBody) (fault : Fault)
      (hread : readHeader line.text.toList {} = .error fault) :
      Offends before line (.malformed fault line.number line.text)
  | misplacedNode (hkind : line.kind = .node) (hlate : ∃ l ∈ before, l.kind = .edge) :
      Offends before line (.misplacedNode line.number line.text)
  | node (hkind : line.kind = .node) (hplace : ∀ l ∈ before, l.kind ≠ .edge) (fault : Fault)
      (hread : readNode line.number line.text.toList = .error fault) :
      Offends before line (.malformed fault line.number line.text)
  | repeatedId (hkind : line.kind = .node) (hplace : ∀ l ∈ before, l.kind ≠ .edge)
      (node : NodeDecl) (hread : readNode line.number line.text.toList = .ok node)
      (first : Line) (hfirst : first ∈ before) (declared : NodeDecl)
      (hdeclared : first.node? = some declared) (hid : declared.id = node.id) :
      Offends before line (.repeatedId node.id line.number first.number)
  | edge (hkind : line.kind = .edge) (fault : Fault)
      (hread : readEdges line.number line.text.toList = .error fault) :
      Offends before line (.malformed fault line.number line.text)

def declared (lines : List Line) : Document :=
  let header := lines.foldl (fun header line => line.header header) {}
  { direction := header.direction
    title := header.title
    nodes := lines.filterMap Line.node?
    edges := lines.flatMap Line.edges }

/-- A draft is what lines make of it. -/
structure Draft.Reflects (draft : Draft) (lines : List Line) : Prop where
  header : draft.header = lines.foldl (fun header line => line.header header) {}
  nodes : draft.nodes = lines.filterMap Line.node?
  edges : draft.edges = lines.flatMap Line.edges
  phaseHeaders : draft.phase = .headers ↔ ∀ l ∈ lines, ¬ l.IsBody
  phaseEdges : draft.phase = .edges ↔ ∃ l ∈ lines, l.kind = .edge

theorem Draft.Reflects.document {draft : Draft} {lines : List Line} (h : draft.Reflects lines) :
    draft.document = declared lines := by
  rw [Draft.document, declared, h.header, h.nodes, h.edges]

theorem Draft.reflects_nil : ({} : Draft).Reflects [] := by
  constructor <;> simp

theorem Draft.Reflects.concat {draft draft' : Draft} {lines : List Line} {line : Line}
    (h : draft.Reflects lines) (hheader : draft'.header = line.header draft.header)
    (hnodes : draft'.nodes = draft.nodes ++ line.node?.toList)
    (hedges : draft'.edges = draft.edges ++ line.edges)
    (hphaseHeaders : draft'.phase = .headers ↔ draft.phase = .headers ∧ ¬ line.IsBody)
    (hphaseEdges : draft'.phase = .edges ↔ draft.phase = .edges ∨ line.kind = .edge) :
    draft'.Reflects (lines ++ [line]) := by
  constructor
  · rw [List.foldl_concat, ← h.header, hheader]
  · rw [hnodes, h.nodes, List.filterMap_append]
    cases hnode : line.node? <;> simp [hnode]
  · rw [hedges, h.edges, List.flatMap_append, List.flatMap_singleton]
  · rw [hphaseHeaders, h.phaseHeaders]
    simp [or_imp, forall_and]
  · rw [hphaseEdges, h.phaseEdges]
    simp [or_and_right, exists_or]

/-- Adding a line to a draft is adding it to the lines that the draft reflects. -/
theorem Draft.Reflects.add {draft draft' : Draft} {lines : List Line} {line : Line}
    (h : draft.Reflects lines) (hadd : draft.add line = .ok draft') :
    draft'.Reflects (lines ++ [line]) := by
  obtain ⟨hkind, rfl⟩ | ⟨hkind, hphase, header, hread, rfl⟩ |
    ⟨hkind, hphase, node, hread, -, rfl⟩ | ⟨hkind, edges, hread, rfl⟩ := Draft.add_cases hadd
  · -- A blank line and a comment declare nothing.
    have hheader : line.kind ≠ .header := by rcases hkind with hk | hk <;> simp [hk]
    have hnode : line.kind ≠ .node := by rcases hkind with hk | hk <;> simp [hk]
    have hedge : line.kind ≠ .edge := by rcases hkind with hk | hk <;> simp [hk]
    apply h.concat
    · rw [Line.header_of_ne hheader]
    · simp [Line.node?_of_ne hnode]
    · simp [Line.edges_of_ne hedge]
    · simp [Line.IsBody, hnode, hedge]
    · simp [hedge]
  · apply h.concat
    · rw [Line.header_of_read hkind hread]
    · simp [Line.node?, hkind]
    · simp [Line.edges, hkind]
    · simp [Line.IsBody, hkind]
    · simp [hkind]
  · have hnode : line.node? = some node := Line.node?_eq_some_iff.2 ⟨hkind, hread⟩
    apply h.concat
    · rw [Line.header_of_ne (by simp [hkind])]
    · simp [hnode]
    · simp [Line.edges, hkind]
    · simp [Line.IsBody, hkind]
    · simp [hkind, hphase]
  · apply h.concat
    · rw [Line.header_of_ne (by simp [hkind])]
    · simp [Line.node?, hkind]
    · rw [Line.edges_of_read hkind hread]
    · simp [Line.IsBody, hkind]
    · simp [hkind]

section Refusal
variable {draft : Draft} {lines : List Line} {line : Line}

/-- A draft refuses a line for what is wrong with it after the lines before. -/
theorem Draft.Reflects.offends_of_add (h : draft.Reflects lines) {error : Error}
    (hadd : draft.add line = .error error) : Offends lines line error := by
  -- One kind of line after the other; the checks of a kind come in the order in which they are
  -- made, so that each offence also says that the earlier ones are not there.
  unfold Draft.add at hadd
  split at hadd
  · cases hadd
  · cases hadd
  · next hkind =>
    split at hadd
    · next hphase =>
      cases hadd
      refine .lateHeader hkind ?_
      rw [Ne, h.phaseHeaders] at hphase
      simpa using hphase
    · next hphase =>
      cases hread : readHeader line.text.toList draft.header with
      | ok header => simp [Line.check, hread, Except.mapError, Except.map] at hadd
      | error fault =>
        simp only [Line.check, hread, Except.mapError, Except.map, Except.error.injEq] at hadd
        subst hadd
        exact .header hkind (h.phaseHeaders.1 (by simpa using hphase)) fault
          ((readHeader_eq_error_iff _ _).1 hread)
  · next hkind =>
    split at hadd
    · next hphase =>
      cases hadd
      exact .misplacedNode hkind (h.phaseEdges.1 hphase)
    · next hphase =>
      have hplace : ∀ l ∈ lines, l.kind ≠ .edge := by
        rw [h.phaseEdges] at hphase
        simpa using hphase
      cases hread : readNode line.number line.text.toList with
      | error fault =>
        simp only [Line.check, hread, Except.mapError, bind, Except.bind, Except.error.injEq]
          at hadd
        subst hadd
        exact .node hkind hplace fault hread
      | ok node =>
        simp only [Line.check, hread, Except.mapError, bind, Except.bind] at hadd
        split at hadd
        · next declared hfound =>
          cases hadd
          -- The draft keeps the declaration with the same id; it goes back to a line before.
          have hid : declared.id = node.id := by simpa using List.find?_some hfound
          have hmem := List.mem_of_find?_eq_some hfound
          rw [h.nodes] at hmem
          obtain ⟨first, hfirst, hdeclared⟩ := List.mem_filterMap.1 hmem
          obtain ⟨hline, -⟩ := readNode_ok (Line.node?_eq_some_iff.1 hdeclared).2
          rw [hline]
          exact .repeatedId hkind hplace node hread first hfirst declared hdeclared hid
        · cases hadd
  · next hkind =>
    cases hread : readEdges line.number line.text.toList with
    | ok edges =>
      simp [Line.check, hread, Except.mapError, bind, Except.bind, pure, Except.pure] at hadd
    | error fault =>
      simp only [Line.check, hread, Except.mapError, bind, Except.bind, Except.error.injEq] at hadd
      subst hadd
      exact .edge hkind fault hread
  · next hkind =>
    cases hadd
    exact .unrecognised hkind

theorem Draft.Reflects.add_of_offends (h : draft.Reflects lines)
    (hdistinct : ((lines.filterMap Line.node?).map (·.id)).Nodup) {error : Error}
    (hoffends : Offends lines line error) : draft.add line = .error error := by
  cases hoffends with
  | unrecognised hkind => simp [Draft.add, hkind]
  | lateHeader hkind hlate =>
    have hphase : draft.phase ≠ .headers := by
      rw [Ne, h.phaseHeaders]
      simpa using hlate
    simp [Draft.add, hkind, hphase]
  | header hkind hplace fault hread =>
    have hphase := h.phaseHeaders.2 hplace
    have hread' := (readHeader_eq_error_iff {} draft.header).1 hread
    simp [Draft.add, hkind, hphase, Line.check, hread', Except.mapError, Except.map]
  | misplacedNode hkind hlate =>
    have hphase := h.phaseEdges.2 hlate
    simp [Draft.add, hkind, hphase]
  | node hkind hplace fault hread =>
    have hphase : draft.phase ≠ .edges := by
      rw [Ne, h.phaseEdges]
      simpa using hplace
    simp [Draft.add, hkind, hphase, Line.check, hread, Except.mapError, bind, Except.bind]
  | repeatedId hkind hplace node hread first hfirst declared hdeclared hid =>
    have hphase : draft.phase ≠ .edges := by
      rw [Ne, h.phaseEdges]
      simpa using hplace
    obtain ⟨hline, -⟩ := readNode_ok (Line.node?_eq_some_iff.1 hdeclared).2
    -- Ids are distinct, so the first node with the id is the one that the first line declares.
    have hfound : draft.nodes.find? (·.id = node.id) = some declared := by
      rw [h.nodes]
      have hmem := List.mem_filterMap.2 ⟨first, hfirst, hdeclared⟩
      cases hfind : (lines.filterMap Line.node?).find? (·.id = node.id) with
      | none => exact absurd hid (by simpa using List.find?_eq_none.1 hfind declared hmem)
      | some other =>
        have hother : other.id = node.id := by simpa using List.find?_some hfind
        have hsame := List.inj_on_of_nodup_map hdistinct (List.mem_of_find?_eq_some hfind) hmem
        rw [hsame (hother.trans hid.symm)]
    simp [Draft.add, hkind, hphase, Line.check, hread, Except.mapError, bind, Except.bind, hfound,
      hline]
  | edge hkind fault hread =>
    simp [Draft.add, hkind, Line.check, hread, Except.mapError, bind, Except.bind]

end Refusal

section Readable
variable {lines : List Line} {line : Line}

theorem Readable.not_offends (h : Readable (lines ++ [line])) {error : Error} :
    ¬ Offends lines line error := by
  have hheaders := (List.pairwise_append.1 h.headersFirst).2.2
  have hnodes := (List.pairwise_append.1 h.nodesFirst).2.2
  have hline : line ∈ lines ++ [line] := List.mem_append_right _ List.mem_cons_self
  have haccepted := h.accepted line hline
  rintro (hkind | ⟨hkind, l, hl, hbody⟩ | ⟨hkind, -, fault, hread⟩ | ⟨hkind, l, hl, hedge⟩ |
    ⟨hkind, -, fault, hread⟩ | ⟨hkind, -, node, hread, first, hfirst, declared, hdeclared, hid⟩ |
    ⟨hkind, fault, hread⟩)
  · exact h.recognised line hline hkind
  · exact hheaders l hl line List.mem_cons_self hkind hbody
  · simp [Line.IsAccepted, hkind, hread] at haccepted
  · exact hnodes l hl line List.mem_cons_self hkind hedge
  · simp [Line.IsAccepted, hkind, hread] at haccepted
  · have hnode : line.node? = some node := Line.node?_eq_some_iff.2 ⟨hkind, hread⟩
    have hdistinct := h.distinct
    rw [List.filterMap_append, List.map_append, List.nodup_append] at hdistinct
    have hfirstId : declared.id ∈ (lines.filterMap Line.node?).map (·.id) :=
      List.mem_map_of_mem (List.mem_filterMap.2 ⟨first, hfirst, hdeclared⟩)
    exact hdistinct.2.2 _ hfirstId node.id (by simp [hnode]) hid
  · simp [Line.IsAccepted, hkind, hread] at haccepted

theorem Readable.of_append {after : List Line} (h : Readable (lines ++ after)) :
    Readable lines := by
  constructor
  · exact fun l hl => h.recognised l (List.mem_append_left _ hl)
  · exact (List.pairwise_append.1 h.headersFirst).1
  · exact (List.pairwise_append.1 h.nodesFirst).1
  · exact fun l hl => h.accepted l (List.mem_append_left _ hl)
  · have hdistinct := h.distinct
    rw [List.filterMap_append, List.map_append] at hdistinct
    exact (List.nodup_append.1 hdistinct).1

section Fitting
variable (hfits : ∀ error, ¬ Offends lines line error)
include hfits

theorem not_isBody_of_fits (hkind : line.kind = .header) : ∀ l ∈ lines, ¬ l.IsBody := by
  intro l hl hbody
  exact hfits _ (.lateHeader hkind ⟨l, hl, hbody⟩)

theorem kind_ne_edge_of_fits (hkind : line.kind = .node) : ∀ l ∈ lines, l.kind ≠ .edge := by
  intro l hl hedge
  exact hfits _ (.misplacedNode hkind ⟨l, hl, hedge⟩)

theorem isAccepted_of_fits : line.IsAccepted := by
  rw [Line.IsAccepted]
  split
  · next hkind =>
    cases hread : readHeader line.text.toList {} with
    | ok header => exact ⟨header, rfl⟩
    | error fault =>
      exact absurd (.header hkind (not_isBody_of_fits hfits hkind) fault hread) (hfits _)
  · next hkind =>
    cases hread : readNode line.number line.text.toList with
    | ok node => exact ⟨node, rfl⟩
    | error fault =>
      exact absurd (.node hkind (kind_ne_edge_of_fits hfits hkind) fault hread) (hfits _)
  · next hkind =>
    cases hread : readEdges line.number line.text.toList with
    | ok edges => exact ⟨edges, rfl⟩
    | error fault => exact absurd (.edge hkind fault hread) (hfits _)
  all_goals trivial

end Fitting

theorem Readable.concat (h : Readable lines) (hfits : ∀ error, ¬ Offends lines line error) :
    Readable (lines ++ [line]) := by
  constructor
  · intro l hl
    rcases List.mem_append.1 hl with hl | hl
    · exact h.recognised l hl
    · rw [List.mem_singleton.1 hl]
      exact fun hkind => hfits _ (.unrecognised hkind)
  · refine List.pairwise_append.2 ⟨h.headersFirst, List.pairwise_singleton _ _, ?_⟩
    intro l hl later hlater hkind
    rw [List.mem_singleton.1 hlater] at hkind
    exact not_isBody_of_fits hfits hkind l hl
  · refine List.pairwise_append.2 ⟨h.nodesFirst, List.pairwise_singleton _ _, ?_⟩
    intro l hl later hlater hkind
    rw [List.mem_singleton.1 hlater] at hkind
    exact kind_ne_edge_of_fits hfits hkind l hl
  · intro l hl
    rcases List.mem_append.1 hl with hl | hl
    · exact h.accepted l hl
    · rw [List.mem_singleton.1 hl]
      exact isAccepted_of_fits hfits
  · rw [List.filterMap_append, List.map_append, List.nodup_append]
    refine ⟨h.distinct, ?_, ?_⟩
    · cases hdeclared : line.node? <;> simp [hdeclared]
    · -- A second node with the id would have been refused for it.
      intro id hid other hother heq
      obtain ⟨declared, hmem, rfl⟩ := List.mem_map.1 hid
      obtain ⟨first, hfirst, hdeclared⟩ := List.mem_filterMap.1 hmem
      obtain ⟨node, hnodeMem, rfl⟩ := List.mem_map.1 hother
      obtain ⟨hkind, hread⟩ := Line.node?_eq_some_iff.1
        (show line.node? = some node by simpa using hnodeMem)
      exact hfits _ (.repeatedId hkind (kind_ne_edge_of_fits hfits hkind) node hread first hfirst
        declared hdeclared heq)

end Readable

section Reading
variable {lines : List Line}

theorem foldlM_concat (lines : List Line) (line : Line) (draft : Draft) :
    (lines ++ [line]).foldlM Draft.add draft =
      (lines.foldlM Draft.add draft).bind (Draft.add · line) := by
  rw [List.foldlM_append]
  cases lines.foldlM Draft.add draft with
  | error error => rfl
  | ok next =>
    cases hadd : next.add line <;> simp [hadd, bind, Except.bind, pure, Except.pure]

theorem readable_of_foldlM {draft : Draft} (h : lines.foldlM Draft.add {} = .ok draft) :
    Readable lines ∧ draft.Reflects lines := by
  -- Lines are added at the end, so the induction takes them off there.
  induction lines using List.reverseRecOn generalizing draft with
  | nil =>
    cases h
    exact ⟨by constructor <;> simp, Draft.reflects_nil⟩
  | append_singleton lines line ih =>
    rw [foldlM_concat] at h
    cases hlines : lines.foldlM Draft.add {} with
    | error error => simp [hlines, Except.bind] at h
    | ok before =>
      have hadd : before.add line = .ok draft := by simpa [hlines, Except.bind] using h
      obtain ⟨hreadable, hreflects⟩ := ih hlines
      refine ⟨hreadable.concat fun error hoffends => ?_, hreflects.add hadd⟩
      cases hadd.symm.trans (hreflects.add_of_offends hreadable.distinct hoffends)

/-- Readable lines are read. -/
theorem exists_foldlM_of_readable (h : Readable lines) :
    ∃ draft, lines.foldlM Draft.add {} = .ok draft := by
  induction lines using List.reverseRecOn with
  | nil => exact ⟨{}, rfl⟩
  | append_singleton lines line ih =>
    obtain ⟨before, hlines⟩ := ih h.of_append
    obtain ⟨-, hreflects⟩ := readable_of_foldlM hlines
    rw [foldlM_concat, hlines]
    cases hadd : before.add line with
    | ok draft => exact ⟨draft, hadd⟩
    | error error => exact absurd (hreflects.offends_of_add hadd) h.not_offends

/-- Lines are refused for what is wrong with the first line that is not in order, whatever comes
after it. -/
theorem foldlM_eq_error_iff {error : Error} :
    lines.foldlM Draft.add {} = .error error ↔
      ∃ before line after, lines = before ++ line :: after ∧ Readable before ∧
        Offends before line error := by
  constructor
  · intro h
    induction lines using List.reverseRecOn with
    | nil => cases h
    | append_singleton lines line ih =>
      rw [foldlM_concat] at h
      cases hlines : lines.foldlM Draft.add {} with
      -- The error comes from the lines before, and what follows does not change it.
      | error earlier =>
        obtain rfl : earlier = error := by simpa [hlines, Except.bind] using h
        obtain ⟨before, first, after, rfl, hreadable, hoffends⟩ := ih hlines
        exact ⟨before, first, after ++ [line], by simp, hreadable, hoffends⟩
      | ok draft =>
        have hadd : draft.add line = .error error := by simpa [hlines, Except.bind] using h
        obtain ⟨hreadable, hreflects⟩ := readable_of_foldlM hlines
        exact ⟨lines, line, [], rfl, hreadable, hreflects.offends_of_add hadd⟩
  · rintro ⟨before, line, after, rfl, hreadable, hoffends⟩
    obtain ⟨draft, hbefore⟩ := exists_foldlM_of_readable hreadable
    obtain ⟨-, hreflects⟩ := readable_of_foldlM hbefore
    have hadd := hreflects.add_of_offends hreadable.distinct hoffends
    rw [List.foldlM_append, hbefore]
    simp [List.foldlM_cons, hadd, bind, Except.bind]

/-- A text is read just if its lines are readable, and then as what they declare. -/
theorem parse_eq_ok_iff {text : String} {document : Document} :
    parse text = .ok document ↔
      Readable (linesOf text) ∧ document = declared (linesOf text) := by
  unfold parse
  constructor
  · intro h
    cases hlines : (linesOf text).foldlM Draft.add {} with
    | error error => simp [hlines, Except.map] at h
    | ok draft =>
      obtain ⟨hreadable, hreflects⟩ := readable_of_foldlM hlines
      refine ⟨hreadable, ?_⟩
      rw [← hreflects.document]
      simpa [hlines, Except.map, eq_comm] using h
  · rintro ⟨hreadable, rfl⟩
    obtain ⟨draft, hlines⟩ := exists_foldlM_of_readable hreadable
    obtain ⟨-, hreflects⟩ := readable_of_foldlM hlines
    rw [hlines, ← hreflects.document]
    rfl

theorem parse_eq_error_iff {text : String} {error : Error} :
    parse text = .error error ↔
      ∃ before line after, linesOf text = before ++ line :: after ∧ Readable before ∧
        Offends before line error := by
  rw [← foldlM_eq_error_iff, parse]
  cases (linesOf text).foldlM Draft.add {} <;> simp [Except.map]

end Reading

theorem Offends.line_eq {before : List Line} {line : Line} {error : Error}
    (h : Offends before line error) : error.line = line.number := by
  cases h <;> rfl

/-- A text is read just if its lines are readable. Otherwise the error says what is wrong with the
first line that is not in order, whatever comes after it, and gives the number of that line, counted
from one; and no node line is refused for want of a kind. -/
theorem parse_decided_by_first_offence (text : String) :
    ((∃ document, parse text = .ok document) ↔ Readable (linesOf text)) ∧
    (∀ error, parse text = .error error ↔
      ∃ before line after, linesOf text = before ++ line :: after ∧ Readable before ∧
        Offends before line error ∧ error.line = before.length + 1) ∧
    (∀ line ∈ linesOf text, line.kind = .node →
      readNode line.number line.text.toList ≠ .error .noKind) := by
  refine ⟨?_, ?_, ?_⟩
  · simp [parse_eq_ok_iff]
  · intro error
    rw [parse_eq_error_iff]
    constructor
    · rintro ⟨before, line, after, hsplit, hreadable, hoffends⟩
      refine ⟨before, line, after, hsplit, hreadable, hoffends, ?_⟩
      rw [hoffends.line_eq, number_eq_of_split hsplit]
    · rintro ⟨before, line, after, hsplit, hreadable, hoffends, -⟩
      exact ⟨before, line, after, hsplit, hreadable, hoffends⟩
  · intro line hline hkind
    exact readNode_ne_noKind ((kind_eq_classify hline).symm.trans hkind)

def lateNodeText : String :=
  "flow\n# nodes\n[start] a\na -> b\n[end] a: \x7b style: wavy \x7d\n?"

theorem late_node_decided :
    parse lateNodeText = .error (.misplacedNode 5 "[end] a: \x7b style: wavy \x7d") ∧
      ¬ Readable (linesOf lateNodeText) ∧
      (∃ before line after, linesOf lateNodeText = before ++ line :: after ∧ Readable before ∧
        before.length = 4) ∧
      readNode 3 "[start] a".toList ≠ .error .noKind := by
  obtain ⟨hreadable, herror, hkind⟩ := parse_decided_by_first_offence lateNodeText
  have hparse : parse lateNodeText =
      .error (.misplacedNode 5 "[end] a: \x7b style: wavy \x7d") := by
    have hmap : (parse lateNodeText).map (fun _ => ()) =
        .error (.misplacedNode 5 "[end] a: \x7b style: wavy \x7d") := by decide +kernel
    cases h : parse lateNodeText with
    | ok document => simp [h, Except.map] at hmap
    | error error => simpa [h, Except.map] using hmap
  refine ⟨hparse, ?_, ?_, ?_⟩
  · intro h
    obtain ⟨document, hok⟩ := hreadable.2 h
    rw [hparse] at hok
    cases hok
  · obtain ⟨before, line, after, hsplit, hbefore, -, hnumber⟩ := (herror _).1 hparse
    exact ⟨before, line, after, hsplit, hbefore, by simpa [Error.line] using hnumber.symm⟩
  · have hline : (⟨.node, 3, "[start] a"⟩ : Line) ∈ linesOf lateNodeText := by decide +kernel
    exact hkind _ hline rfl

end FlowCanvas.Diagram
