import FlowCanvas.Proofs.Diagram.Acceptance
import FlowCanvas.Proofs.Diagram.Connections

namespace FlowCanvas
open Text

/-- A text that may stand for something in a diagram: not empty and well spaced. -/
structure IsTidy (s : String) : Prop where
  nonempty : s ≠ ""
  spaced : IsSpaced s.toList

/-- An endpoint of a connection is a tidy text that is not taken for an arrow, a label or a
declaration. -/
structure IsEndpoint (s : String) : Prop where
  tidy : IsTidy s
  noArrow : ¬ Diagram.arrow <:+: s.toList
  noBar : '|' ∉ s.toList
  noBracket : s.toList.head? ≠ some '['

structure NodeDecl.IsNormal (d : NodeDecl) : Prop where
  kind : d.kind.name ∈ ["start", "end", "process", "decision", "system", "note", "section",
    "browser", "mobile", "button", "input", "icon", "image"]
  label : IsTidy d.label
  subLabel : ∀ s, d.subLabel = some s → IsTidy s

structure EdgeDecl.IsNormal (d : EdgeDecl) : Prop where
  source : IsEndpoint d.source
  target : IsEndpoint d.target
  label : ∀ s, d.label = some s → IsTidy s
  style : ∀ s, d.style = some s → s.name ∈ ["straight", "curved", "dashed"]

structure Document.IsNormal (d : Document) : Prop where
  direction : d.direction.name ∈ ["TB", "LR", "BT", "RL"]
  distinct : d.ids.Nodup
  nodeLines : (d.nodes.map (·.line)).Pairwise (· < ·)
  edgeLines : (d.edges.map (·.line)).Pairwise (· ≤ ·)
  nodesFirst : ∀ n ∈ d.nodes, ∀ e ∈ d.edges, n.line < e.line
  nodes : ∀ n ∈ d.nodes, n.IsNormal
  edges : ∀ e ∈ d.edges, e.IsNormal

namespace Diagram

theorem isTidy_clean {cs : List Char} (h : Label.clean cs ≠ []) :
    IsTidy (String.ofList (Label.clean cs)) := by
  refine ⟨by rwa [Ne, String.ofList_eq_empty_iff], ?_⟩
  rw [String.toList_ofList]
  exact Label.isSpaced_clean cs

section Attributes

def AreSpaced (attributes : Attributes) : Prop :=
  ∀ key value, Table.get? key attributes = some value → IsSpaced value.toList

theorem AreSpaced.put {attributes : Attributes} (h : AreSpaced attributes) (key : String)
    {value : String} (hvalue : IsSpaced value.toList) :
    AreSpaced (Table.put key value attributes) := by
  intro other found hfound
  rw [Table.get?_put] at hfound
  split at hfound
  · rwa [← Option.some.inj hfound]
  · exact h other found hfound

theorem AreSpaced.addEntry {attributes : Attributes} (h : AreSpaced attributes)
    (entry : List Char) : AreSpaced (addEntry attributes entry) := by
  have hclean (cs : List Char) : IsSpaced (String.ofList (Label.clean cs)).toList := by
    rw [String.toList_ofList]
    exact Label.isSpaced_clean cs
  unfold Diagram.addEntry
  split
  · exact h.put _ (hclean _)
  · exact h.put _ (hclean _)
  · have hword : "true".toList.all (!isBlank ·) = true := by decide
    exact h.put _ (IsSpaced.of_word fun c hc => by simpa using List.all_eq_true.1 hword c hc)

theorem areSpaced_attributesOf (block : List Char) : AreSpaced (attributesOf block) := by
  have hempty : AreSpaced [] := fun _ _ h => by cases h
  unfold attributesOf
  generalize ([] : Attributes) = start at hempty
  induction (entriesOf block).map trim generalizing start with
  | nil => exact hempty
  | cons entry r ih => exact ih _ (hempty.addEntry entry)

theorem isTidy_of_filled? {block : List Char} {key value : String}
    (h : filled? (attributesOf block) key = some value) : IsTidy value := by
  obtain ⟨hget, hne⟩ := Option.filter_eq_some_iff.1 h
  exact ⟨by simpa [String.isEmpty_iff] using hne, areSpaced_attributesOf block key value hget⟩

end Attributes

section Declarations
variable {number : Nat} {cs : List Char}

theorem isNormal_of_readNode {node : NodeDecl} (h : readNode number cs = .ok node) :
    node.IsNormal := by
  unfold readNode at h
  split at h
  · cases h
  · simp only at h
    split at h
    · cases h
    · next hlabel =>
      cases h
      constructor
      · show (NodeKind.ofWord _).name ∈ _
        generalize NodeKind.ofWord _ = kind
        cases kind <;> decide
      · exact isTidy_clean (by simpa using hlabel)
      · intro s hs
        obtain ⟨key, -, hfilled⟩ := List.exists_of_findSome?_eq_some hs
        exact isTidy_of_filled? hfilled

theorem isEndpoint_of_read {segment : List Char} {name : String}
    (hsegment : ¬ arrow <:+: segment) (h : readEndpoint segment = .ok name) : IsEndpoint name := by
  obtain ⟨rfl, hne, hbracket, hbar⟩ := readEndpoint_eq_ok_iff.1 h
  refine ⟨isTidy_clean ?_, ?_, hbar, hbracket⟩
  · rwa [Ne, String.ofList_eq_empty_iff] at hne
  · rw [String.toList_ofList]
    exact fun harrow => hsegment (Label.pair_infix_of_clean (by decide) (by decide) harrow)

theorem isNormal_of_readEdges {edges : List EdgeDecl} (h : readEdges number cs = .ok edges) :
    ∀ e ∈ edges, e.line = number ∧ e.IsNormal := by
  obtain ⟨look, source, targets, hsource, htargets, rfl⟩ := readEdges_ok h
  obtain ⟨hfirst, hhops⟩ := not_arrow_infix_splitArrows (splitBlock cs).1
  have hendpoint : ∀ name ∈ targets.map (·.2), IsEndpoint name := by
    intro name hname
    obtain ⟨target, htarget, rfl⟩ := List.mem_map.1 hname
    obtain ⟨hop, hhop, hread⟩ := htargets target htarget
    exact isEndpoint_of_read (hhops hop hhop) hread
  intro e he
  obtain ⟨hline, -, hfrom, hto, hlabel⟩ := mem_connect he
  refine ⟨hline, ?_, hendpoint _ hto, ?_, ?_⟩
  · rcases hfrom with hfrom | hfrom
    · rw [hfrom]
      exact isEndpoint_of_read hfirst hsource
    · exact hendpoint _ hfrom
  · intro s hs
    obtain ⟨hne, labelText, rfl⟩ := hlabel s hs
    exact isTidy_clean (by rwa [Ne, String.ofList_eq_empty_iff] at hne)
  · intro s _
    cases s <;> decide

end Declarations

section Order
variable {lines : List Line}

theorem isNormal_of_node? {line : Line} {node : NodeDecl} (h : line.node? = some node) :
    node.line = line.number ∧ node.IsNormal := by
  obtain ⟨-, hread⟩ := Line.node?_eq_some_iff.1 h
  exact ⟨(readNode_ok hread).1, isNormal_of_readNode hread⟩

theorem isNormal_of_mem_edges {line : Line} {e : EdgeDecl} (h : e ∈ line.edges) :
    e.line = line.number ∧ e.IsNormal := by
  obtain ⟨-, edges, hread, he⟩ := Line.mem_edges h
  exact isNormal_of_readEdges hread e he

theorem Readable.number_lt (h : Readable lines)
    (hnumbers : (lines.map (·.number)).Pairwise (· < ·)) :
    ∀ l ∈ lines, ∀ m ∈ lines, l.kind = .node → m.kind = .edge → l.number < m.number := by
  intro l hl m hm hnode hedge
  obtain ⟨before, after, rfl⟩ := List.append_of_mem hm
  rcases List.mem_append.1 hl with hl | hl
  · rw [List.map_append, List.map_cons] at hnumbers
    exact (List.pairwise_append.1 hnumbers).2.2 _ (List.mem_map_of_mem hl) _ List.mem_cons_self
  · -- A node does not come after a connection.
    rcases List.mem_cons.1 hl with rfl | hl
    · cases hnode.symm.trans hedge
    · have hafter := (List.pairwise_append.1 h.nodesFirst).2.1
      exact absurd hedge ((List.pairwise_cons.1 hafter).1 l hl hnode)

end Order

/-- Readable lines declare a document in normal form. -/
theorem isNormal_declared {lines : List Line} (h : Readable lines)
    (hnumbers : (lines.map (·.number)).Pairwise (· < ·)) : (declared lines).IsNormal := by
  constructor
  · generalize (declared lines).direction = direction
    cases direction <;> decide
  · exact h.distinct
  · show ((lines.filterMap Line.node?).map (·.line)).Pairwise (· < ·)
    rw [List.pairwise_map, List.pairwise_filterMap]
    refine (List.pairwise_map.1 hnumbers).imp fun hlt n hn m hm => ?_
    rw [(isNormal_of_node? hn).1, (isNormal_of_node? hm).1]
    exact hlt
  · show ((lines.flatMap Line.edges).map (·.line)).Pairwise (· ≤ ·)
    rw [List.pairwise_map, List.pairwise_flatMap]
    constructor
    · -- All connections of one line have its number.
      intro line _
      refine List.pairwise_of_forall_mem_list fun e he f hf => ?_
      exact Nat.le_of_eq ((isNormal_of_mem_edges he).1.trans (isNormal_of_mem_edges hf).1.symm)
    · refine (List.pairwise_map.1 hnumbers).imp fun hlt e he f hf => ?_
      rw [(isNormal_of_mem_edges he).1, (isNormal_of_mem_edges hf).1]
      exact Nat.le_of_lt hlt
  · -- Nodes come first, so the line of each is before that of every connection.
    intro n hn e he
    obtain ⟨l, hl, hnode⟩ := List.mem_filterMap.1 hn
    obtain ⟨m, hm, hedge⟩ := List.mem_flatMap.1 he
    rw [(isNormal_of_node? hnode).1, (isNormal_of_mem_edges hedge).1]
    exact h.number_lt hnumbers l hl m hm (Line.node?_eq_some_iff.1 hnode).1
      (Line.mem_edges hedge).1
  · intro n hn
    obtain ⟨l, -, hnode⟩ := List.mem_filterMap.1 hn
    exact (isNormal_of_node? hnode).2
  · intro e he
    obtain ⟨m, -, hedge⟩ := List.mem_flatMap.1 he
    exact (isNormal_of_mem_edges hedge).2

theorem isNormal_of_parse {text : String} {document : Document}
    (h : parse text = .ok document) : document.IsNormal := by
  obtain ⟨hreadable, rfl⟩ := parse_eq_ok_iff.1 h
  exact isNormal_declared hreadable (numbers_increase text)

/-- Every document that is read is in normal form, and no node slips in through a connection: a text
is refused if one of its lines starts with a kind in square brackets and yet is classified as a
connection, as that line is by itself. -/
theorem parsed_document_is_normal (text : String) :
    (∀ document, parse text = .ok document → document.IsNormal) ∧
    (∀ line ∈ linesOf text, line.kind = .edge → startsWithKind line.text.toList = true →
      (∃ fault, readEdges line.number line.text.toList = .error fault) ∧
        ∃ error, parse text = .error error) := by
  constructor
  · intro document h
    obtain ⟨hreadable, rfl⟩ := parse_eq_ok_iff.1 h
    exact isNormal_declared hreadable (numbers_increase text)
  · intro line hline hkind hstarts
    have hhead : line.text.toList.head? = some '[' := by
      unfold startsWithKind at hstarts
      split at hstarts
      · next hcs => rw [hcs]; rfl
      · cases hstarts
    obtain ⟨fault, hfault⟩ := exists_readEdges_eq_error hhead line.number
    refine ⟨⟨fault, hfault⟩, ?_⟩
    cases hparse : parse text with
    | error error => exact ⟨error, rfl⟩
    | ok document =>
      -- A line that is refused by itself is not accepted among others.
      have haccepted := (parse_eq_ok_iff.1 hparse).1.accepted line hline
      simp [Line.IsAccepted, hkind, hfault] at haccepted

def quotedText : String :=
  "flow\n[start]  \"  a |  [b]\t-> c \" \x7b sub: ' x  y ' \x7d\n" ++
    "\n[End] z: ' '' '\n z ->| '' m | \"z\" -> z"

theorem quoted_document_is_normal :
    (∃ document, parse quotedText = .ok document ∧ document.IsNormal) ∧
      ∃ error, parse "[start] A -> [end] B" = .error error := by
  constructor
  · have hread : ∃ document, parse quotedText = .ok document := by
      cases hparse : parse quotedText with
      | ok document => exact ⟨document, rfl⟩
      | error error =>
        have hok : (parse quotedText).toOption.isSome = true := by decide +kernel
        simp [hparse, Except.toOption] at hok
    obtain ⟨document, hparse⟩ := hread
    exact ⟨document, hparse, (parsed_document_is_normal quotedText).1 document hparse⟩
  · have hline : (⟨.edge, 1, "[start] A -> [end] B"⟩ : Line) ∈ linesOf "[start] A -> [end] B" := by
      decide +kernel
    exact ((parsed_document_is_normal "[start] A -> [end] B").2 _ hline rfl (by decide)).2

end Diagram
end FlowCanvas
