import FlowCanvas.Proofs.Diagram.Acceptance
import FlowCanvas.Proofs.Diagram.Reference
import FlowCanvas.Proofs.Diagram.Written
import FlowCanvas.Proofs.Text.Lines

namespace FlowCanvas.Diagram
open Text

/-- A diagram to be written, with one line for each node and each connection. -/
structure Sheet where
  direction : Direction
  nodes : List NodeText
  edges : List EdgeText

namespace Sheet

def ids (s : Sheet) : List String :=
  s.nodes.map (·.id)

/-- What may be written: nodes with ids of their own, and connections between them. -/
structure IsCanonical (s : Sheet) : Prop where
  nodes : ∀ n ∈ s.nodes, n.IsCanonical
  distinct : s.ids.Nodup
  endpoints : ∀ e ∈ s.edges, e.source ∈ s.ids ∧ e.target ∈ s.ids
  labels : ∀ e ∈ s.edges, ∀ m, e.label = some m → IsPlain ['|'] m

instance (s : Sheet) : Decidable s.IsCanonical :=
  decidable_of_iff
    ((∀ n ∈ s.nodes, n.IsCanonical) ∧ s.ids.Nodup ∧
      (∀ e ∈ s.edges, e.source ∈ s.ids ∧ e.target ∈ s.ids) ∧
      ∀ e ∈ s.edges, ∀ m ∈ e.label, IsPlain ['|'] m)
    ⟨fun ⟨hn, hd, he, hl⟩ => ⟨hn, hd, he, hl⟩,
      fun h => ⟨h.nodes, h.distinct, h.endpoints, h.labels⟩⟩

def lines (s : Sheet) : List String :=
  "flow" :: ("direction " ++ s.direction.name) ::
    (s.nodes.map NodeText.line ++ s.edges.map EdgeText.line)

def text (s : Sheet) : String :=
  "\n".intercalate s.lines

def document (s : Sheet) : Document where
  direction := s.direction
  title := none
  nodes := s.nodes.mapIdx fun i n => n.decl (3 + i)
  edges := s.edges.mapIdx fun i e => e.decl (3 + s.nodes.length + i)

end Sheet

section Rows

theorem numberFrom_append (n : Nat) (us vs : List (List Char)) :
    numberFrom n (us ++ vs) = numberFrom n us ++ numberFrom (n + us.length) vs := by
  induction us generalizing n with
  | nil => rfl
  | cons u us ih =>
    rw [List.cons_append, numberFrom, ih, numberFrom, List.cons_append, List.length_cons,
      Nat.add_assoc, Nat.add_comm 1]

theorem numberFrom_rows {α : Type} {row : α → String} {kind : LineKind} {xs : List α}
    (h : ∀ x ∈ xs, IsRow (row x).toList ∧ classify (row x).toList = kind) (n : Nat) :
    numberFrom n ((xs.map row).map String.toList) =
      xs.mapIdx fun i x => ⟨kind, n + i, row x⟩ := by
  induction xs generalizing n with
  | nil => rfl
  | cons x xs ih =>
    obtain ⟨hrow, hkind⟩ := h x List.mem_cons_self
    have hrest := ih (fun y hy => h y (List.mem_cons_of_mem _ hy)) (n + 1)
    rw [List.map_cons, List.map_cons, numberFrom, hrow.of, hkind, hrest, List.mapIdx_cons]
    simp [Nat.add_assoc, Nat.add_comm 1]

theorem NodeText.IsCanonical.isRow {n : NodeText} (h : n.IsCanonical) : IsRow n.line.toList := by
  rw [n.toList_line]
  apply isRow_of_ends
  · have hkind : IsLine n.kind.name.toList := by
      generalize n.kind = kind
      cases kind <;> decide
    have hblock : IsLine n.block := isLine_optionalBlock (by decide) h.subLabel
    simp [isLine_append_iff, isLine_cons_iff, hkind, h.isSpaced_body.isLine, hblock]
  · intro c hc
    obtain rfl : '[' = c := Option.some.inj hc
    decide
  · have hne : n.body ++ n.block ≠ [] := List.append_ne_nil_of_left_ne_nil (keyed_ne_nil _ _) _
    have hlast : ('[' :: (n.kind.name.toList ++ ']' :: ' ' :: (n.body ++ n.block))).getLast? =
        (n.body ++ n.block).getLast? := by
      rw [List.getLast?_eq_some_getLast hne]
      simp [List.getLast?_cons, List.getLast?_eq_some_getLast hne]
    rw [hlast]
    exact getLast?_append_optionalBlock h.isSpaced_body.finish _ _

end Rows

section Parts
variable {headers nodes edges : List Line}

theorem filterMap_node?_parts (hheaders : ∀ l ∈ headers, l.kind = .header)
    (hedges : ∀ l ∈ edges, l.kind = .edge) :
    (headers ++ (nodes ++ edges)).filterMap Line.node? = nodes.filterMap Line.node? := by
  have hnoHeader : headers.filterMap Line.node? = [] :=
    List.filterMap_eq_nil_iff.2 fun l hl => Line.node?_of_ne (by simp [hheaders l hl])
  have hnoEdge : edges.filterMap Line.node? = [] :=
    List.filterMap_eq_nil_iff.2 fun l hl => Line.node?_of_ne (by simp [hedges l hl])
  rw [List.filterMap_append, List.filterMap_append, hnoHeader, hnoEdge, List.nil_append,
    List.append_nil]

theorem flatMap_edges_parts (hheaders : ∀ l ∈ headers, l.kind = .header)
    (hnodes : ∀ l ∈ nodes, l.kind = .node) :
    (headers ++ (nodes ++ edges)).flatMap Line.edges = edges.flatMap Line.edges := by
  have hnoHeader : headers.flatMap Line.edges = [] :=
    List.flatMap_eq_nil_iff.2 fun l hl => Line.edges_of_ne (by simp [hheaders l hl])
  have hnoNode : nodes.flatMap Line.edges = [] :=
    List.flatMap_eq_nil_iff.2 fun l hl => Line.edges_of_ne (by simp [hnodes l hl])
  rw [List.flatMap_append, List.flatMap_append, hnoHeader, hnoNode, List.nil_append,
    List.nil_append]

theorem foldl_header_body (hnodes : ∀ l ∈ nodes, l.kind = .node)
    (hedges : ∀ l ∈ edges, l.kind = .edge) (header : Header) :
    (nodes ++ edges).foldl (fun header line => line.header header) header = header := by
  apply List.foldlRecOn (motive := (· = header)) _ _ rfl
  rintro _ rfl l hl
  apply Line.header_of_ne
  rcases List.mem_append.1 hl with hl | hl
  · simp [hnodes l hl]
  · simp [hedges l hl]

/-- Headers, then nodes, then connections, all of them accepted and no id twice, can be read. -/
theorem readable_of_parts (hheaders : ∀ l ∈ headers, l.kind = .header)
    (hnodes : ∀ l ∈ nodes, l.kind = .node) (hedges : ∀ l ∈ edges, l.kind = .edge)
    (haccepted : ∀ l ∈ headers ++ (nodes ++ edges), l.IsAccepted)
    (hdistinct : ((nodes.filterMap Line.node?).map (·.id)).Nodup) :
    Readable (headers ++ (nodes ++ edges)) := by
  have hbody : ∀ l ∈ nodes ++ edges, l.kind ≠ .header := by
    intro l hl
    rcases List.mem_append.1 hl with hl | hl
    · simp [hnodes l hl]
    · simp [hedges l hl]
  constructor
  · intro l hl
    rcases List.mem_append.1 hl with hl | hl
    · simp [hheaders l hl]
    · rcases List.mem_append.1 hl with hl | hl
      · simp [hnodes l hl]
      · simp [hedges l hl]
  · -- A header has only headers before it.
    refine List.pairwise_append.2 ⟨?_, ?_, ?_⟩
    · exact List.pairwise_of_forall_mem_list fun l hl m hm _ => by simp [Line.IsBody, hheaders l hl]
    · exact List.pairwise_of_forall_mem_list fun l hl m hm h => absurd h (hbody m hm)
    · exact fun l hl m hm h => absurd h (hbody m hm)
  · -- Before a node there is no connection.
    refine List.pairwise_append.2 ⟨?_, ?_, ?_⟩
    · exact List.pairwise_of_forall_mem_list fun l hl m hm _ => by simp [hheaders l hl]
    · refine List.pairwise_append.2 ⟨?_, ?_, ?_⟩
      · exact List.pairwise_of_forall_mem_list fun l hl m hm _ => by simp [hnodes l hl]
      · exact List.pairwise_of_forall_mem_list fun l hl m hm h => by simp [hedges m hm] at h
      · exact fun l hl m hm h => by simp [hedges m hm] at h
    · exact fun l hl m hm _ => by simp [hheaders l hl]
  · exact haccepted
  · rw [filterMap_node?_parts hheaders hedges]
    exact hdistinct

end Parts

namespace Sheet
variable {s : Sheet}

def headerLines (s : Sheet) : List Line :=
  [⟨.header, 1, "flow"⟩, ⟨.header, 2, "direction " ++ s.direction.name⟩]

def nodeLines (s : Sheet) : List Line :=
  s.nodes.mapIdx fun i n => ⟨.node, 3 + i, n.line⟩

def edgeLines (s : Sheet) : List Line :=
  s.edges.mapIdx fun i e => ⟨.edge, 3 + s.nodes.length + i, e.line⟩

theorem IsCanonical.edges (h : s.IsCanonical) : ∀ e ∈ s.edges, e.IsCanonical := by
  have hid : ∀ name ∈ s.ids, isId name.toList = true := by
    intro name hname
    obtain ⟨n, hn, rfl⟩ := List.mem_map.1 hname
    exact (h.nodes n hn).id
  intro e he
  obtain ⟨hsource, htarget⟩ := h.endpoints e he
  exact ⟨hid _ hsource, hid _ htarget, h.labels e he⟩

theorem isRow_header (d : Direction) :
    IsRow "flow".toList ∧ IsRow ("direction " ++ d.name).toList := by
  refine ⟨⟨by decide, by decide, by decide⟩, ?_⟩
  cases d <;> exact ⟨by decide, by decide, by decide⟩

/-- The lines of a written diagram, as they are numbered and classified. -/
theorem linesOf_text (h : s.IsCanonical) :
    linesOf s.text = s.headerLines ++ (s.nodeLines ++ s.edgeLines) := by
  obtain ⟨hflow, hdirection⟩ := isRow_header s.direction
  have hrows : ∀ l ∈ s.lines, IsRow l.toList := by
    intro l hl
    simp only [lines, List.mem_cons, List.mem_append, List.mem_map] at hl
    rcases hl with rfl | rfl | ⟨n, hn, rfl⟩ | ⟨e, he, rfl⟩
    · exact hflow
    · exact hdirection
    · exact (h.nodes n hn).isRow
    · exact (h.edges e he).isRow
  have htidy : tidyLines s.text.toList = s.lines.map String.toList := by
    have hmark : dropMark s.text.toList = s.text.toList := by
      simp [text, lines, String.toList_intercalate, dropMark, byteOrderMark]
    have hsplit : Text.lines s.text.toList = s.lines.map String.toList := by
      rw [text, String.toList_intercalate]
      apply lines_intercalate (by simp [lines])
      intro l hl
      obtain ⟨row, hrow, rfl⟩ := List.mem_map.1 hl
      exact (hrows row hrow).isLine
    -- No line loses anything when the end of it is trimmed.
    rw [tidyLines, hmark, hsplit, List.map_map]
    exact List.map_congr_left fun l hl => (hrows l hl).tidy
  have hnodes : numberFrom 3 ((s.nodes.map NodeText.line).map String.toList) = s.nodeLines :=
    numberFrom_rows (fun n hn => ⟨(h.nodes n hn).isRow, NodeText.classify_line (h.nodes n hn)⟩) 3
  have hedges : numberFrom (3 + s.nodes.length) ((s.edges.map EdgeText.line).map String.toList) =
      s.edgeLines :=
    numberFrom_rows (fun e he => ⟨(h.edges e he).isRow, EdgeText.classify_line (h.edges e he)⟩)
      (3 + s.nodes.length)
  have hclassify : classify "flow".toList = .header ∧
      classify ("direction " ++ s.direction.name).toList = .header := by
    generalize s.direction = d
    refine ⟨by decide, ?_⟩
    cases d <;> decide
  rw [linesOf, htidy, lines, List.map_cons, List.map_cons, numberFrom, numberFrom, hflow.of,
    hdirection.of, hclassify.1, hclassify.2, List.map_append, numberFrom_append, hnodes,
    List.length_map, List.length_map, hedges]
  rfl

theorem node?_nodeLines (h : s.IsCanonical) :
    s.nodeLines.filterMap Line.node? = s.document.nodes := by
  show s.nodeLines.filterMap Line.node? = s.nodes.mapIdx fun i n => n.decl (3 + i)
  rw [nodeLines, List.mapIdx_eq_zipIdx_map, List.mapIdx_eq_zipIdx_map, List.filterMap_map,
    ← List.filterMap_eq_map]
  apply List.filterMap_congr
  rintro ⟨n, i⟩ hn
  have hread := NodeText.readNode_line (h.nodes n (List.fst_mem_of_mem_zipIdx hn)) (3 + i)
  exact Line.node?_eq_some_iff.2 ⟨rfl, hread⟩

theorem edges_edgeLines (h : s.IsCanonical) :
    s.edgeLines.flatMap Line.edges = s.document.edges := by
  show s.edgeLines.flatMap Line.edges = s.edges.mapIdx fun i e => e.decl (3 + s.nodes.length + i)
  rw [edgeLines, List.mapIdx_eq_zipIdx_map, List.mapIdx_eq_zipIdx_map, List.flatMap_map,
    List.map_eq_flatMap]
  apply List.flatMap_congr
  rintro ⟨e, i⟩ he
  have hread := EdgeText.readEdges_line (h.edges e (List.fst_mem_of_mem_zipIdx he))
    (3 + s.nodes.length + i)
  exact Line.edges_of_read rfl hread

theorem kind_lines (s : Sheet) :
    (∀ l ∈ s.headerLines, l.kind = .header) ∧ (∀ l ∈ s.nodeLines, l.kind = .node) ∧
      ∀ l ∈ s.edgeLines, l.kind = .edge := by
  refine ⟨?_, ?_, ?_⟩
  · simp [headerLines]
  · intro l hl
    obtain ⟨i, hi, rfl⟩ := List.mem_mapIdx.1 hl
    rfl
  · intro l hl
    obtain ⟨i, hi, rfl⟩ := List.mem_mapIdx.1 hl
    rfl

theorem readHeader_lines (d : Direction) (header : Header) :
    readHeader "flow".toList header = .ok header ∧
      readHeader ("direction " ++ d.name).toList header = .ok { header with direction := d } := by
  refine ⟨rfl, ?_⟩
  cases d <;> rfl

theorem isAccepted_lines (h : s.IsCanonical) :
    ∀ l ∈ s.headerLines ++ (s.nodeLines ++ s.edgeLines), l.IsAccepted := by
  intro l hl
  rcases List.mem_append.1 hl with hl | hl
  · obtain ⟨hflow, hdirection⟩ := readHeader_lines s.direction {}
    simp only [headerLines, List.mem_cons, List.not_mem_nil, or_false] at hl
    rcases hl with rfl | rfl
    · exact ⟨_, hflow⟩
    · exact ⟨_, hdirection⟩
  · rcases List.mem_append.1 hl with hl | hl
    · obtain ⟨i, hi, rfl⟩ := List.mem_mapIdx.1 hl
      exact ⟨_, NodeText.readNode_line (h.nodes _ (List.getElem_mem hi)) _⟩
    · obtain ⟨i, hi, rfl⟩ := List.mem_mapIdx.1 hl
      exact ⟨_, EdgeText.readEdges_line (h.edges _ (List.getElem_mem hi)) _⟩

theorem ids_document (s : Sheet) : s.document.ids = s.ids := by
  show (s.nodes.mapIdx fun i n => n.decl (3 + i)).map (·.id) = s.nodes.map (·.id)
  rw [List.mapIdx_eq_zipIdx_map, List.map_map]
  have hfst : s.nodes.zipIdx.map (·.1) = s.nodes := List.zipIdx_map_fst 0 s.nodes
  rw [← hfst, List.map_map, hfst]
  rfl

theorem readable_text (h : s.IsCanonical) : Readable (linesOf s.text) := by
  obtain ⟨hheaders, hnodes, hedges⟩ := s.kind_lines
  rw [linesOf_text h]
  apply readable_of_parts hheaders hnodes hedges (isAccepted_lines h)
  rw [node?_nodeLines h, ← Document.ids, s.ids_document]
  exact h.distinct

theorem declared_text (h : s.IsCanonical) : declared (linesOf s.text) = s.document := by
  obtain ⟨hheaders, hnodes, hedges⟩ := s.kind_lines
  have hheader : (linesOf s.text).foldl (fun header line => line.header header) {} =
      ({ direction := s.direction } : Header) := by
    obtain ⟨hflow, hdirection⟩ := readHeader_lines s.direction {}
    have hfirst : Line.header ⟨.header, 1, "flow"⟩ {} = {} := Line.header_of_read rfl hflow
    have hsecond : Line.header ⟨.header, 2, "direction " ++ s.direction.name⟩ {} =
        { direction := s.direction } := Line.header_of_read rfl hdirection
    rw [linesOf_text h, List.foldl_append, foldl_header_body hnodes hedges, headerLines,
      List.foldl_cons, hfirst, List.foldl_cons, hsecond, List.foldl_nil]
  have hnode : (linesOf s.text).filterMap Line.node? = s.document.nodes := by
    rw [linesOf_text h, filterMap_node?_parts hheaders hedges, node?_nodeLines h]
  have hedge : (linesOf s.text).flatMap Line.edges = s.document.edges := by
    rw [linesOf_text h, flatMap_edges_parts hheaders hnodes, edges_edgeLines h]
  rw [declared, hheader, hnode, hedge]
  rfl

theorem isSound_edges (h : s.IsCanonical) :
    ∀ e ∈ s.document.edges, s.document.isSound e = true := by
  intro e he
  obtain ⟨i, hi, rfl⟩ := List.mem_mapIdx.1 he
  rw [Document.isSound_iff, s.ids_document]
  exact h.endpoints _ (List.getElem_mem hi)

end Sheet

/-- A diagram that is written line by line is read back as it was meant: its direction, its nodes
and its connections in their order, with all their fields and the lines on which they stand. No
connection is left out. -/
theorem parse_written_sheet (s : Sheet) (h : s.IsCanonical) :
    parse s.text = .ok s.document ∧ s.document.soundEdges = s.document.edges ∧
      s.document.dangling = [] := by
  refine ⟨?_, ?_, ?_⟩
  · exact parse_eq_ok_iff.2 ⟨Sheet.readable_text h, (Sheet.declared_text h).symm⟩
  · rw [Document.soundEdges_eq]
    exact List.filter_eq_self.2 (Sheet.isSound_edges h)
  · have hnone : s.document.edges.filter (!s.document.isSound ·) = [] :=
      List.filter_eq_nil_iff.2 fun e he => by simp [Sheet.isSound_edges h e he]
    rw [Document.dangling_eq, hnone, List.map_nil]

/-- A diagram whose labels are full of what else ends an id, a label or a line. -/
def crowdedSheet : Sheet where
  direction := .left
  nodes := [
    ⟨.decision, "a-", "say: \"x -> y\" = 'z' | b]", some "a: b = -> c"⟩,
    ⟨.finish, "a-.1", "-> flow # direction: TB", none⟩,
    ⟨.group, "flow", "it's", some "style: \"dashed\""⟩]
  edges := [
    ⟨"a-", "flow", some "-> [end] b \x7b style: dashed \x7d", some .curved⟩,
    ⟨"flow", "flow", none, none⟩,
    ⟨"a-.1", "a-", some "[x] -> y \x7d", none⟩]

theorem parse_crowded_sheet : crowdedSheet.IsCanonical ∧
    parse crowdedSheet.text = .ok crowdedSheet.document ∧
      crowdedSheet.document.soundEdges = crowdedSheet.document.edges ∧
      crowdedSheet.document.dangling = [] := by
  have hcanonical : crowdedSheet.IsCanonical := by decide +kernel
  exact ⟨hcanonical, parse_written_sheet crowdedSheet hcanonical⟩

end FlowCanvas.Diagram
