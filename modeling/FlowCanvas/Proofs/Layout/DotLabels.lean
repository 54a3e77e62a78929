import FlowCanvas.Proofs.Layout.DotStatements

namespace FlowCanvas.Layout.Dot

variable {κ : Type}

/-- Whether a value is one token, wherever words end after it, and this token denotes a text. -/
def Denotes (value text : List Char) : Prop :=
  ∃ token : Token, token.label? = some text ∧
    ∀ r, Ends r → tokens? (value ++ r) = (tokens? r).map (token :: ·)

theorem denotes_escapeLabel_iff (label : List Char) :
    Denotes (attributeValue (escapeLabel label)) label ↔ isMarkup label = false := by
  have hescaped := isMarkup_escapeLabel label
  constructor
  · rintro ⟨token, htoken, hread⟩
    by_contra hmarkup
    have halone := hread [] Ends.nil
    rw [tokens?, Option.map_some] at halone
    obtain ⟨inside, rest, heq⟩ := tokens?_markup (by simpa [hescaped] using hmarkup) [] halone
    obtain ⟨rfl, -⟩ := List.cons.inj heq
    cases htoken
  · intro hmarkup
    refine ⟨valueToken (escapeLabel label), label?_valueToken label, fun r hr => ?_⟩
    exact tokens?_value (.inr ⟨label, rfl⟩) (hescaped.trans hmarkup) hr

def Statement.label? : Statement → Option (List Char)
  | .node _ attributes | .edge _ _ attributes =>
    (attributes.lookup "label".toList).bind Token.label?
  | .assign _ _ | .defaults _ _ => none

def joinedLabel? (names : List (String × String)) (e : Edge) : Option String :=
  (ends? names e).bind fun _ => drawnLabel? e.label

/-- The labels of all nodes, and of all edges between them that have one. -/
def labels (nodes : List (Node κ)) (edges : List Edge) : List (List Char) :=
  (nodes.map (·.label) ++ edges.filterMap (joinedLabel? (dotNames nodes))).map String.toList

theorem label?_nodeStatement (name : String) (n : Node κ) :
    (nodeStatement name n).label? = some n.label.toList := by
  simp [nodeStatement, Statement.label?, nodeAttributes, asRead]

theorem label?_edgeStatement (names : List (String × String)) (e : Edge) :
    (edgeStatement? names e).bind Statement.label? =
      (joinedLabel? names e).map String.toList := by
  cases hends : ends? names e with
  | none => simp [edgeStatement?, joinedLabel?, hends]
  | some p =>
    cases hlabel : drawnLabel? e.label with
    | none =>
      simp [edgeStatement?, joinedLabel?, hends, hlabel, Statement.label?, edgeAttributes, asRead]
    | some s =>
      simp [edgeStatement?, joinedLabel?, hends, hlabel, Statement.label?, edgeAttributes, asRead]

/-- The drawing of a diagram shows its labels, in their order and no others. -/
theorem labels_drawing (nodes : List (Node κ)) (edges : List Edge) (direction : Direction)
    (spacing : Spacing) :
    (drawing nodes edges direction spacing).filterMap Statement.label? = labels nodes edges := by
  have hnodes : (numberedNodes 0 nodes).filterMap (fun p => (nodeStatement p.1 p.2).label?) =
      (nodes.map (·.label)).map String.toList := by
    simp only [label?_nodeStatement, List.filterMap_eq_map']
    rw [List.map_map, ← map_snd_numberedNodes 0 nodes, List.map_map, map_snd_numberedNodes]
    rfl
  rw [filterMap_drawing (fun _ _ => rfl) (fun _ _ => rfl), hnodes, labels, List.map_append,
    List.map_filterMap]
  simp only [label?_edgeStatement]

theorem forall_mem_labels_iff {nodes : List (Node κ)} {edges : List Edge} :
    (∀ label ∈ labels nodes edges, isMarkup label = false) ↔
      (∀ n ∈ nodes, isMarkup n.label.toList = false) ∧
        ∀ e ∈ edges, (ends? (dotNames nodes) e).isSome = true → HasPlainLabel e := by
  simp only [labels, List.map_append, List.map_map, List.forall_mem_append, List.forall_mem_map,
    List.mem_filterMap]
  apply and_congr Iff.rfl
  constructor
  · intro h e he hends s hs
    obtain ⟨p, hp⟩ := Option.isSome_iff_exists.1 hends
    exact h s ⟨e, he, by rw [joinedLabel?, hp, Option.bind_some, hs]⟩
  · rintro h s ⟨e, he, hs⟩
    obtain ⟨p, hp, hs⟩ := Option.bind_eq_some_iff.1 hs
    exact h e he (by rw [hp]; rfl) s hs

/-- Where graphs are written as documented, a diagram whose texts are texts has a source, and this
stands for the graph of the diagram, with every label as its own text, just if no label is markup.
Each label for itself is one token that denotes it just if it is none. -/
theorem labels_reach_graph_iff {write : Digraph → String} (hwrite : Digraph.IsDocumented write)
    (nodes : List (Node κ)) (edges : List Edge) (direction : Direction) (spacing : Spacing)
    (h : Drawable nodes edges) :
    dotSource write nodes edges direction spacing =
        .ok (sourceText nodes edges direction spacing) ∧
      (drawing nodes edges direction spacing).filterMap Statement.label? = labels nodes edges ∧
      (graph? (sourceText nodes edges direction spacing).toList =
          some (drawing nodes edges direction spacing) ↔
        ∀ label ∈ labels nodes edges, isMarkup label = false) ∧
      ∀ label ∈ labels nodes edges,
        Denotes (attributeValue (escapeLabel label)) label ↔ isMarkup label = false := by
  refine ⟨(dotSource_eq_ok_iff hwrite).2 ⟨h, rfl⟩, labels_drawing nodes edges direction spacing, ?_,
    fun label _ => denotes_escapeLabel_iff label⟩
  rw [forall_mem_labels_iff]
  exact graph?_sourceText nodes edges direction spacing

def labelled (id label : String) : Node :=
  ⟨id, .text "process", label, .null, none, []⟩

def connected (source target label : String) : Edge :=
  ⟨"e", source, target, .text "bezier", false, .text label, []⟩

/-- Backslashes before a quotation mark and at the end, a line break, a keyword, a numeral and half
of what makes markup. -/
theorem awkward_labels_reach_graph :
    let nodes := [labelled "a" "\\\"\\", labelled "b" "node", labelled "c" "-.5\n"]
    let edges := [connected "a" "b" "<b> or not", connected "b" "c" "", connected "c" "d" "<i>"]
    Digraph.IsDocumented Digraph.text ∧ Drawable nodes edges ∧
      graph? (sourceText nodes edges .right .loose).toList =
        some (drawing nodes edges .right .loose) := by
  intro nodes edges
  have h : Drawable nodes edges := by
    refine ⟨?_, ?_⟩
    · intro n hn
      simp only [nodes, List.mem_cons, List.not_mem_nil, or_false] at hn
      rcases hn with rfl | rfl | rfl <;> exact .inr ⟨_, rfl⟩
    · intro e he _
      simp only [edges, List.mem_cons, List.not_mem_nil, or_false] at he
      rcases he with rfl | rfl | rfl <;> exact .inr ⟨_, rfl⟩
  have hplain : ∀ label ∈ labels nodes edges, isMarkup label = false := by decide +kernel
  have hwrite := Digraph.isDocumented_text
  exact ⟨hwrite, h, (labels_reach_graph_iff hwrite nodes edges .right .loose h).2.2.1.2 hplain⟩

/-- A label in angle brackets denotes nothing, and one that closes them in between closes its
attribute and declares another node. -/
theorem bracketed_label_declares_node :
    ¬Denotes (attributeValue (escapeLabel "<b>".toList)) "<b>".toList ∧
      ((dotSource Digraph.text [labelled "a" "<a>];x[label=<b>"] [] .down .normal).toOption.bind
        fun source => graph? source.toList).map (·.drop 6) =
        some [.node ['n', '0'] [("label".toList, .markup ['a'])],
          .node ['x'] [("label".toList, .markup ['b']), ("height".toList, .word "0.8".toList),
            ("shape".toList, .word "box".toList), ("width".toList, .word "2.2".toList)]] := by
  constructor
  · rw [denotes_escapeLabel_iff]
    decide
  · decide +kernel

end FlowCanvas.Layout.Dot
