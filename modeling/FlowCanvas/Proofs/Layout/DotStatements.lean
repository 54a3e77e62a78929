import FlowCanvas.Proofs.Fallible
import FlowCanvas.Proofs.Layout.DotValues

namespace FlowCanvas.Layout.Dot

variable {κ : Type}

section Text

/-- Whether a value is a text, or one of the values that stand for none. -/
def IsTextual (v : Value) : Prop :=
  v.isEmpty = true ∨ ∃ s, v = .text s

def drawnKind (v : Value) : NodeKind :=
  match NodeKind.ofDrawn v with
  | .ok kind => kind
  | .error _ => .process

def nodeAttributes (n : Node κ) : Digraph.Attributes :=
  ("label", escapeLabel n.label.toList) :: kindAttributes (drawnKind n.kind)

def drawnLabel? : Value → Option String
  | .text s => if s.isEmpty then none else some s
  | _ => none

def labelPart : Option String → String
  | some s => " [" ++ attributeList [("label", escapeLabel s.toList)] ++ "]"
  | none => ""

def ends? (names : List (String × String)) (e : Edge) : Option (String × String) :=
  match nameOf? names e.source, nameOf? names e.target with
  | some tail, some head => some (tail, head)
  | _, _ => none

def nodeText (name : String) (n : Node κ) : String :=
  "\t" ++ name ++ " [" ++ attributeList (nodeAttributes n) ++ "]\n"

def arrowLine (tail head : String) (label : Option String) : String :=
  "\t" ++ tail ++ " -> " ++ head ++ labelPart label ++ "\n"

def edgeText (names : List (String × String)) (e : Edge) : String :=
  match ends? names e with
  | some (tail, head) => arrowLine tail head (drawnLabel? e.label)
  | none => ""

/-- Whether a diagram can be written: the kinds of its nodes are texts, and so are the labels of the
edges that join them. -/
structure Drawable (nodes : List (Node κ)) (edges : List Edge) : Prop where
  kinds : ∀ n ∈ nodes, IsTextual n.kind
  labels : ∀ e ∈ edges, (ends? (dotNames nodes) e).isSome = true → IsTextual e.label

def sourceText (nodes : List (Node κ)) (edges : List Edge) (direction : Direction)
    (spacing : Spacing) : String :=
  "digraph G \x7b\n" ++ Digraph.graphLine (graphAttributes direction spacing) ++
    "\tnode [fixedsize=true]\n" ++
    String.join ((numberedNodes 0 nodes).map fun (name, n) => nodeText name n) ++
    String.join (edges.map (edgeText (dotNames nodes))) ++ "\x7d\n"

def graphNode (name : String) (n : Node κ) : Digraph.Node :=
  ⟨name, escapeLabel n.label.toList, kindAttributes (drawnKind n.kind)⟩

def graphEdge? (names : List (String × String)) (e : Edge) : Option Digraph.Edge :=
  (ends? names e).map fun p =>
    ⟨p.1, p.2, (drawnLabel? e.label).map fun s => escapeLabel s.toList⟩

/-- The graph that is handed over for a diagram whose texts are texts. -/
def graphOf (nodes : List (Node κ)) (edges : List Edge) (direction : Direction)
    (spacing : Spacing) : Digraph where
  attributes := graphAttributes direction spacing
  nodeAttributes := sizeAttributes
  nodes := (numberedNodes 0 nodes).map fun (name, n) => graphNode name n
  edges := edges.filterMap (graphEdge? (dotNames nodes))

theorem ofDrawn_eq_ok_iff {v : Value} {kind : NodeKind} :
    NodeKind.ofDrawn v = .ok kind ↔ IsTextual v ∧ drawnKind v = kind := by
  have hok : (∃ k, NodeKind.ofDrawn v = .ok k) ↔ IsTextual v := by
    unfold IsTextual
    by_cases hempty : v.isEmpty = true
    · simp [NodeKind.ofDrawn, Value.orElse, hempty]
    · cases v <;> simp [NodeKind.ofDrawn, Value.orElse, hempty]
  rw [← hok, drawnKind]
  cases NodeKind.ofDrawn v <;> simp

theorem edgeLabel_eq_ok_iff {v : Value} {label : Option (List Char)} :
    edgeLabel v = .ok label ↔
      IsTextual v ∧ (drawnLabel? v).map (fun s => escapeLabel s.toList) = label := by
  by_cases hempty : v.isEmpty = true
  · have hnone : drawnLabel? v = none := by
      unfold drawnLabel?
      split
      · exact if_pos hempty
      · rfl
    simp [edgeLabel, IsTextual, hempty, hnone]
  · cases v with
    | text s =>
      have hs : ¬s.isEmpty = true := hempty
      simp [edgeLabel, IsTextual, drawnLabel?, Value.isEmpty, hs]
    | _ => simp [edgeLabel, IsTextual, hempty]

theorem drawnNode_eq_ok_iff {name : String} {n : Node κ} {node : Digraph.Node} :
    drawnNode name n = .ok node ↔ IsTextual n.kind ∧ graphNode name n = node := by
  simp only [drawnNode, bind_eq_ok_iff, ofDrawn_eq_ok_iff]
  constructor
  · rintro ⟨kind, ⟨hkind, rfl⟩, hnode⟩
    exact ⟨hkind, Except.ok.inj hnode⟩
  · rintro ⟨hkind, rfl⟩
    exact ⟨drawnKind n.kind, ⟨hkind, rfl⟩, rfl⟩

theorem drawnEdge?_eq_ok_iff {names : List (String × String)} {e : Edge}
    {edge : Option Digraph.Edge} :
    drawnEdge? names e = .ok edge ↔
      ((ends? names e).isSome = true → IsTextual e.label) ∧ graphEdge? names e = edge := by
  cases htail : nameOf? names e.source with
  | none => simp [drawnEdge?, graphEdge?, ends?, htail]
  | some tail =>
    cases hhead : nameOf? names e.target with
    | none => simp [drawnEdge?, graphEdge?, ends?, htail, hhead]
    | some head =>
      simp only [drawnEdge?, graphEdge?, ends?, htail, hhead, bind_eq_ok_iff, edgeLabel_eq_ok_iff]
      constructor
      · rintro ⟨label, ⟨hlabel, rfl⟩, hedge⟩
        exact ⟨fun _ => hlabel, Except.ok.inj hedge⟩
      · rintro ⟨hlabel, rfl⟩
        exact ⟨_, ⟨hlabel rfl, rfl⟩, rfl⟩

theorem map_snd_numberedNodes (index : Nat) (nodes : List (Node κ)) :
    (numberedNodes index nodes).map (·.2) = nodes := by
  induction nodes generalizing index with
  | nil => rfl
  | cons n nodes ih => rw [numberedNodes, List.map_cons, ih]

theorem digraph_eq_ok_iff {nodes : List (Node κ)} {edges : List Edge} {direction : Direction}
    {spacing : Spacing} {g : Digraph} :
    digraph nodes edges direction spacing = .ok g ↔
      Drawable nodes edges ∧ graphOf nodes edges direction spacing = g := by
  have hkinds : (∀ p ∈ numberedNodes 0 nodes, IsTextual p.2.kind) ↔
      ∀ n ∈ nodes, IsTextual n.kind := by
    rw [← map_snd_numberedNodes 0 nodes, List.forall_mem_map, map_snd_numberedNodes]
  have hnodes : ∀ p ∈ numberedNodes 0 nodes, ∀ {node}, drawnNode p.1 p.2 = .ok node ↔
      IsTextual p.2.kind ∧ graphNode p.1 p.2 = node := fun p _ _ => drawnNode_eq_ok_iff
  have hedges : ∀ e ∈ edges, ∀ {edge}, drawnEdge? (dotNames nodes) e = .ok edge ↔
      ((ends? (dotNames nodes) e).isSome = true → IsTextual e.label) ∧
        graphEdge? (dotNames nodes) e = edge := fun e _ _ => drawnEdge?_eq_ok_iff
  simp only [digraph, bind_eq_ok_iff, mapM_eq_ok_iff hnodes, mapM_eq_ok_iff hedges, hkinds]
  have hdrawn : (edges.map (graphEdge? (dotNames nodes))).filterMap id =
      edges.filterMap (graphEdge? (dotNames nodes)) := by
    rw [List.filterMap_map]
    rfl
  constructor
  · rintro ⟨_, ⟨hkinds, rfl⟩, _, ⟨hlabels, rfl⟩, hgraph⟩
    rw [hdrawn] at hgraph
    exact ⟨⟨hkinds, hlabels⟩, Except.ok.inj hgraph⟩
  · rintro ⟨hdrawable, rfl⟩
    refine ⟨_, ⟨hdrawable.kinds, rfl⟩, _, ⟨hdrawable.labels, rfl⟩, ?_⟩
    rw [hdrawn]
    rfl

theorem line_graphNode (name : String) (n : Node κ) :
    (graphNode name n).line = nodeText name n := by
  simp [graphNode, Digraph.Node.line, Digraph.bracketed, nodeText, nodeAttributes,
    String.append_assoc]

theorem join_lines (names : List (String × String)) (edges : List Edge) :
    String.join ((edges.filterMap (graphEdge? names)).map Digraph.Edge.line) =
      String.join (edges.map (edgeText names)) := by
  induction edges with
  | nil => rfl
  | cons e edges ih =>
    cases hends : ends? names e with
    | none => simp [graphEdge?, edgeText, hends, ih]
    | some p =>
      -- Without a label there are no attributes, and no brackets either.
      have hline : (Digraph.Edge.mk p.1 p.2
          ((drawnLabel? e.label).map fun s => escapeLabel s.toList)).line = edgeText names e := by
        cases hlabel : drawnLabel? e.label <;>
          simp [Digraph.Edge.line, Digraph.bracketed, edgeText, hends, hlabel, arrowLine, labelPart,
            String.append_assoc]
      have hgraph : graphEdge? names e = some ⟨p.1, p.2,
          (drawnLabel? e.label).map fun s => escapeLabel s.toList⟩ := by
        rw [graphEdge?, hends]
        rfl
      rw [List.filterMap_cons_some hgraph, List.map_cons, List.map_cons, String.join_cons,
        String.join_cons, hline, ih]

theorem text_graphOf (nodes : List (Node κ)) (edges : List Edge) (direction : Direction)
    (spacing : Spacing) :
    (graphOf nodes edges direction spacing).text = sourceText nodes edges direction spacing := by
  have hsize : Digraph.nodesLine sizeAttributes = "\tnode [fixedsize=true]\n" := by decide
  have hnodes : ((graphOf nodes edges direction spacing).nodes.map Digraph.Node.line) =
      (numberedNodes 0 nodes).map fun (name, n) => nodeText name n := by
    simp [graphOf, line_graphNode]
  have hedges : String.join ((graphOf nodes edges direction spacing).edges.map
      Digraph.Edge.line) = String.join (edges.map (edgeText (dotNames nodes))) :=
    join_lines (dotNames nodes) edges
  rw [Digraph.text, sourceText, hnodes, hedges, ← hsize]
  rfl

end Text

section Attributes

def attributeTokens (attributes : Digraph.Attributes) : List Token :=
  attributes.flatMap fun p => [.word p.1.toList, .mark '=', valueToken p.2]

def asRead (attributes : Digraph.Attributes) : Attributes :=
  attributes.map fun p => (p.1.toList, valueToken p.2)

def AreLegible (attributes : Digraph.Attributes) : Prop :=
  ∀ p ∈ attributes, isWord p.1.toList = true ∧ IsLegible p.2 ∧ isMarkup p.2 = false

theorem toList_attributeList_cons (key : String) (value : List Char)
    (attributes : Digraph.Attributes) :
    (attributeList ((key, value) :: attributes)).toList =
      key.toList ++ '=' :: (attributeValue value ++
        (if attributes = [] then [] else ' ' :: (attributeList attributes).toList)) := by
  cases attributes with
  | nil => simp [attributeList]
  | cons p attributes => simp [attributeList, String.intercalate_cons_cons]

theorem tokens?_attributeList {attributes : Digraph.Attributes} (h : AreLegible attributes)
    {r : List Char} (hr : Ends r) :
    tokens? ((attributeList attributes).toList ++ r) =
      (tokens? r).map (attributeTokens attributes ++ ·) := by
  induction attributes with
  | nil => simp [attributeList, attributeTokens]
  | cons p attributes ih =>
    obtain ⟨key, value⟩ := p
    obtain ⟨⟨hkey, hlegible, hmarkup⟩, hrest⟩ := List.forall_mem_cons.1 h
    -- A value ends at the space before the next key, and the last one at what follows the list.
    have htail : ∀ cs, Ends cs → tokens? (key.toList ++ '=' :: (attributeValue value ++ cs)) =
        (tokens? cs).map ([.word key.toList, .mark '=', valueToken value] ++ ·) := by
      intro cs hcs
      rw [tokens?_word hkey (Ends.cons (by decide) (by decide) _), tokens?_mark (by decide),
        tokens?_value hlegible hmarkup hcs]
      simp [Option.map_map, Function.comp_def]
    rw [toList_attributeList_cons]
    cases attributes with
    | nil => simpa [attributeTokens] using htail r hr
    | cons q attributes =>
      have hspace : Ends (' ' :: ((attributeList (q :: attributes)).toList ++ r)) :=
        Ends.cons (by decide) (by decide) _
      have hall := htail _ hspace
      rw [tokens?_white (by decide), ih hrest] at hall
      simpa [attributeTokens, Option.map_map, Function.comp_def] using hall

theorem readAttributes?_attributeTokens (attributes : Digraph.Attributes) (ts : List Token) :
    readAttributes? (attributeTokens attributes ++ .mark ']' :: ts) =
      some (asRead attributes, ts) := by
  induction attributes with
  | nil => rfl
  | cons p attributes ih =>
    have hcons : attributeTokens (p :: attributes) ++ .mark ']' :: ts =
        .word p.1.toList :: .mark '=' :: valueToken p.2 ::
          (attributeTokens attributes ++ .mark ']' :: ts) := by
      simp [attributeTokens]
    rw [hcons, readAttributes?, ih, if_pos (isId_valueToken p.2)]
    rfl

/-- Attributes outside of brackets are the graph's own. -/
theorem statements?_attributeTokens (attributes : Digraph.Attributes) (ts : List Token) :
    statements? (attributeTokens attributes ++ ts) =
      (statements? ts).map ((asRead attributes).map (fun p => .assign p.1 p.2) ++ ·) := by
  induction attributes with
  | nil => simp [attributeTokens, asRead]
  | cons p attributes ih =>
    have hcons : attributeTokens (p :: attributes) ++ ts =
        .word p.1.toList :: .mark '=' :: valueToken p.2 :: (attributeTokens attributes ++ ts) := by
      simp [attributeTokens]
    rw [hcons, statements?, ih, if_pos (isId_valueToken p.2)]
    simp [asRead, Option.map_map, Function.comp_def]

end Attributes

section Statements

/-- The statements with which a text goes on, up to the end of the graph. -/
def body? (cs : List Char) : Option (List Statement) :=
  (tokens? cs).bind statements?

/-- Whether a text opens a list of attributes, and with them makes up a statement. -/
def Opens (front : List Char) (build : Attributes → Statement) : Prop :=
  ∀ r, body? (front ++ r) = (tokens? r).bind fun ts => (readAttributes? ts).bind fun p =>
    (statements? p.2).map (build p.1 :: ·)

theorem statements?_bracket (name : List Char) (ts : List Token) :
    statements? (.word name :: .mark '[' :: ts) = (readAttributes? ts).bind fun p =>
      (statements? p.2).map
        ((if isKeyword name then .defaults name p.1 else .node name p.1) :: ·) := by
  rw [statements?]
  cases readAttributes? ts with
  | none => rfl
  | some p => rfl

theorem statements?_arrow_bracket (tail head : List Char) (ts : List Token) :
    statements? (.word tail :: .arrow :: .word head :: .mark '[' :: ts) =
      (readAttributes? ts).bind fun p => (statements? p.2).map (.edge tail head p.1 :: ·) := by
  rw [statements?]
  cases readAttributes? ts with
  | none => rfl
  | some p => rfl

theorem statements?_arrow (tail head : List Char) {ts : List Token}
    (h : ts.head? ≠ some (.mark '[')) :
    statements? (.word tail :: .arrow :: .word head :: ts) =
      (statements? ts).map (.edge tail head [] :: ·) := by
  rw [statements?]
  intro r hr
  simp [hr] at h

theorem opens_bracket {name : List Char} (h : isWord name = true) :
    Opens ('\t' :: name ++ [' ', '['])
      (fun p => if isKeyword name then .defaults name p else .node name p) := by
  intro r
  have hends : Ends (' ' :: '[' :: r) := Ends.cons (by decide) (by decide) _
  have htokens : tokens? ('\t' :: name ++ [' ', '['] ++ r) =
      (tokens? r).map ([.word name, .mark '['] ++ ·) := by
    simp only [List.cons_append, List.append_assoc, List.nil_append]
    rw [tokens?_white (by decide), tokens?_word h hends, tokens?_white (by decide),
      tokens?_mark (by decide)]
    simp [Option.map_map, Function.comp_def]
  rw [body?, htokens, Option.bind_map]
  congr 1
  funext ts
  exact statements?_bracket name ts

def arrowText (tail head : List Char) : List Char :=
  '\t' :: tail ++ ' ' :: '-' :: '>' :: ' ' :: head

theorem tokens?_arrowText {tail head r : List Char} (htail : isWord tail = true)
    (hhead : isWord head = true) (hr : Ends r) :
    tokens? (arrowText tail head ++ r) =
      (tokens? r).map ([.word tail, .arrow, .word head] ++ ·) := by
  have hends : Ends (' ' :: '-' :: '>' :: ' ' :: (head ++ r)) :=
    Ends.cons (by decide) (by decide) _
  simp only [arrowText, List.cons_append, List.append_assoc]
  rw [tokens?_white (by decide), tokens?_word htail hends, tokens?_white (by decide),
    tokens?_arrow, tokens?_white (by decide), tokens?_word hhead hr]
  simp [Option.map_map, Function.comp_def]

theorem opens_arrow {tail head : List Char} (htail : isWord tail = true)
    (hhead : isWord head = true) : Opens (arrowText tail head ++ [' ', '[']) (.edge tail head) := by
  intro r
  have hends : Ends (' ' :: '[' :: r) := Ends.cons (by decide) (by decide) _
  have htokens : tokens? (arrowText tail head ++ [' ', '['] ++ r) =
      (tokens? r).map ([.word tail, .arrow, .word head, .mark '['] ++ ·) := by
    simp only [List.append_assoc, List.cons_append, List.nil_append]
    rw [tokens?_arrowText htail hhead hends, tokens?_white (by decide), tokens?_mark (by decide)]
    simp [Option.map_map, Function.comp_def]
  rw [body?, htokens, Option.bind_map]
  congr 1
  funext ts
  exact statements?_arrow_bracket tail head ts

variable {front : List Char} {build : Attributes → Statement}

/-- Attributes that can be read end the statement that they belong to. -/
theorem Opens.body?_eq (h : Opens front build) {attributes : Digraph.Attributes}
    (hlegible : AreLegible attributes) (r : List Char) :
    body? (front ++ ((attributeList attributes).toList ++ ']' :: '\n' :: r)) =
      (body? r).map (build (asRead attributes) :: ·) := by
  have hends : Ends (']' :: '\n' :: r) := Ends.cons (by decide) (by decide) _
  rw [h, tokens?_attributeList hlegible hends, tokens?_mark (by decide), tokens?_white (by decide),
    Option.map_map, Option.bind_map, body?, Option.map_bind]
  congr 1
  funext ts
  simp [readAttributes?_attributeTokens]

theorem readAttributes?_markup {key inside : List Char} {ts rest : List Token}
    {attributes : Attributes}
    (h : readAttributes? (.word key :: .mark '=' :: .markup inside :: ts) =
      some (attributes, rest)) : attributes.head? = some (key, .markup inside) := by
  rw [readAttributes?, if_pos (by rfl)] at h
  obtain ⟨⟨more, rest'⟩, -, heq⟩ := Option.map_eq_some_iff.1 h
  obtain ⟨rfl, -⟩ := Prod.mk.inj heq
  rfl

/-- A statement with a label is read as it is meant just if the label is no markup. -/
theorem Opens.body?_eq_some_iff (h : Opens front build) (hbuild : Function.Injective build)
    (label : List Char) {more : Digraph.Attributes} (hmore : AreLegible more) (r : List Char)
    (rest : List Statement) :
    body? (front ++ ((attributeList (("label", escapeLabel label) :: more)).toList ++
        ']' :: '\n' :: r)) =
      some (build (asRead (("label", escapeLabel label) :: more)) :: rest) ↔
      isMarkup label = false ∧ body? r = some rest := by
  cases hmarkup : isMarkup label with
  | false =>
    have hlegible : AreLegible (("label", escapeLabel label) :: more) := by
      have hkey : isWord "label".toList = true := by decide
      refine List.forall_mem_cons.2 ⟨⟨hkey, .inr ⟨label, rfl⟩, ?_⟩, hmore⟩
      rw [isMarkup_escapeLabel, hmarkup]
    rw [h.body?_eq hlegible]
    simp
  | true =>
    simp only [Bool.true_eq_false, false_and, iff_false]
    intro hread
    -- Markup is read as markup, but the value of the intended statement is a word or a text in
    -- quotes.
    rw [h, toList_attributeList_cons, List.append_assoc, List.cons_append, List.append_assoc,
      tokens?_word (by decide) (Ends.cons (by decide) (by decide) _), tokens?_mark (by decide)]
      at hread
    rw [Option.map_map, Option.bind_map] at hread
    obtain ⟨ts, htokens, hread⟩ := Option.bind_eq_some_iff.1 hread
    obtain ⟨inside, ts, rfl⟩ :=
      tokens?_markup ((isMarkup_escapeLabel label).trans hmarkup) _ htokens
    obtain ⟨⟨attributes, ts'⟩, hattributes, hread⟩ := Option.bind_eq_some_iff.1 hread
    obtain ⟨_, -, heq⟩ := Option.map_eq_some_iff.1 hread
    have hhead := readAttributes?_markup hattributes
    obtain rfl := hbuild (List.cons.inj heq).1
    have htoken : valueToken (escapeLabel label) = .markup inside := by
      simpa [asRead] using hhead
    unfold valueToken at htoken
    split at htoken <;> cases htoken

end Statements

section Drawing

theorem isMarkup_of_isBare {cs : List Char} (h : isBare cs = true) : isMarkup cs = false := by
  have hangle : '<' ∉ cs := not_mem_of_isBare h (by decide)
  unfold isMarkup
  split
  · exact absurd List.mem_cons_self hangle
  · rfl

theorem areLegible_of_bare {attributes : Digraph.Attributes}
    (h : (attributes.all fun p => isWord p.1.toList && isBare p.2) = true) :
    AreLegible attributes := by
  intro p hp
  obtain ⟨hkey, hbare⟩ := Bool.and_eq_true_iff.1 (List.all_eq_true.1 h p hp)
  exact ⟨hkey, .inl hbare, isMarkup_of_isBare hbare⟩

theorem areLegible_graphAttributes (direction : Direction) (spacing : Spacing) :
    AreLegible (graphAttributes direction spacing) := by
  apply areLegible_of_bare
  cases direction <;> cases spacing <;> decide +kernel

theorem areLegible_kindAttributes (kind : NodeKind) : AreLegible (kindAttributes kind) := by
  apply areLegible_of_bare
  cases kind <;> decide +kernel

def edgeAttributes (e : Edge) : Digraph.Attributes :=
  match drawnLabel? e.label with
  | some s => [("label", escapeLabel s.toList)]
  | none => []

def nodeStatement (name : String) (n : Node κ) : Statement :=
  .node name.toList (asRead (nodeAttributes n))

def edgeStatement? (names : List (String × String)) (e : Edge) : Option Statement :=
  (ends? names e).map fun p => .edge p.1.toList p.2.toList (asRead (edgeAttributes e))

/-- The graph that the source of a diagram stands for. -/
def drawing (nodes : List (Node κ)) (edges : List Edge) (direction : Direction)
    (spacing : Spacing) : List Statement :=
  (asRead (graphAttributes direction spacing)).map (fun p => .assign p.1 p.2) ++
    (.defaults "node".toList [("fixedsize".toList, .word "true".toList)] ::
      ((numberedNodes 0 nodes).map (fun p => nodeStatement p.1 p.2) ++
        edges.filterMap (edgeStatement? (dotNames nodes))))

theorem filterMap_drawing {β : Type} {f : Statement → Option β}
    (hassign : ∀ key value, f (.assign key value) = none)
    (hdefaults : ∀ keyword attributes, f (.defaults keyword attributes) = none)
    (nodes : List (Node κ)) (edges : List Edge) (direction : Direction) (spacing : Spacing) :
    (drawing nodes edges direction spacing).filterMap f =
      (numberedNodes 0 nodes).filterMap (fun p => f (nodeStatement p.1 p.2)) ++
        edges.filterMap fun e => (edgeStatement? (dotNames nodes) e).bind f := by
  have hgraph : ((asRead (graphAttributes direction spacing)).map
      fun p => Statement.assign p.1 p.2).filterMap f = [] := by
    rw [List.filterMap_map, List.filterMap_eq_nil_iff]
    intro p _
    exact hassign p.1 p.2
  rw [drawing, List.filterMap_append, hgraph, List.nil_append,
    List.filterMap_cons_none (hdefaults _ _), List.filterMap_append, List.filterMap_map,
    List.filterMap_filterMap]
  rfl

theorem isDigit_of_mem_toString {i : Nat} {c : Char} (h : c ∈ (toString i).toList) :
    c.isDigit = true := by
  rw [Nat.toString_eq_ofList_toDigits, String.toList_ofList] at h
  exact Nat.isDigit_of_mem_toDigits (by decide) (by decide) h

theorem toList_dotName (i : Nat) : (dotName i).toList = 'n' :: (toString i).toList := by
  simp [dotName]

theorem isWord_dotName (i : Nat) : isWord (dotName i).toList = true := by
  rw [toList_dotName, isWord, Bool.and_eq_true]
  refine ⟨by decide, List.all_eq_true.2 fun c hc => ?_⟩
  exact isWordChar_of_isDigit c (isDigit_of_mem_toString hc)

theorem isDigit_of_mem_keyword {word : String} (h : word ∈ keywords) {c : Char}
    (hc : c ∈ word.toList) : c.isDigit = false := by
  have hall : keywords.all (fun word => word.toList.all (!·.isDigit)) = true := by decide
  simpa using List.all_eq_true.1 (List.all_eq_true.1 hall word h) c hc

theorem isKeyword_dotName (i : Nat) : isKeyword (dotName i).toList = false := by
  have hdigits : (toString i).toList ≠ [] := by
    rw [Nat.toString_eq_ofList_toDigits, String.toList_ofList]
    exact Nat.toDigits_ne_nil
  -- Keywords are compared in lower case, where a digit of the name is still a digit.
  obtain ⟨c, hc⟩ := List.exists_mem_of_ne_nil _ hdigits
  have hdigit := isDigit_of_mem_toString hc
  by_contra hkeyword
  have hmem : String.ofList ((dotName i).toList.map Char.toLower) ∈ keywords := by
    simpa [isKeyword] using hkeyword
  have hlower : c.toLower = c := by
    have hcode : c.toNat < 128 := by
      have : c.toNat ≤ 57 := (Char.isDigit_iff_toNat.1 hdigit).2
      omega
    exact Text.of_ascii (P := fun c => c.isDigit = true → c.toLower = c) (by decide) hcode hdigit
  have hfree : c.isDigit = false := by
    apply isDigit_of_mem_keyword hmem
    rw [String.toList_ofList, toList_dotName]
    exact List.mem_map.2 ⟨c, List.mem_cons_of_mem _ hc, hlower⟩
  cases hdigit.symm.trans hfree

theorem isBare_dotName (i : Nat) : isBare (dotName i).toList = true := by
  have hname : isPlainName (dotName i).toList = true := by
    rw [toList_dotName, isPlainName, Bool.and_eq_true]
    refine ⟨by decide, List.all_eq_true.2 fun c hc => ?_⟩
    rw [isDigit_of_mem_toString hc, Bool.or_true]
  simp [isBare, hname, isKeyword_dotName]

theorem exists_dotName_of_mem {index : Nat} {nodes : List (Node κ)} {p : String × Node κ}
    (h : p ∈ numberedNodes index nodes) : ∃ i, p.1 = dotName i := by
  induction nodes generalizing index with
  | nil => cases h
  | cons n nodes ih =>
    rcases List.mem_cons.1 h with rfl | h
    · exact ⟨index, rfl⟩
    · exact ih h

theorem exists_dotName_of_nameOf? {nodes : List (Node κ)} {id name : String}
    (h : nameOf? (dotNames nodes) id = some name) : ∃ i, name = dotName i := by
  obtain ⟨p, hp, rfl⟩ := Option.map_eq_some_iff.1 h
  have hmem := List.mem_reverse.1 (List.mem_of_find?_eq_some hp)
  obtain ⟨q, hq, rfl⟩ := List.mem_map.1 hmem
  exact exists_dotName_of_mem hq

theorem exists_dotNames_of_ends? {nodes : List (Node κ)} {e : Edge} {tail head : String}
    (h : ends? (dotNames nodes) e = some (tail, head)) :
    ∃ i j, tail = dotName i ∧ head = dotName j := by
  unfold ends? at h
  split at h
  · next htail hhead =>
    obtain ⟨rfl, rfl⟩ := Prod.mk.inj (Option.some.inj h)
    obtain ⟨i, rfl⟩ := exists_dotName_of_nameOf? htail
    obtain ⟨j, rfl⟩ := exists_dotName_of_nameOf? hhead
    exact ⟨i, j, rfl, rfl⟩
  · cases h

theorem isWord_of_ends? {nodes : List (Node κ)} {e : Edge} {tail head : String}
    (h : ends? (dotNames nodes) e = some (tail, head)) :
    isWord tail.toList = true ∧ isWord head.toList = true := by
  obtain ⟨i, j, rfl, rfl⟩ := exists_dotNames_of_ends? h
  exact ⟨isWord_dotName i, isWord_dotName j⟩

theorem opens_node (i : Nat) :
    Opens ('\t' :: (dotName i).toList ++ [' ', '[']) (.node (dotName i).toList) := by
  have h := opens_bracket (isWord_dotName i)
  simpa [isKeyword_dotName i] using h

theorem body?_node (i : Nat) (n : Node κ) (r : List Char) (rest : List Statement) :
    body? ((nodeText (dotName i) n).toList ++ r) = some (nodeStatement (dotName i) n :: rest) ↔
      isMarkup n.label.toList = false ∧ body? r = some rest := by
  have hinj : Function.Injective (Statement.node (dotName i).toList) :=
    fun _ _ heq => (Statement.node.inj heq).2
  have hiff := (opens_node i).body?_eq_some_iff hinj n.label.toList
    (areLegible_kindAttributes (drawnKind n.kind)) r rest
  simpa [nodeText, nodeStatement, nodeAttributes] using hiff

/-- Node lines are read as the nodes just if no label among them is markup. -/
theorem body?_nodes {ps : List (String × Node κ)} (h : ∀ p ∈ ps, ∃ i, p.1 = dotName i)
    (r : List Char) (rest : List Statement) :
    body? ((String.join (ps.map fun p => nodeText p.1 p.2)).toList ++ r) =
      some (ps.map (fun p => nodeStatement p.1 p.2) ++ rest) ↔
      (∀ p ∈ ps, isMarkup p.2.label.toList = false) ∧ body? r = some rest := by
  induction ps with
  | nil => simp
  | cons p ps ih =>
    obtain ⟨⟨i, hi⟩, hps⟩ := List.forall_mem_cons.1 h
    rw [List.map_cons, String.join_cons, String.toList_append, List.append_assoc, List.map_cons,
      List.cons_append, hi, body?_node, ih hps, List.forall_mem_cons, and_assoc]

theorem ends_labelPart (label : Option String) (r : List Char) :
    Ends ((labelPart label).toList ++ '\n' :: r) := by
  cases label with
  | none => exact Ends.cons (by decide) (by decide) r
  | some s =>
    simp only [labelPart, String.toList_append, List.append_assoc]
    exact Ends.cons (by decide) (by decide) _

theorem toList_edgeText {names : List (String × String)} {e : Edge} {tail head : String}
    (h : ends? names e = some (tail, head)) (r : List Char) :
    (edgeText names e).toList ++ r =
      arrowText tail.toList head.toList ++
        ((labelPart (drawnLabel? e.label)).toList ++ '\n' :: r) := by
  simp [edgeText, h, arrowLine, arrowText]

/-- The text after an edge without attributes must not go on with a bracket. -/
def StartsAfresh (r : List Char) : Prop :=
  ∀ ts, tokens? r = some ts → ts.head? ≠ some (.mark '[')

theorem startsAfresh_end : StartsAfresh ['\x7d', '\n'] := by
  intro ts hread
  have hend : tokens? ['\x7d', '\n'] = some [.mark '\x7d'] := by
    rw [tokens?_mark (by decide), tokens?_white (by decide), tokens?]
    rfl
  obtain rfl := Option.some.inj (hend.symm.trans hread)
  simp

theorem StartsAfresh.edge {r : List Char} (h : StartsAfresh r) {nodes : List (Node κ)} (e : Edge) :
    StartsAfresh ((edgeText (dotNames nodes) e).toList ++ r) := by
  intro ts hread
  cases hends : ends? (dotNames nodes) e with
  | none =>
    apply h ts
    simpa [edgeText, hends] using hread
  | some p =>
    obtain ⟨tail, head⟩ := p
    obtain ⟨htail, hhead⟩ := isWord_of_ends? hends
    rw [toList_edgeText hends, tokens?_arrowText htail hhead (ends_labelPart _ r)] at hread
    obtain ⟨ts', -, rfl⟩ := Option.map_eq_some_iff.1 hread
    simp

theorem startsAfresh_edges (nodes : List (Node κ)) (edges : List Edge) :
    StartsAfresh
      ((String.join (edges.map (edgeText (dotNames nodes)))).toList ++ ['\x7d', '\n']) := by
  induction edges with
  | nil => simpa using startsAfresh_end
  | cons e edges ih =>
    rw [List.map_cons, String.join_cons, String.toList_append, List.append_assoc]
    exact ih.edge e

def HasPlainLabel (e : Edge) : Prop :=
  ∀ s, drawnLabel? e.label = some s → isMarkup s.toList = false

theorem body?_edge {nodes : List (Node κ)} {e : Edge} {tail head : String}
    (hends : ends? (dotNames nodes) e = some (tail, head)) {r : List Char} (hr : StartsAfresh r)
    (rest : List Statement) :
    body? ((edgeText (dotNames nodes) e).toList ++ r) =
      some (.edge tail.toList head.toList (asRead (edgeAttributes e)) :: rest) ↔
      HasPlainLabel e ∧ body? r = some rest := by
  obtain ⟨htail, hhead⟩ := isWord_of_ends? hends
  rw [toList_edgeText hends]
  cases hlabel : drawnLabel? e.label with
  | none =>
    have hplain : HasPlainLabel e := by simp [HasPlainLabel, hlabel]
    have hbody : body? (arrowText tail.toList head.toList ++ '\n' :: r) =
        (body? r).map (.edge tail.toList head.toList [] :: ·) := by
      rw [body?, tokens?_arrowText htail hhead (Ends.cons (by decide) (by decide) r),
        tokens?_white (by decide), Option.bind_map, body?]
      cases hts : tokens? r with
      | none => rfl
      | some ts => exact statements?_arrow tail.toList head.toList (hr ts hts)
    have hattributes : asRead (edgeAttributes e) = [] := by simp [edgeAttributes, hlabel, asRead]
    simp [labelPart, hattributes, hplain, hbody]
  | some s =>
    have hplain : HasPlainLabel e ↔ isMarkup s.toList = false := by simp [HasPlainLabel, hlabel]
    have hinj : Function.Injective (Statement.edge tail.toList head.toList) :=
      fun _ _ heq => (Statement.edge.inj heq).2.2
    have hnone : AreLegible [] := by simp [AreLegible]
    have hiff := (opens_arrow htail hhead).body?_eq_some_iff hinj s.toList hnone r rest
    simpa [labelPart, edgeAttributes, hlabel, hplain] using hiff

/-- Edge lines are read as the edges just if no label among them is markup. -/
theorem body?_edges (nodes : List (Node κ)) (edges : List Edge) :
    body? ((String.join (edges.map (edgeText (dotNames nodes)))).toList ++ ['\x7d', '\n']) =
      some (edges.filterMap (edgeStatement? (dotNames nodes))) ↔
      ∀ e ∈ edges, (ends? (dotNames nodes) e).isSome = true → HasPlainLabel e := by
  induction edges with
  | nil =>
    have hend : body? ['\x7d', '\n'] = some [] := by
      rw [body?, tokens?_mark (by decide), tokens?_white (by decide), tokens?]
      simp [statements?]
    simpa using hend
  | cons e edges ih =>
    rw [List.map_cons, String.join_cons, String.toList_append, List.append_assoc,
      List.forall_mem_cons, ← ih]
    cases hends : ends? (dotNames nodes) e with
    | none =>
      -- An edge with a missing end is left out of the text and of the drawing alike.
      simp [edgeText, edgeStatement?, hends]
    | some p =>
      have hstatement : edgeStatement? (dotNames nodes) e =
          some (.edge p.1.toList p.2.toList (asRead (edgeAttributes e))) := by
        simp [edgeStatement?, hends]
      rw [List.filterMap_cons_some hstatement, body?_edge hends (startsAfresh_edges nodes edges)]
      simp

theorem graph?_header (r : List Char) : graph? ("digraph G \x7b\n".toList ++ r) = body? r := by
  have htokens : tokens? ("digraph".toList ++ ' ' :: ("G".toList ++ ' ' :: '\x7b' :: '\n' :: r)) =
      (tokens? r).map ([.word "digraph".toList, .word "G".toList, .mark '\x7b'] ++ ·) := by
    rw [tokens?_word (by decide) (Ends.cons (by decide) (by decide) _), tokens?_white (by decide),
      tokens?_word (by decide) (Ends.cons (by decide) (by decide) _), tokens?_white (by decide),
      tokens?_mark (by decide), tokens?_white (by decide)]
    simp [Option.map_map, Function.comp_def]
  unfold graph? body?
  rw [show "digraph G \x7b\n".toList ++ r =
    "digraph".toList ++ ' ' :: ("G".toList ++ ' ' :: '\x7b' :: '\n' :: r) from rfl, htokens]
  cases tokens? r with
  | none => rfl
  | some ts => simp

theorem body?_attributes {attributes : Digraph.Attributes} (h : AreLegible attributes)
    (r : List Char) :
    body? ('\t' :: ((attributeList attributes).toList ++ '\n' :: r)) =
      (body? r).map ((asRead attributes).map (fun p => .assign p.1 p.2) ++ ·) := by
  rw [body?, tokens?_white (by decide),
    tokens?_attributeList h (Ends.cons (by decide) (by decide) r), tokens?_white (by decide),
    Option.bind_map, body?, Option.map_bind]
  congr 1
  funext ts
  exact statements?_attributeTokens attributes ts

theorem body?_graphLine (direction : Direction) (spacing : Spacing) (r : List Char) :
    body? ((Digraph.graphLine (graphAttributes direction spacing)).toList ++ r) = (body? r).map
      ((asRead (graphAttributes direction spacing)).map (fun p => .assign p.1 p.2) ++ ·) := by
  rw [← body?_attributes (areLegible_graphAttributes direction spacing)]
  simp [Digraph.graphLine, graphAttributes]

theorem body?_defaults (r : List Char) :
    body? ("\tnode [fixedsize=true]\n".toList ++ r) = (body? r).map
      (.defaults "node".toList [("fixedsize".toList, .word "true".toList)] :: ·) := by
  have hlegible : AreLegible [("fixedsize", "true".toList)] := areLegible_of_bare (by decide)
  have hname : isWord "node".toList = true := by decide
  have hread := (opens_bracket hname).body?_eq hlegible r
  have hkeyword : isKeyword ['n', 'o', 'd', 'e'] = true := by decide
  have hbare : isBare ['t', 'r', 'u', 'e'] = true := by decide
  have hvalue : attributeValue ['t', 'r', 'u', 'e'] = ['t', 'r', 'u', 'e'] := by decide
  simpa [hkeyword, asRead, valueToken, hbare, attributeList, hvalue] using hread

/-- A source is read as the drawing of its diagram just if no label in it is markup. -/
theorem graph?_sourceText (nodes : List (Node κ)) (edges : List Edge) (direction : Direction)
    (spacing : Spacing) :
    graph? (sourceText nodes edges direction spacing).toList =
      some (drawing nodes edges direction spacing) ↔
      (∀ n ∈ nodes, isMarkup n.label.toList = false) ∧
        ∀ e ∈ edges, (ends? (dotNames nodes) e).isSome = true → HasPlainLabel e := by
  have hnames : ∀ p ∈ numberedNodes 0 nodes, ∃ i, p.1 = dotName i :=
    fun p hp => exists_dotName_of_mem hp
  have hnodes : (∀ p ∈ numberedNodes 0 nodes, isMarkup p.2.label.toList = false) ↔
      ∀ n ∈ nodes, isMarkup n.label.toList = false := by
    rw [← map_snd_numberedNodes 0 nodes, List.forall_mem_map, map_snd_numberedNodes]
  rw [← hnodes, ← body?_edges, ← body?_nodes hnames]
  simp only [sourceText, drawing, String.toList_append, List.append_assoc, graph?_header,
    body?_graphLine, body?_defaults]
  simp

end Drawing

section Source

variable {nodes : List (Node κ)} {edges : List Edge} {direction : Direction} {spacing : Spacing}

theorem arePlain_graphAttributes (direction : Direction) (spacing : Spacing) :
    Digraph.ArePlain (graphAttributes direction spacing) := by
  cases direction <;> cases spacing <;> decide +kernel

theorem arePlain_kindAttributes (kind : NodeKind) : Digraph.ArePlain (kindAttributes kind) := by
  cases kind <;> decide +kernel

/-- Whatever the diagram, its graph is one that is written as it stands. -/
theorem isPlain_graphOf (nodes : List (Node κ)) (edges : List Edge) (direction : Direction)
    (spacing : Spacing) : (graphOf nodes edges direction spacing).IsPlain where
  attributes := arePlain_graphAttributes direction spacing
  nodeAttributes := show Digraph.ArePlain sizeAttributes by decide
  nodes := by
    intro node hnode
    obtain ⟨p, hp, rfl⟩ := List.mem_map.1 hnode
    obtain ⟨i, hi⟩ := exists_dotName_of_mem hp
    refine ⟨?_, break_not_mem_escapeLabel _, arePlain_kindAttributes _⟩
    show isBare p.1.toList = true
    rw [hi, isBare_dotName]
  edges := by
    intro edge hedge
    obtain ⟨e, -, he⟩ := List.mem_filterMap.1 hedge
    obtain ⟨⟨tail, head⟩, hends, rfl⟩ := Option.map_eq_some_iff.1 he
    obtain ⟨i, j, rfl, rfl⟩ := exists_dotNames_of_ends? hends
    refine ⟨isBare_dotName i, isBare_dotName j, fun label hlabel => ?_⟩
    obtain ⟨s, -, rfl⟩ := Option.map_eq_some_iff.1 hlabel
    exact break_not_mem_escapeLabel _

theorem dotSource_eq_ok_iff {write : Digraph → String} (hwrite : Digraph.IsDocumented write)
    {source : String} : dotSource write nodes edges direction spacing = .ok source ↔
      Drawable nodes edges ∧ sourceText nodes edges direction spacing = source := by
  have hmap : dotSource write nodes edges direction spacing = .ok source ↔
      ∃ g, digraph nodes edges direction spacing = .ok g ∧ write g = source := by
    rw [dotSource]
    cases digraph nodes edges direction spacing <;> simp [Except.map]
  rw [hmap, ← text_graphOf, ← hwrite _ (isPlain_graphOf nodes edges direction spacing)]
  simp only [digraph_eq_ok_iff]
  constructor
  · rintro ⟨_, ⟨hdrawable, rfl⟩, hsource⟩
    exact ⟨hdrawable, hsource⟩
  · rintro ⟨hdrawable, hsource⟩
    exact ⟨_, ⟨hdrawable, rfl⟩, hsource⟩

end Source
end FlowCanvas.Layout.Dot
