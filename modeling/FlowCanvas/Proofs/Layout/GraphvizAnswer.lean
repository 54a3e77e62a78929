import Mathlib
import FlowCanvas.Layout.Graphviz
import FlowCanvas.Proofs.Layout.DotLabels

namespace FlowCanvas.Layout

namespace Dot

variable {κ : Type} {nodes : List (Node κ)}

theorem dotName_injective : Function.Injective dotName := by
  intro i j h
  have hdigits := congrArg String.toList h
  rw [toList_dotName, toList_dotName] at hdigits
  have hvalue := congrArg (Nat.ofDigitChars 10 · 0) (List.cons.inj hdigits).2
  simpa [Nat.toString_eq_ofList_toDigits] using hvalue

theorem numberedNodes_eq (index : Nat) (nodes : List (Node κ)) :
    numberedNodes index nodes = (nodes.zipIdx index).map fun p => (dotName p.2, p.1) := by
  induction nodes generalizing index with
  | nil => rfl
  | cons n nodes ih => rw [numberedNodes, ih, List.zipIdx_cons, List.map_cons]

theorem dotNames_eq (nodes : List (Node κ)) :
    dotNames nodes = nodes.zipIdx.map fun p => (dotName p.2, p.1.id) := by
  rw [dotNames, numberedNodes_eq, List.map_map]
  rfl

theorem mem_dotNames_iff {name id : String} :
    (name, id) ∈ dotNames nodes ↔ ∃ i, name = dotName i ∧ (nodes.map (·.id))[i]? = some id := by
  rw [dotNames_eq, List.mem_map]
  constructor
  · rintro ⟨⟨n, i⟩, hmem, heq⟩
    obtain ⟨rfl, rfl⟩ := Prod.mk.inj heq
    have hn : nodes[i]? = some n := List.mem_zipIdx_iff_getElem?.1 hmem
    exact ⟨i, rfl, by simp [hn]⟩
  · rintro ⟨i, rfl, hid⟩
    rw [List.getElem?_map] at hid
    obtain ⟨n, hn, rfl⟩ := Option.map_eq_some_iff.1 hid
    exact ⟨(n, i), List.mem_zipIdx_iff_getElem?.2 hn, rfl⟩

theorem map_fst_numberedNodes (nodes : List (Node κ)) :
    (numberedNodes 0 nodes).map (·.1) = (List.range nodes.length).map dotName := by
  rw [numberedNodes_eq, List.map_map, List.range_eq_range', ← List.zipIdx_map_snd 0 nodes,
    List.map_map]
  rfl

theorem isUnique_dotNames (nodes : List (Node κ)) : Table.IsUnique (dotNames nodes) := by
  have hnames : (dotNames nodes).map (·.1) = (List.range nodes.length).map dotName := by
    rw [← map_fst_numberedNodes, dotNames, List.map_map]
    rfl
  rw [Table.IsUnique, hnames]
  exact List.Nodup.map dotName_injective List.nodup_range

theorem lookup_dotNames_iff {name id : String} :
    (dotNames nodes).lookup name = some id ↔
      ∃ i, name = dotName i ∧ (nodes.map (·.id))[i]? = some id := by
  rw [← mem_dotNames_iff]
  exact (isUnique_dotNames nodes).mem_iff.symm

theorem lookup_dotNames_empty : (dotNames nodes).lookup "" = none := by
  rw [Option.eq_none_iff_forall_ne_some]
  intro id hid
  obtain ⟨i, hi, -⟩ := lookup_dotNames_iff.1 hid
  have hmark := congrArg String.toList hi
  rw [toList_dotName] at hmark
  cases hmark

theorem lookup_dotName {i : Nat} (hi : i < nodes.length) :
    (dotNames nodes).lookup (dotName i) = some nodes[i].id :=
  lookup_dotNames_iff.2 ⟨i, rfl, by simp [hi]⟩

theorem eq_dotName_of_lookup (h : (nodes.map (·.id)).Nodup) {i : Nat} (hi : i < nodes.length)
    {name : String} (hlookup : (dotNames nodes).lookup name = some nodes[i].id) :
    name = dotName i := by
  obtain ⟨j, rfl, hj⟩ := lookup_dotNames_iff.1 hlookup
  have hi' : i < (nodes.map (·.id)).length := by simpa using hi
  have hij : i = j := (List.getElem?_inj hi' h).1 (by rw [hj]; simp [hi])
  rw [hij]

theorem mem_ids_of_lookup {name id : String} (h : (dotNames nodes).lookup name = some id) :
    id ∈ nodes.map (·.id) := by
  obtain ⟨i, -, hi⟩ := lookup_dotNames_iff.1 h
  exact List.mem_of_getElem? hi

theorem idxOf?_eq_some_iff_of_nodup {ids : List String} (h : ids.Nodup) {id : String} {i : Nat} :
    ids.idxOf? id = some i ↔ ids[i]? = some id := by
  rw [List.idxOf?_eq_some_iff, List.getElem?_eq_some_iff]
  constructor
  · rintro ⟨hi, hid, -⟩
    exact ⟨hi, hid⟩
  · rintro ⟨hi, hid⟩
    refine ⟨hi, hid, fun j hj hsame => ?_⟩
    have heq := (List.Nodup.getElem_inj_iff h).1 (hsame.trans hid.symm)
    omega

theorem nameOf?_dotNames_iff (h : (nodes.map (·.id)).Nodup) {id name : String} :
    nameOf? (dotNames nodes) id = some name ↔ (name, id) ∈ dotNames nodes := by
  constructor
  · intro hname
    obtain ⟨p, hp, rfl⟩ := Option.map_eq_some_iff.1 hname
    obtain rfl : p.2 = id := by simpa using List.find?_some hp
    exact List.mem_reverse.1 (List.mem_of_find?_eq_some hp)
  · intro hmem
    have hfound : ((dotNames nodes).reverse.find? (·.2 = id)).isSome = true :=
      List.find?_isSome.2 ⟨(name, id), List.mem_reverse.2 hmem, by simp⟩
    obtain ⟨p, hp⟩ := Option.isSome_iff_exists.1 hfound
    obtain rfl : p.2 = id := by simpa using List.find?_some hp
    have hp' : (p.1, p.2) ∈ dotNames nodes := List.mem_reverse.1 (List.mem_of_find?_eq_some hp)
    obtain ⟨i, rfl, hi⟩ := mem_dotNames_iff.1 hmem
    obtain ⟨j, hj, hj'⟩ := mem_dotNames_iff.1 hp'
    have hij : i = j := by
      have hlength := (List.getElem?_eq_some_iff.1 hi).1
      exact (List.getElem?_inj hlength h).1 (hi.trans hj'.symm)
    rw [nameOf?, hp, Option.map_some, hj, hij]

/-- Where ids are distinct, an id is named after its place. -/
theorem nameOf?_dotNames (h : (nodes.map (·.id)).Nodup) (id : String) :
    nameOf? (dotNames nodes) id = ((nodes.map (·.id)).idxOf? id).map dotName := by
  apply Option.ext
  intro name
  rw [nameOf?_dotNames_iff h, mem_dotNames_iff, Option.map_eq_some_iff]
  constructor
  · rintro ⟨i, rfl, hi⟩
    exact ⟨i, (idxOf?_eq_some_iff_of_nodup h).2 hi, rfl⟩
  · rintro ⟨i, hi, rfl⟩
    exact ⟨i, rfl, (idxOf?_eq_some_iff_of_nodup h).1 hi⟩

def places? (ids : List String) (e : Edge) : Option (Nat × Nat) :=
  match ids.idxOf? e.source, ids.idxOf? e.target with
  | some i, some j => some (i, j)
  | _, _ => none

theorem ends?_dotNames (h : (nodes.map (·.id)).Nodup) (e : Edge) :
    ends? (dotNames nodes) e =
      (places? (nodes.map (·.id)) e).map fun p => (dotName p.1, dotName p.2) := by
  rw [ends?, places?, nameOf?_dotNames h, nameOf?_dotNames h]
  cases (nodes.map (·.id)).idxOf? e.source <;> cases (nodes.map (·.id)).idxOf? e.target <;> rfl

/-- What a source has to say of a diagram: a line for each node, in their order, and one for each
edge between two of them. Read as a graph it declares these nodes and edges and no others, unless a
label is markup. -/
structure AsksFor (source : String) (nodes : List (Node κ)) (edges : List Edge)
    (direction : Direction) (spacing : Spacing) : Prop where
  lines : source =
    "digraph G \x7b\n" ++ Digraph.graphLine (graphAttributes direction spacing) ++
      "\tnode [fixedsize=true]\n" ++
      String.join (nodes.zipIdx.map fun p => nodeText (dotName p.2) p.1) ++
      String.join (edges.filterMap fun e => (places? (nodes.map (·.id)) e).map fun p =>
        arrowLine (dotName p.1) (dotName p.2) (drawnLabel? e.label)) ++ "\x7d\n"
  graph : (∀ label ∈ labels nodes edges, isMarkup label = false) →
    ∃ statements, graph? source.toList = some statements ∧
      statements.filterMap Statement.declared? =
        (List.range nodes.length).map (fun i => (dotName i).toList) ∧
      statements.filterMap Statement.joined? = (edges.filterMap (places? (nodes.map (·.id)))).map
        fun p => ((dotName p.1).toList, (dotName p.2).toList)

theorem join_edgeTexts (h : (nodes.map (·.id)).Nodup) (edges : List Edge) :
    String.join (edges.map (edgeText (dotNames nodes))) =
      String.join (edges.filterMap fun e => (places? (nodes.map (·.id)) e).map fun p =>
        arrowLine (dotName p.1) (dotName p.2) (drawnLabel? e.label)) := by
  induction edges with
  | nil => rfl
  | cons e edges ih =>
    rw [List.map_cons, String.join_cons, ih, List.filterMap_cons, edgeText, ends?_dotNames h]
    cases places? (nodes.map (·.id)) e with
    | none => simp
    | some p => simp

theorem declared_drawing (nodes : List (Node κ)) (edges : List Edge) (direction : Direction)
    (spacing : Spacing) :
    (drawing nodes edges direction spacing).filterMap Statement.declared? =
      (List.range nodes.length).map fun i => (dotName i).toList := by
  have hnodes : (numberedNodes 0 nodes).filterMap (fun p => (nodeStatement p.1 p.2).declared?) =
      ((numberedNodes 0 nodes).map (·.1)).map String.toList := by
    rw [List.map_map, ← List.filterMap_eq_map]
    rfl
  have hedges : ∀ e, (edgeStatement? (dotNames nodes) e).bind Statement.declared? = none := by
    intro e
    cases hends : ends? (dotNames nodes) e <;> simp [edgeStatement?, hends, Statement.declared?]
  rw [filterMap_drawing (fun _ _ => rfl) (fun _ _ => rfl), hnodes, map_fst_numberedNodes]
  simp [hedges]

theorem joined_drawing (h : (nodes.map (·.id)).Nodup) (edges : List Edge) (direction : Direction)
    (spacing : Spacing) :
    (drawing nodes edges direction spacing).filterMap Statement.joined? =
      (edges.filterMap (places? (nodes.map (·.id)))).map
        fun p => ((dotName p.1).toList, (dotName p.2).toList) := by
  have hnodes : ∀ p : String × Node κ, (nodeStatement p.1 p.2).joined? = none := fun _ => rfl
  have hedges : ∀ e, (edgeStatement? (dotNames nodes) e).bind Statement.joined? =
      (places? (nodes.map (·.id)) e).map
        fun p => ((dotName p.1).toList, (dotName p.2).toList) := by
    intro e
    rw [edgeStatement?, ends?_dotNames h]
    cases places? (nodes.map (·.id)) e <;> rfl
  rw [filterMap_drawing (fun _ _ => rfl) (fun _ _ => rfl), List.map_filterMap]
  simp [hnodes, hedges]

theorem asksFor_sourceText (h : (nodes.map (·.id)).Nodup) (edges : List Edge)
    (direction : Direction) (spacing : Spacing) :
    AsksFor (sourceText nodes edges direction spacing) nodes edges direction spacing where
  lines := by
    rw [sourceText, join_edgeTexts h, numberedNodes_eq, List.map_map]
    rfl
  graph hplain := by
    refine ⟨drawing nodes edges direction spacing, ?_,
      declared_drawing nodes edges direction spacing, joined_drawing h edges direction spacing⟩
    exact (graph?_sourceText nodes edges direction spacing).2 (forall_mem_labels_iff.1 hplain)

end Dot

namespace Graphviz
open Dot

/-- Whether an object of a reply is taken for the position of the node with a name. -/
def standsFor (name : String) : Value → Bool
  | .object fields =>
    (Fields.find? (.text "nodes") fields).isNone && isText name (Fields.get "name" fields) &&
      (pointOf? (Fields.get "pos" fields)).isSome
  | _ => false

/-- The top left corner that an object of a reply gives, in a drawing of the given height. -/
def corner? (height : Float) : Value → Option Point
  | .object fields => do
    let centre ← pointOf? (Fields.get "pos" fields)
    let width ← (lengthOf "width" fields).toOption
    let nodeHeight ← (lengthOf "height" fields).toOption
    return ⟨Decimal.roundToCents (centre.x - width / 2),
      Decimal.roundToCents ((height - centre.y) - nodeHeight / 2)⟩
  | _ => none

theorem standsFor_object_iff {name : String} {fields : Fields} :
    standsFor name (.object fields) = true ↔
      fields.find? (.text "nodes") = none ∧ fields.find? (.text "name") = some (.text name) ∧
        ∃ centre, pointOf? (fields.get "pos") = some centre := by
  have hname : isText name (fields.get "name") = true ↔
      fields.find? (.text "name") = some (.text name) := by
    rw [Fields.get]
    cases fields.find? (.text "name") with
    | none => simp [isText]
    | some v => cases v <;> simp [isText]
  simp only [standsFor, Bool.and_eq_true, hname, Option.isNone_iff_eq_none,
    Option.isSome_iff_exists, and_assoc]

theorem nodeId?_eq_ok_some_iff {names : List (String × String)} (hempty : names.lookup "" = none)
    {fields : Fields} {id : String} :
    nodeId? names fields = .ok (some id) ↔
      ∃ name, fields.find? (.text "name") = some (.text name) ∧ names.lookup name = some id := by
  unfold nodeId?
  cases hname : fields.find? (.text "name") with
  | none => simp [hempty]
  | some v =>
    cases v with
    | text name => simp
    | _ =>
      simp only
      split <;> simp

theorem standsFor_eq_false_of_isCluster {name : String} {item : Value}
    (h : isCluster item = .ok true) : standsFor name item = false := by
  cases item with
  | object fields =>
    have hnodes : (Fields.find? (.text "nodes") fields).isSome = true := Except.ok.inj h
    simp [standsFor, Option.isNone_eq_false_iff.2 hnodes]
  | _ => rfl

theorem asObject_eq_ok_iff {v : Value} {fields : Fields} :
    v.asObject = .ok fields ↔ v = .object fields := by
  cases v <;> simp [Value.asObject]

/-- What reading one object of a reply comes to: a cluster places nothing, and all else that can be
read is an object, which places the node that it names at its corner. -/
theorem placed?_cases {height : Float} {names : List (String × String)} {item : Value}
    {placed : Option (String × Point)} (h : placed? height names item = .ok placed) :
    (isCluster item = .ok true ∧ placed = none) ∨
      ∃ (fields : Fields) (node : Option String), item = .object fields ∧
        fields.find? (.text "nodes") = none ∧
        nodeId? names fields = .ok node ∧
        placed = (node.bind fun id => (corner? height item).map fun p => (id, p)) ∧
        (node.isSome = true → (pointOf? (fields.get "pos")).isSome = true →
          (corner? height item).isSome = true) := by
  simp only [placed?, bind_eq_ok_iff] at h
  obtain ⟨cluster, hcluster, h⟩ := h
  cases cluster with
  | true => exact .inl ⟨hcluster, (Except.ok.inj h).symm⟩
  | false =>
    simp only [Bool.false_eq_true, if_false, bind_eq_ok_iff] at h
    obtain ⟨fields, hfields, node, hnode, h⟩ := h
    obtain rfl := asObject_eq_ok_iff.1 hfields
    have hfree : fields.find? (.text "nodes") = none := by
      simpa using Except.ok.inj hcluster
    refine .inr ⟨fields, node, rfl, hfree, hnode, ?_⟩
    cases node with
    | none =>
      obtain rfl : none = placed := Except.ok.inj h
      simp
    | some id =>
      -- Only an object that names a node and has a place has its size read.
      cases hpos : pointOf? (fields.get "pos") with
      | none =>
        simp only [hpos] at h
        obtain rfl : none = placed := Except.ok.inj h
        simp [corner?, hpos]
      | some centre =>
        simp only [hpos, bind_eq_ok_iff] at h
        obtain ⟨width, hwidth, nodeHeight, hheight, h⟩ := h
        obtain rfl := Except.ok.inj h
        simp [corner?, hpos, hwidth, hheight, Except.toOption]

section Placed

variable {height : Float} {names : List (String × String)} {name id : String} {item : Value}
  {placed : Option (String × Point)}

/-- An object places just the nodes that it stands for, at its corner. -/
theorem placed?_eq_some_iff (hempty : names.lookup "" = none)
    (h : placed? height names item = .ok placed) {p : Point} :
    placed = some (id, p) ↔
      ∃ name, names.lookup name = some id ∧ standsFor name item = true ∧
        corner? height item = some p := by
  rcases placed?_cases h with ⟨hcluster, rfl⟩ | ⟨fields, node, rfl, hfree, hnode, rfl, -⟩
  · simp [standsFor_eq_false_of_isCluster hcluster]
  · have hname : node = some id ↔
        ∃ name, fields.find? (.text "name") = some (.text name) ∧ names.lookup name = some id := by
      rw [← nodeId?_eq_ok_some_iff hempty, hnode, Except.ok.injEq]
    have hplaced : (node.bind fun id => (corner? height (.object fields)).map fun p => (id, p)) =
        some (id, p) ↔ node = some id ∧ corner? height (.object fields) = some p := by
      cases node <;> simp [and_comm]
    have hcentre : corner? height (.object fields) = some p →
        ∃ centre, pointOf? (fields.get "pos") = some centre := by
      intro hcorner
      obtain ⟨centre, hpos, -⟩ := Option.bind_eq_some_iff.1 hcorner
      exact ⟨centre, hpos⟩
    rw [hplaced, hname]
    simp only [standsFor_object_iff]
    constructor
    · rintro ⟨⟨name, hfound, hlookup⟩, hcorner⟩
      exact ⟨name, hlookup, ⟨hfree, hfound, hcentre hcorner⟩, hcorner⟩
    · rintro ⟨name, hlookup, ⟨-, hfound, -⟩, hcorner⟩
      exact ⟨⟨name, hfound, hlookup⟩, hcorner⟩

theorem corner?_isSome (hempty : names.lookup "" = none) (hname : names.lookup name = some id)
    (h : placed? height names item = .ok placed) (hitem : standsFor name item = true) :
    (corner? height item).isSome = true := by
  rcases placed?_cases h with ⟨hcluster, rfl⟩ | ⟨fields, node, rfl, -, hnode, -, hcorner⟩
  · simp [standsFor_eq_false_of_isCluster hcluster] at hitem
  · obtain ⟨-, hfound, centre, hpos⟩ := standsFor_object_iff.1 hitem
    have hsome := (nodeId?_eq_ok_some_iff hempty).2 ⟨name, hfound, hname⟩
    obtain rfl := Except.ok.inj (hnode.symm.trans hsome)
    exact hcorner rfl (by simp [hpos])

end Placed

section Reply

variable {height : Float} {names : List (String × String)} {objects : List Value}
  {placed : List (Option (String × Point))}

/-- Of all that a reply places, what goes to a node is what the objects that stand for it give. -/
theorem filter_placed (hempty : names.lookup "" = none) {name key : String}
    (hname : names.lookup name = some key)
    (hunique : ∀ name', names.lookup name' = some key → name' = name)
    (h : objects.mapM (placed? height names) = .ok placed) :
    (placed.filterMap id).filter (·.1 = key) =
      (objects.filter (standsFor name)).filterMap fun item =>
        (corner? height item).map fun p => (key, p) := by
  -- Object by object: one that stands for the node has a corner, and any other puts nothing there.
  induction objects generalizing placed with
  | nil =>
    obtain rfl : [] = placed := Except.ok.inj h
    rfl
  | cons item objects ih =>
    simp only [List.mapM_cons, bind_eq_ok_iff] at h
    obtain ⟨first, hfirst, rest, hrest, h⟩ := h
    obtain rfl := Except.ok.inj h
    have hiff {p : Point} : first = some (key, p) ↔ _ := placed?_eq_some_iff hempty hfirst
    have hplaced : ∀ q, (some q :: rest).filterMap id = q :: rest.filterMap id := fun _ => rfl
    by_cases hitem : standsFor name item = true
    · obtain ⟨p, hcorner⟩ := Option.isSome_iff_exists.1 (corner?_isSome hempty hname hfirst hitem)
      rw [hiff.2 ⟨name, hname, hitem, hcorner⟩, hplaced, List.filter_cons_of_pos (by simp),
        ih hrest, List.filter_cons_of_pos hitem, List.filterMap_cons, hcorner]
      rfl
    · have hother : ∀ q, first = some q → q.1 ≠ key := by
        rintro ⟨key', p⟩ hq rfl
        obtain ⟨name', hlookup, hstands, -⟩ := hiff.1 hq
        exact hitem (hunique name' hlookup ▸ hstands)
      rw [List.filter_cons_of_neg hitem, ← ih hrest]
      cases first with
      | none => rfl
      | some q => rw [hplaced, List.filter_cons_of_neg (by simpa using hother q rfl)]

theorem getLast?_filterMap_of_isSome {α β : Type} {f : α → Option β} {xs : List α}
    (h : ∀ x ∈ xs, (f x).isSome = true) : (xs.filterMap f).getLast? = xs.getLast?.bind f := by
  rw [List.getLast?_filterMap]
  rcases List.eq_nil_or_concat xs with rfl | ⟨front, x, rfl⟩
  · rfl
  · obtain ⟨y, hy⟩ := Option.isSome_iff_exists.1 (h x (by simp))
    simp [hy]

theorem exists_lookup_of_get? (hempty : names.lookup "" = none)
    (h : objects.mapM (placed? height names) = .ok placed) {key : String} {p : Point}
    (hget : ((placed.filterMap id).foldl (fun table p => Table.put p.1 p.2 table)
      ([] : Positions)).get? key = some p) : ∃ name, names.lookup name = some key := by
  rw [Table.get?_foldl_put Prod.fst Prod.snd, Table.get?_nil, Option.or_none,
    Option.map_eq_some_iff] at hget
  obtain ⟨q, hq, -⟩ := hget
  obtain ⟨hmem, hkey⟩ := List.mem_filter.1 (List.mem_of_getLast? hq)
  obtain rfl : q.1 = key := by simpa using hkey
  obtain ⟨_, hplace, rfl⟩ := List.mem_filterMap.1 hmem
  obtain ⟨item, -, hitem⟩ := exists_mem_of_mapM h _ hplace
  obtain ⟨name, hlookup, -⟩ := (placed?_eq_some_iff hempty hitem).1 rfl
  exact ⟨name, hlookup⟩

/-- An id that goes by one name only is put where the last object of that name stands. -/
theorem get?_foldl_placed (hempty : names.lookup "" = none) {name key : String}
    (hname : names.lookup name = some key)
    (hunique : ∀ name', names.lookup name' = some key → name' = name)
    (h : objects.mapM (placed? height names) = .ok placed)
    (hcorner : ∀ item ∈ objects, standsFor name item = true →
      (corner? height item).isSome = true) :
    ((placed.filterMap id).foldl (fun table p => Table.put p.1 p.2 table)
      ([] : Positions)).get? key =
        ((objects.filter (standsFor name)).getLast?).bind (corner? height) := by
  have hall : ∀ item ∈ objects.filter (standsFor name),
      ((corner? height item).map fun p => (key, p)).isSome = true := by
    intro item hitem
    obtain ⟨hmem, hstands⟩ := List.mem_filter.1 hitem
    simpa using hcorner item hmem hstands
  rw [Table.get?_foldl_put Prod.fst Prod.snd, Table.get?_nil, Option.or_none,
    filter_placed hempty hname hunique h, getLast?_filterMap_of_isSome hall]
  cases (objects.filter (standsFor name)).getLast? with
  | none => rfl
  | some item => simp [Function.comp_def]

/-- What the positions in a reply are: every key is an id, and the position of a node is the corner
that the last object that stands for it gives. -/
theorem positionsOf_spec {nodes : List Node} (hdistinct : (nodes.map (·.id)).Nodup) {reply : Value}
    {positions : Positions} (h : positionsOf reply (dotNames nodes) = .ok positions) :
    ∃ fields objects, reply = .object fields ∧
      ((Fields.find? (.text "objects") fields).getD (.list [])).items = .ok objects ∧
      positions.IsUnique ∧ (∀ p ∈ positions, p.1 ∈ nodes.map (·.id)) ∧
      ∀ i (hi : i < nodes.length),
        (∀ item ∈ objects, standsFor (dotName i) item = true →
          (corner? (boxHeight fields) item).isSome = true) ∧
        positions.get? nodes[i].id =
          ((objects.filter (standsFor (dotName i))).getLast?).bind
            (corner? (boxHeight fields)) := by
  simp only [positionsOf, bind_eq_ok_iff] at h
  obtain ⟨fields, hfields, objects, hobjects, placed, hplaced, h⟩ := h
  obtain rfl := asObject_eq_ok_iff.1 hfields
  obtain rfl := Except.ok.inj h
  have hunique : Table.IsUnique ((placed.filterMap id).foldl
      (fun table p => Table.put p.1 p.2 table) ([] : Positions)) :=
    Table.IsUnique.foldl_put Prod.fst Prod.snd _ (by simp [Table.IsUnique])
  refine ⟨fields, objects, rfl, hobjects, hunique, ?_, fun i hi => ?_⟩
  · rintro ⟨key, p⟩ hp
    obtain ⟨name, hlookup⟩ :=
      exists_lookup_of_get? lookup_dotNames_empty hplaced (hunique.mem_iff.1 hp)
    exact mem_ids_of_lookup hlookup
  · have hname := lookup_dotName hi
    have hcorner : ∀ item ∈ objects, standsFor (dotName i) item = true →
        (corner? (boxHeight fields) item).isSome = true := by
      -- All objects have been read, this one too.
      intro item hitem hstands
      obtain ⟨r, hr⟩ := exists_ok_of_mapM hplaced item hitem
      exact corner?_isSome lookup_dotNames_empty hname hr hstands
    exact ⟨hcorner, get?_foldl_placed lookup_dotNames_empty hname
      (fun _ => eq_dotName_of_lookup hdistinct hi) hplaced hcorner⟩

end Reply

theorem answer_eq_ok_iff {limit : Number} {behaviour : Behaviour} {reply : Value} :
    answer limit behaviour = .ok reply ↔
      ∃ stdout stderr, behaviour = .finishes 0 stdout stderr ∧ stdout ≠ "" ∧
        Json.parse stdout = .ok reply := by
  cases behaviour with
  | absent => simp [answer]
  | timesOut =>
    simp only [answer]
    split <;> simp
  | finishes code stdout stderr =>
    by_cases hbad : code ≠ 0 ∨ stdout.isEmpty = true
    · simp only [answer, if_pos hbad, reduceCtorEq, false_iff]
      rintro ⟨out, err, heq, hout, -⟩
      obtain ⟨rfl, rfl, -⟩ := Behaviour.finishes.inj heq
      simp [hout] at hbad
    · simp only [answer, if_neg hbad]
      cases hparse : Json.parse stdout with
      | ok v => simp_all
      | error e => simp_all

theorem layout_eq_ok_iff {nodes : List Node} (hne : nodes ≠ []) {edges : List Edge}
    {options : Options} {behaviour : Behaviour} {positions : Positions} :
    layout nodes edges options behaviour = .ok positions ↔
      ∃ g reply, digraph nodes edges options.direction options.spacing = .ok g ∧
        answer options.timeout behaviour = .ok reply ∧
        positionsOf reply (dotNames nodes) = .ok positions := by
  have hfull : nodes.isEmpty = false := by simpa using hne
  simp only [layout, hfull, Bool.false_eq_true, if_false, bind_eq_ok_iff, mapError_eq_ok_iff]
  constructor
  · rintro ⟨g, hgraph, reply, hanswer, hpositions⟩
    exact ⟨g, reply, hgraph, hanswer, hpositions⟩
  · rintro ⟨g, reply, hgraph, hanswer, hpositions⟩
    exact ⟨g, hgraph, reply, hanswer, hpositions⟩

/-- What the positions of a diagram are taken from: the objects in a reply, each for the node that
it names. Of several for one node the last counts. -/
structure ReadOff (positions : Positions) (nodes : List Node) (fields : Fields)
    (objects : List Value) : Prop where
  listed : ((fields.find? (.text "objects")).getD (.list [])).items = .ok objects
  placed_iff : ∀ i (hi : i < nodes.length), (positions.get? nodes[i].id).isSome = true ↔
    ∃ item ∈ objects, standsFor (dotName i) item = true
  last : ∀ i (hi : i < nodes.length), positions.get? nodes[i].id =
    ((objects.filter (standsFor (dotName i))).getLast?).bind (corner? (boxHeight fields))

/-- Positions return to their own nodes. Graphviz is asked for each node under the name of its place
in the list, and for each edge under the names of its ends; and what comes back under an id is what
the reply says about the node of that name. -/
theorem positions_return_to_their_nodes {nodes : List Node} {edges : List Edge} {options : Options}
    {behaviour : Behaviour} {positions : Positions} (hdistinct : (nodes.map (·.id)).Nodup)
    (h : layout nodes edges options behaviour = .ok positions) :
    (∀ write, Digraph.IsDocumented write →
      ∃ source, dotSource write nodes edges options.direction options.spacing = .ok source ∧
        AsksFor source nodes edges options.direction options.spacing) ∧
    positions.IsUnique ∧ (∀ p ∈ positions, p.1 ∈ nodes.map (·.id)) ∧
    (nodes ≠ [] → ∃ stdout stderr fields objects, behaviour = .finishes 0 stdout stderr ∧
      Json.parse stdout = .ok (.object fields) ∧ ReadOff positions nodes fields objects) := by
  by_cases hempty : nodes = []
  · -- Without nodes Graphviz is not run, so nothing is said about a reply.
    subst hempty
    obtain rfl : [] = positions := Except.ok.inj h
    have hdrawable : Drawable ([] : List Node) edges := by
      refine ⟨by simp, fun e _ hends => ?_⟩
      rw [ends?_dotNames hdistinct] at hends
      cases hends
    exact ⟨fun write hwrite => ⟨_, (dotSource_eq_ok_iff hwrite).2 ⟨hdrawable, rfl⟩,
      asksFor_sourceText hdistinct edges _ _⟩, by simp [Table.IsUnique], by simp,
      fun hne => absurd rfl hne⟩
  · obtain ⟨g, reply, hgraph, hanswer, hpositions⟩ := (layout_eq_ok_iff hempty).1 h
    obtain ⟨hdrawable, -⟩ := digraph_eq_ok_iff.1 hgraph
    obtain ⟨fields, objects, rfl, hobjects, hunique, hkeys, hread⟩ :=
      positionsOf_spec hdistinct hpositions
    obtain ⟨stdout, stderr, hbehaviour, -, hparse⟩ := answer_eq_ok_iff.1 hanswer
    refine ⟨fun write hwrite => ⟨_, (dotSource_eq_ok_iff hwrite).2 ⟨hdrawable, rfl⟩,
      asksFor_sourceText hdistinct edges _ _⟩, hunique, hkeys, fun _ =>
      ⟨stdout, stderr, fields, objects, hbehaviour, hparse, hobjects, ?_,
        fun i hi => (hread i hi).2⟩⟩
    intro i hi
    obtain ⟨hcorner, hlast⟩ := hread i hi
    rw [hlast]
    cases hitems : (objects.filter (standsFor (dotName i))).getLast? with
    | none =>
      have hnone := List.filter_eq_nil_iff.1 (List.getLast?_eq_none_iff.1 hitems)
      simpa using hnone
    | some item =>
      obtain ⟨hmem, hstands⟩ := List.mem_filter.1 (List.mem_of_getLast? hitems)
      simp only [Option.bind_some, hcorner item hmem hstands, true_iff]
      exact ⟨item, hmem, hstands⟩

section Crossed

def replied (fields : List (String × String)) : Value :=
  .object (fields.map fun p => (.text p.1, .text p.2))

/-- A cluster, a stranger and two objects for one node. -/
def crossedReply : String :=
  "\x7b\"objects\":[\x7b\"name\":\"n1\",\"nodes\":\"\"\x7d," ++
    "\x7b\"name\":\"n0\",\"pos\":\"1,2\"\x7d," ++
    "\x7b\"name\":\"n9\",\"pos\":\"5,6\"\x7d,\x7b\"name\":\"n0\",\"pos\":\"3,4\"\x7d]\x7d"

def crossedObjects : List Value :=
  [replied [("name", "n1"), ("nodes", "")], replied [("name", "n0"), ("pos", "1,2")],
    replied [("name", "n9"), ("pos", "5,6")], replied [("name", "n0"), ("pos", "3,4")]]

set_option maxRecDepth 20000 in
theorem parse_crossedReply :
    Json.parse crossedReply = .ok (.object [(.text "objects", .list crossedObjects)]) := by
  cbv

def crossedNodes : List Node :=
  [labelled "n1" "A", labelled "n0" "B", labelled "a:b" "<C>"]

theorem crossed_ids_get_their_positions :
    (crossedNodes.map (·.id)).Nodup ∧ ∃ positions,
      layout crossedNodes [connected "n1" "a:b" ""] {} (.finishes 0 crossedReply "") =
        .ok positions ∧
      positions.get? "n1" = corner? 0 (replied [("name", "n0"), ("pos", "3,4")]) ∧
      positions.get? "n0" = none ∧ positions.get? "a:b" = none := by
  have hdistinct : (crossedNodes.map (·.id)).Nodup := by decide
  have hdrawable : Drawable crossedNodes [connected "n1" "a:b" ""] := by
    refine ⟨?_, by simp [connected, IsTextual]⟩
    simp [crossedNodes, labelled, IsTextual]
  have hreadable : (positionsOf (.object [(.text "objects", .list crossedObjects)])
      (dotNames crossedNodes)).toOption.isSome = true := by decide +kernel
  obtain ⟨positions, hpositions⟩ : ∃ positions, positionsOf
      (.object [(.text "objects", .list crossedObjects)]) (dotNames crossedNodes) =
        .ok positions := by
    cases hread : positionsOf (.object [(.text "objects", .list crossedObjects)])
      (dotNames crossedNodes) with
    | ok positions => exact ⟨positions, rfl⟩
    | error m => simp [hread, Except.toOption] at hreadable
  have hlayout : layout crossedNodes [connected "n1" "a:b" ""] {} (.finishes 0 crossedReply "") =
      .ok positions :=
    (layout_eq_ok_iff (by simp [crossedNodes])).2 ⟨_, _, digraph_eq_ok_iff.2 ⟨hdrawable, rfl⟩,
      answer_eq_ok_iff.2 ⟨crossedReply, "", rfl, by decide, parse_crossedReply⟩, hpositions⟩
  refine ⟨hdistinct, positions, hlayout, ?_⟩
  obtain ⟨-, -, -, hread⟩ := positions_return_to_their_nodes hdistinct hlayout
  obtain ⟨stdout, stderr, fields, objects, hbehaviour, hparse, hreadoff⟩ :=
    hread (by simp [crossedNodes])
  obtain ⟨-, rfl, rfl⟩ := Behaviour.finishes.inj hbehaviour
  obtain rfl := Value.object.inj (Except.ok.inj (parse_crossedReply.symm.trans hparse))
  obtain rfl : crossedObjects = objects := Except.ok.inj hreadoff.listed
  have hnone : ∀ i (hi : i < crossedNodes.length),
      (∀ item ∈ crossedObjects, ¬standsFor (dotName i) item = true) →
        positions.get? crossedNodes[i].id = none := by
    intro i hi hitems
    rw [← Option.not_isSome_iff_eq_none, hreadoff.placed_iff i hi]
    rintro ⟨item, hitem, hstands⟩
    exact hitems item hitem hstands
  refine ⟨?_, hnone 1 (by decide) (by decide +kernel), hnone 2 (by decide) (by decide +kernel)⟩
  have hlast : positions.get? "n1" = _ := hreadoff.last 0 (by decide)
  have hstands : crossedObjects.map (standsFor (dotName 0)) = [false, true, false, true] := by
    decide +kernel
  simp only [crossedObjects, List.map_cons, List.cons.injEq] at hstands
  obtain ⟨h0, h1, h2, h3, -⟩ := hstands
  have hbox : boxHeight [(.text "objects", .list crossedObjects)] = 0 := rfl
  rw [hbox] at hlast
  simpa [crossedObjects, h0, h1, h2, h3] using hlast

end Crossed

end Graphviz
end FlowCanvas.Layout
