import FlowCanvas.Proofs.Identity.Assignment
import FlowCanvas.Proofs.Layout.Placement

namespace FlowCanvas.Identity

/-- What assigning again can build on: some declarations now take over a node with the id that they
got, and the ids spoken for may have grown by those of the nodes taken over, which no new id
equals. -/
structure Repeats (again : Assignment → Option Node) (claimed claimed' : List String)
    (counters counters' : Counters) (as : List Assignment) : Prop where
  ids : (as.map (·.id)).Nodup
  decls : (as.map (·.decl.id)).Nodup
  last : ∀ a ∈ as, counters'.last a.decl.id = counters.last a.decl.id
  own : ∀ a ∈ as, ∀ n, again a = some n → n.id = a.id
  minted : ∀ a ∈ as, again a = none → a.live = none
  grown : claimed ⊆ claimed'
  free : ∀ a ∈ as, again a = none → a.id ∉ claimed'

namespace Repeats
variable {again : Assignment → Option Node} {claimed claimed' : List String}
  {counters counters' : Counters} {a : Assignment} {as : List Assignment}

theorem ne_of_mem_tail (h : Repeats again claimed claimed' counters counters' (a :: as)) :
    ∀ b ∈ as, b.decl.id ≠ a.decl.id ∧ b.id ≠ a.id := by
  have hids := h.ids
  have hdecls := h.decls
  simp only [List.map_cons, List.nodup_cons] at hids hdecls
  intro b hb
  refine ⟨fun heq => hdecls.1 ?_, fun heq => hids.1 ?_⟩
  · exact List.mem_map.2 ⟨b, hb, heq⟩
  · exact List.mem_map.2 ⟨b, hb, heq⟩

/-- After the head, its id is spoken for both times, and only the counter of its own base may have
changed. -/
theorem tail (h : Repeats again claimed claimed' counters counters' (a :: as))
    {rest rest' : Counters}
    (hrest : ∀ base, base ≠ a.decl.id → rest.last base = counters.last base)
    (hrest' : ∀ base, base ≠ a.decl.id → rest'.last base = counters'.last base) :
    Repeats again (a.id :: claimed) (a.id :: claimed') rest rest' as := by
  have hother := h.ne_of_mem_tail
  refine ⟨(List.nodup_cons.1 h.ids).2, (List.nodup_cons.1 h.decls).2, ?_, ?_, ?_,
    List.cons_subset_cons _ h.grown, ?_⟩
  · intro b hb
    have hne := (hother b hb).1
    rw [hrest' _ hne, hrest _ hne, h.last b (List.mem_cons_of_mem _ hb)]
  · exact fun b hb => h.own b (List.mem_cons_of_mem _ hb)
  · exact fun b hb => h.minted b (List.mem_cons_of_mem _ hb)
  · intro b hb hnone hmem
    rcases List.mem_cons.1 hmem with heq | hmem
    · exact (hother b hb).2 heq
    · exact h.free b (List.mem_cons_of_mem _ hb) hnone hmem

end Repeats

/-- Assigned again, all declarations get the ids that they got before. -/
theorem assign_again {again : Assignment → Option Node} {claimed claimed' : List String}
    {counters counters' : Counters} {pairs : List (NodeDecl × Option Node)}
    (h : Repeats again claimed claimed' counters counters' (assign claimed counters pairs)) :
    assign claimed' counters' ((assign claimed counters pairs).map fun a => (a.decl, again a)) =
      (assign claimed counters pairs).map fun a => { a with live := again a } := by
  -- Declaration by declaration; `Repeats` is what the head leaves for the tail.
  induction pairs generalizing claimed claimed' counters counters' with
  | nil => rfl
  | cons p r ih =>
    obtain ⟨d, live⟩ := p
    obtain ⟨id, rest, hassign, hrest⟩ := assign_cons claimed counters d live r
    rw [hassign] at h ⊢
    have hlast : ∀ base, base ≠ d.id → rest.last base = counters.last base := by
      intro base hbase
      obtain ⟨m, -, -, rfl⟩ | ⟨-, hmint⟩ := hrest
      · rfl
      · have hother := mint_last_of_ne claimed counters hbase
        rwa [hmint] at hother
    cases hagain : again ⟨d, live, id⟩ with
    | some n =>
      have hid : n.id = id := h.own _ List.mem_cons_self n hagain
      simp only [List.map_cons, hagain, assign, hid]
      rw [ih (h.tail hlast fun _ _ => rfl)]
    | none =>
      have hlive : live = none := h.minted _ List.mem_cons_self hagain
      obtain ⟨m, hm, -⟩ | ⟨-, hmint⟩ := hrest
      · cases hlive.symm.trans hm
      · -- Both times the id is minted, and the second search stops where the first one did.
        have hid : (mint d.id claimed counters).1 = id := by rw [hmint]
        have hmint' : (mint d.id claimed' counters').1 = id := by
          rw [← hid]
          refine mint_of_subset h.grown ?_ (h.last _ List.mem_cons_self)
          rw [hid]
          exact h.free _ List.mem_cons_self hagain
        simp only [List.map_cons, hagain, assign, hmint']
        rw [ih (h.tail hlast fun base hbase => mint_last_of_ne claimed' counters' hbase)]

/-- On the canvas that its own declarations make, a declaration takes over its own node, if it is
the first with a label key that is not blank, and no node otherwise. -/
theorem predecessor_of_own_nodes {as : List Assignment} (hdecls : (as.map (·.decl.id)).Nodup)
    {node : Assignment → Node} (hlabel : ∀ a, (node a).label = a.decl.label) {a : Assignment}
    (ha : a ∈ as) :
    predecessor (as.map (·.decl)) (as.map node) a.decl =
      if (as.map (·.decl)).find? (sameKey a.decl) = some a.decl ∧
          Label.matchKey a.decl.label ≠ "" then some (node a) else none := by
  by_cases hfirst : (as.map (·.decl)).find? (sameKey a.decl) = some a.decl
  · have hfound := hfirst
    rw [List.find?_map] at hfound
    obtain ⟨b, hb, hdecl⟩ := Option.map_eq_some_iff.1 hfound
    have hba : b = a :=
      List.inj_on_of_nodup_map hdecls (List.mem_of_find?_eq_some hb) ha (congrArg (·.id) hdecl)
    -- A node bears the label of its declaration, so both searches test the same.
    have hkeys : ((fun n : Node => decide (Label.matchKey n.label = Label.matchKey a.decl.label)) ∘
        node) = sameKey a.decl ∘ Assignment.decl := by
      funext c
      simp [sameKey, hlabel]
    have hbearer : (as.map node).find? (Label.matchKey ·.label = Label.matchKey a.decl.label) =
        some (node a) := by
      rw [List.find?_map, hkeys, hb, hba]
      rfl
    by_cases hkey : Label.matchKey a.decl.label = ""
    · simp [predecessor, hfirst, bearer, hkey]
    · rw [predecessor, if_pos hfirst, if_pos ⟨hfirst, hkey⟩]
      exact bearer_eq_some_iff.2 ⟨hkey, hbearer⟩
  · rw [predecessor, if_neg hfirst, if_neg fun h => hfirst h.1]

section Again
variable {document : Document} (edges : List EdgeDecl) (live : Snapshot) (keepPositions : Bool)
  (position? : String → Option Point) (drawn : List Edge)

def leftCanvas (r : Reconciliation) (position? : String → Option Point) (drawn : List Edge) :
    Snapshot :=
  ⟨r.nodes.map (Node.placedBy position?), drawn⟩

def placedNode (a : Assignment) : Node :=
  (a.node keepPositions).placedBy position?

theorem leftCanvas_nodes (document : Document) :
    (leftCanvas (reconcile document edges live keepPositions) position? drawn).nodes =
      (reconcile document edges live keepPositions).assignments.map
        (placedNode keepPositions position?) := by
  rw [leftCanvas, reconcile_nodes, List.map_map]
  rfl

def again (r : Reconciliation) (a : Assignment) : Option Node :=
  predecessor (r.assignments.map (·.decl))
    (r.assignments.map (placedNode keepPositions position?)) a.decl

theorem again_eq (hdecls : document.ids.Nodup) {a : Assignment}
    (ha : a ∈ (reconcile document edges live keepPositions).assignments) :
    again keepPositions position? (reconcile document edges live keepPositions) a =
      if document.nodes.find? (sameKey a.decl) = some a.decl ∧ Label.matchKey a.decl.label ≠ ""
      then some (placedNode keepPositions position? a) else none := by
  rw [again, predecessor_of_own_nodes (nodup_decl_ids edges live keepPositions hdecls)
    (fun _ => rfl) ha, map_decl_reconcile]

theorem eq_placedNode_of_again (hdecls : document.ids.Nodup) {a : Assignment}
    (ha : a ∈ (reconcile document edges live keepPositions).assignments) {n : Node}
    (h : again keepPositions position? (reconcile document edges live keepPositions) a = some n) :
    n = placedNode keepPositions position? a := by
  rw [again_eq edges live keepPositions position? hdecls ha] at h
  split at h
  · exact (Option.some.inj h).symm
  · cases h

theorem live_eq_none_of_again (hdecls : document.ids.Nodup) {a : Assignment}
    (ha : a ∈ (reconcile document edges live keepPositions).assignments)
    (h : again keepPositions position? (reconcile document edges live keepPositions) a = none) :
    a.live = none := by
  by_contra hsome
  obtain ⟨m, hm⟩ := Option.ne_none_iff_exists'.1 hsome
  have hpair : (a.decl, some m) ∈ pairs document live :=
    (mem_pairs_iff document edges live keepPositions).2 ⟨a, ha, rfl, hm⟩
  have hbearer := lookup_of_mem_pair hpair
  rw [lookup_labelIndex] at hbearer
  rw [again_eq edges live keepPositions position? hdecls ha,
    if_pos ⟨find?_sameKey_of_mem_pair hpair, (bearer_eq_some_iff.1 hbearer).1⟩] at h
  cases h

/-- Reconciled again with the canvas that it left, a document gets the same ids. -/
theorem reconcile_again (hdecls : document.ids.Nodup) :
    let r := reconcile document edges live keepPositions
    (reconcile document edges (leftCanvas r position? drawn) keepPositions).assignments =
      r.assignments.map fun a => { a with live := again keepPositions position? r a } := by
  intro r
  have hids : (r.assignments.map (·.id)).Nodup := nodup_ids_reconcile _ _ _ _
  have hcanvas := leftCanvas_nodes edges live keepPositions position? drawn document
  have hlive : ((leftCanvas r position? drawn).nodes.map (·.id)).Nodup := by
    rw [hcanvas, List.map_map]
    exact hids
  -- The canvas has one node for each assignment, so who takes over what can be read off the
  -- declarations.
  have hpairs : pairs document (leftCanvas r position? drawn) =
      r.assignments.map fun a => (a.decl, again keepPositions position? r a) := by
    rw [pairs, pair_eq_map hdecls.of_map hlive, hcanvas,
      ← map_decl_reconcile document edges live keepPositions, List.map_map]
    rfl
  rw [reconcile_assignments, hpairs]
  have hown {a : Assignment} (ha : a ∈ r.assignments) {n : Node}
      (hn : again keepPositions position? r a = some n) : n.id = a.id := by
    rw [eq_placedNode_of_again edges live keepPositions position? hdecls ha hn]
    rfl
  refine assign_again ⟨hids, nodup_decl_ids edges live keepPositions hdecls, fun _ _ => rfl,
    fun a ha n => hown ha,
    fun a ha => live_eq_none_of_again edges live keepPositions position? hdecls ha, ?_, ?_⟩
  · -- Whoever took a node over takes one over again, with the same id.
    intro id hid
    obtain ⟨d, m, hp, rfl⟩ := mem_takenIds.1 hid
    obtain ⟨a, ha, rfl, hm⟩ := (mem_pairs_iff document edges live keepPositions).1 hp
    cases hagain : again keepPositions position? r a with
    | none =>
      rw [live_eq_none_of_again edges live keepPositions position? hdecls ha hagain] at hm
      cases hm
    | some n =>
      refine mem_takenIds.2 ⟨a.decl, n, List.mem_map.2 ⟨a, ha, by rw [hagain]⟩, ?_⟩
      rw [hown ha hagain, id_of_live ha hm]
  · intro a ha hnone hmem
    obtain ⟨d, n, hp, hid⟩ := mem_takenIds.1 hmem
    obtain ⟨b, hb, heq⟩ := List.mem_map.1 hp
    obtain ⟨rfl, hn⟩ := Prod.mk.inj heq
    have hba : b = a := List.inj_on_of_nodup_map hids hb ha ((hown hb hn).symm.trans hid)
    rw [hba, hnone] at hn
    cases hn

theorem canvasId_map_live (as : List Assignment) (live? : Assignment → Option Node)
    (declared : String) :
    canvasId (as.map fun a => { a with live := live? a }) declared = canvasId as declared := by
  simp [canvasId, List.find?_map, Function.comp_def]

theorem linkFrom_congr {as bs : List Assignment} (h : ∀ id, canvasId as id = canvasId bs id)
    (index : Nat) (edges : List EdgeDecl) : linkFrom as index edges = linkFrom bs index edges := by
  induction edges generalizing index with
  | nil => rfl
  | cons e r ih => simp only [linkFrom, h, ih]

theorem links_again (hdecls : document.ids.Nodup) :
    let r := reconcile document edges live keepPositions
    (reconcile document edges (leftCanvas r position? drawn) keepPositions).links = r.links := by
  intro r
  rw [reconcile_links, reconcile_again edges live keepPositions position? drawn hdecls]
  exact linkFrom_congr (canvasId_map_live _ _) 0 edges

theorem unplaced_node_again (hdecls : document.ids.Nodup) {a : Assignment}
    (ha : a ∈ (reconcile document edges live keepPositions).assignments) {live? : Option Node}
    (h : again keepPositions position? (reconcile document edges live keepPositions) a = live?) :
    (Assignment.node keepPositions { a with live := live? }).unplaced =
      (a.node keepPositions).unplaced := by
  cases live? with
  | none =>
    have hnone := live_eq_none_of_again edges live keepPositions position? hdecls ha h
    simp [Assignment.node, Node.unplaced, hnone]
  | some n =>
    rw [eq_placedNode_of_again edges live keepPositions position? hdecls ha h]
    rfl

theorem nodes_again_unplaced (hdecls : document.ids.Nodup) :
    let r := reconcile document edges live keepPositions
    (reconcile document edges (leftCanvas r position? drawn) keepPositions).nodes.map
      Node.unplaced = r.nodes.map Node.unplaced := by
  intro r
  rw [reconcile_nodes, reconcile_again edges live keepPositions position? drawn hdecls,
    reconcile_nodes, List.map_map, List.map_map, List.map_map]
  exact List.map_congr_left fun a ha =>
    unplaced_node_again edges live keepPositions position? hdecls ha rfl

theorem map_unplaced_reconcile (canvas : Snapshot) :
    (reconcile document edges canvas false).nodes.map Node.unplaced =
      (reconcile document edges canvas false).nodes := by
  rw [reconcile_nodes, List.map_map]
  rfl

theorem nodes_again_of_not_kept (hdecls : document.ids.Nodup) :
    let r := reconcile document edges live false
    (reconcile document edges (leftCanvas r position? drawn) false).nodes = r.nodes := by
  intro r
  have h := nodes_again_unplaced edges live false position? drawn hdecls
  simpa only [map_unplaced_reconcile] using h

theorem find?_sameKey_of_nodup {decls : List NodeDecl}
    (hkeys : (decls.map (Label.matchKey ·.label)).Nodup) {d : NodeDecl} (hd : d ∈ decls) :
    decls.find? (sameKey d) = some d := by
  cases hf : decls.find? (sameKey d) with
  | none => exact absurd (List.find?_eq_none.1 hf d hd) (by simp [sameKey])
  | some e =>
    have hkey : Label.matchKey e.label = Label.matchKey d.label := by
      simpa [sameKey] using List.find?_some hf
    rw [List.inj_on_of_nodup_map hkeys (List.mem_of_find?_eq_some hf) hd hkey]

/-- Where positions are kept and no label key is shared, all nodes stay as they are. -/
theorem nodes_again_of_kept (hdecls : document.ids.Nodup)
    (hkeys : (document.nodes.map (Label.matchKey ·.label)).Nodup)
    (hnamed : ∀ d ∈ document.nodes, Label.matchKey d.label ≠ "") :
    let r := reconcile document edges live true
    (reconcile document edges (leftCanvas r position? drawn) true).nodes =
      (leftCanvas r position? drawn).nodes := by
  intro r
  rw [leftCanvas_nodes, reconcile_nodes,
    reconcile_again edges live true position? drawn hdecls, List.map_map]
  apply List.map_congr_left
  intro a ha
  have hdecl : a.decl ∈ document.nodes := by
    rw [← map_decl_reconcile document edges live true]
    exact List.mem_map_of_mem ha
  have hagain := again_eq edges live true position? hdecls ha
  rw [if_pos ⟨find?_sameKey_of_nodup hkeys hdecl, hnamed _ hdecl⟩] at hagain
  simp only [Function.comp_apply, hagain]
  rfl

end Again

end FlowCanvas.Identity
