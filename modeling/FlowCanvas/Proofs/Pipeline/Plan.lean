import FlowCanvas.Proofs.Canvas.Store
import FlowCanvas.Proofs.Diagram.Draft
import FlowCanvas.Proofs.Diagram.Reference
import FlowCanvas.Proofs.Identity.Links
import FlowCanvas.Proofs.Layout.Placement
import FlowCanvas.Proofs.Pipeline.Steps

namespace FlowCanvas.Pipeline
open Identity

section Plan
variable (settings : Settings) (document : Document) (token : Nat) (base : Snapshot)

abbrev reconciled : Reconciliation :=
  reconcile document document.soundEdges base settings.keepPositions

theorem plan_nodes :
    (Run.plan settings document token base).nodes = (reconciled settings document base).nodes := rfl

theorem plan_edges :
    (Run.plan settings document token base).edges =
      (reconciled settings document base).links.map (Styling.edgeOf settings.edges) := rfl

theorem nodup_ids_plan_nodes :
    ((Run.plan settings document token base).nodes.map (·.id)).Nodup := by
  rw [plan_nodes, reconcile_nodes, List.map_map]
  exact nodup_ids_reconcile _ _ _ _

theorem nodup_ids_plan_edges :
    ((Run.plan settings document token base).edges.map (·.id)).Nodup := by
  rw [plan_edges, List.map_map]
  exact nodup_ids_linkFrom _ 0 _

/-- A canvas node shows a declaration: its kind, its label and its sub-label. -/
def Shows (d : NodeDecl) (n : Node) : Prop :=
  n.kind = .text d.kind.name ∧ n.label = d.label ∧
    n.subLabel = (match d.subLabel with
      | some s => .text s
      | none => .null)

theorem forall₂_shows_plan :
    List.Forall₂ Shows document.nodes (Run.plan settings document token base).nodes := by
  rw [plan_nodes, reconcile_nodes,
    ← map_decl_reconcile document document.soundEdges base settings.keepPositions,
    List.forall₂_map_left_iff, List.forall₂_map_right_iff, List.forall₂_same]
  exact fun a _ => ⟨rfl, rfl, rfl⟩

theorem exists_shows_of_mem_plan {n : Node}
    (h : n ∈ (Run.plan settings document token base).nodes) : ∃ d ∈ document.nodes, Shows d n := by
  rw [plan_nodes, reconcile_nodes] at h
  obtain ⟨a, ha, rfl⟩ := List.mem_map.1 h
  refine ⟨a.decl, ?_, rfl, rfl, rfl⟩
  rw [← map_decl_reconcile document document.soundEdges base settings.keepPositions]
  exact List.mem_map_of_mem ha

theorem exists_link_of_mem_plan {e : Edge}
    (h : e ∈ (Run.plan settings document token base).edges) :
    ∃ l : Link, l.decl ∈ document.edges ∧ e = Styling.edgeOf settings.edges l := by
  rw [plan_edges, reconcile_links] at h
  obtain ⟨l, hl, rfl⟩ := List.mem_map.1 h
  have hsound := decl_mem_of_mem_linkFrom _ hl
  rw [Document.soundEdges_eq] at hsound
  exact ⟨l, (List.mem_filter.1 hsound).1, rfl⟩

/-- A canvas edge draws a declared connection under a map of ids. -/
def Draws (identity : List (String × String)) (d : EdgeDecl) (e : Edge) : Prop :=
  (d.source, e.source) ∈ identity ∧ (d.target, e.target) ∈ identity ∧
    e.label = (match d.label with
      | some s => .text s
      | none => .null)

theorem forall₂_draws_plan (hdecls : document.ids.Nodup) :
    List.Forall₂ (Draws (reconciled settings document base).identity) document.soundEdges
      (Run.plan settings document token base).edges := by
  rw [plan_edges, List.forall₂_map_right_iff, reconcile_links]
  have hlinks := forall₂_linkFrom (reconciled settings document base).assignments 0
    document.soundEdges
  have hsound : ∀ d ∈ document.soundEdges, d.source ∈ document.ids ∧ d.target ∈ document.ids := by
    intro d hd
    rw [Document.soundEdges_eq] at hd
    exact Document.isSound_iff.1 (List.mem_filter.1 hd).2
  refine List.forall₂_iff_get.2 ⟨hlinks.length_eq, fun i hi hi' => ?_⟩
  obtain ⟨hdecl, hsource, htarget⟩ := (List.forall₂_iff_get.1 hlinks).2 i hi hi'
  obtain ⟨hs, ht⟩ := hsound _ (List.get_mem document.soundEdges ⟨i, hi⟩)
  have hmem {s : String} (hs : s ∈ document.ids) :=
    canvasId_mem_identity document.soundEdges base settings.keepPositions hdecls hs
  refine ⟨?_, ?_, ?_⟩
  · simpa only [Styling.edgeOf, hsource] using hmem hs
  · simpa only [Styling.edgeOf, htarget] using hmem ht
  · rw [← hdecl]
    rfl

abbrev Run.placedWith (run : Run)
    (outcome : Except Layout.EngineFailure Layout.Positions) : Layout.Placement :=
  Layout.place run.options run.nodes outcome

variable (outcome : Except Layout.EngineFailure Layout.Positions)

theorem exists_placedWith_eq (run : Run) :
    ∃ position?, (run.placedWith outcome).nodes = run.nodes.map (Node.placedBy position?) :=
  Layout.exists_place_eq _ _ _

@[simp] theorem ids_placedWith (run : Run) :
    (run.placedWith outcome).nodes.map (·.id) = run.nodes.map (·.id) := by
  obtain ⟨position?, hnodes⟩ := exists_placedWith_eq outcome run
  rw [hnodes, List.map_map]
  rfl

/-- Every edge of a planned run joins two of its nodes. -/
theorem joins_plan (hdecls : document.ids.Nodup) :
    ∀ e ∈ (Run.plan settings document token base).edges,
      Store.joins ((Run.plan settings document token base).placedWith outcome).nodes e = true := by
  intro e he
  have hdraws := forall₂_draws_plan settings document token base hdecls
  rw [identity_eq_zip] at hdraws
  obtain ⟨i, hi, rfl⟩ := List.mem_iff_getElem.1 he
  have hi' : i < document.soundEdges.length := by rwa [hdraws.length_eq]
  obtain ⟨hsource, htarget, -⟩ := (List.forall₂_iff_get.1 hdraws).2 i hi' hi
  rw [Store.joins_iff, ids_placedWith]
  exact ⟨(List.of_mem_zip hsource).2, (List.of_mem_zip htarget).2⟩

/-- Unless it is locked, a canvas accepts every planned run. -/
theorem commit_plan (hdecls : document.ids.Nodup) (s : Store) (hlock : s.lock = none) :
    s.commit ((Run.plan settings document token base).placedWith outcome).nodes
        (Run.plan settings document token base).edges =
      .ok { s with
        nodes := ((Run.plan settings document token base).placedWith outcome).nodes
        edges := (Run.plan settings document token base).edges
        commits := s.commits + 1 } := by
  refine Store.commit_eq_ok_iff.2 ⟨⟨hlock, ?_, ?_⟩, rfl⟩
  · exact joins_plan settings document token base outcome hdecls
  · exact Layout.isSome_position_of_mem_place _ _ _

end Plan

section RunWith
variable {p : Pipeline} {text : String} (engine : LayoutEngine)

abbrev planned (p : Pipeline) (document : Document) : Run :=
  Run.plan p.settings document (p.latest + 1) p.store.snapshot

abbrev Run.outcome (engine : LayoutEngine) (run : Run) :
    Except Layout.EngineFailure Layout.Positions :=
  engine run.nodes run.edges run.options

abbrev started (p : Pipeline) : Pipeline :=
  { p with latest := p.latest + 1, stage := .layingOut }

/-- What an undisturbed run of a document leaves on a canvas that is not locked. -/
abbrev drawn (p : Pipeline) (engine : LayoutEngine) (document : Document) : Pipeline :=
  { p with
    latest := p.latest + 1
    stage := .idle
    store := { p.store with
      nodes := ((planned p document).placedWith ((planned p document).outcome engine)).nodes
      edges := (planned p document).edges
      commits := p.store.commits + 1 } }

theorem runWith_of_error {e : Diagram.Error}
    (h : Diagram.parse (Diagram.unwrap text) = .error e) :
    (p.runWith engine text).2.status = .failed (.diagram e) := by
  obtain ⟨result, hexecute, -, hstatus⟩ :=
    execute_of_error p.issue.1 (p.latest + 1) p.store.snapshot h
  rw [runWith, run_eq, hexecute]
  exact hstatus

/-- With no other call in between, a run is planned, placed and concluded. -/
theorem runWith_of_ok {document : Document}
    (h : Diagram.parse (Diagram.unwrap text) = .ok document) :
    p.runWith engine text = (started p).conclude (planned p document)
      ((planned p document).placedWith ((planned p document).outcome engine)) := by
  rw [runWith, run_eq, Run.placedWith, Layout.place]
  cases hplaced : Layout.withoutEngine? (planned p document).options (planned p document).nodes with
  | some placement =>
    rw [execute_of_some p.issue.1 _ _ h hplaced]
    rfl
  | none =>
    rw [execute_of_none p.issue.1 _ _ h hplaced]
    rfl

/-- On a canvas that is not locked, the run of a document commits. -/
theorem runWith_of_unlocked {document : Document}
    (h : Diagram.parse (Diagram.unwrap text) = .ok document) (hlock : p.store.lock = none) :
    (p.runWith engine text).2.status = .committed ∧
      (p.runWith engine text).1 = p.drawn engine document := by
  obtain ⟨hdecls, -⟩ := Diagram.wellDeclared_of_parse h
  have haccepted := commit_plan p.settings document (p.latest + 1) p.store.snapshot
    ((planned p document).outcome engine) hdecls p.store hlock
  rw [runWith_of_ok engine h]
  obtain ⟨-, store, hcommit, hpipeline, hstatus⟩ | ⟨-, rejection, hcommit, -⟩ | ⟨htoken, -⟩ :=
    conclude_cases (started p) (planned p document)
      ((planned p document).placedWith ((planned p document).outcome engine))
  · obtain rfl := Except.ok.inj (hcommit.symm.trans haccepted)
    exact ⟨hstatus, hpipeline⟩
  · cases hcommit.symm.trans haccepted
  · exact absurd rfl htoken

/-- A run that commits has read a document, and the canvas was not locked. -/
theorem runWith_committed (h : (p.runWith engine text).2.status = .committed) :
    ∃ document, Diagram.parse (Diagram.unwrap text) = .ok document ∧ p.store.lock = none := by
  cases hparse : Diagram.parse (Diagram.unwrap text) with
  | error e =>
    rw [runWith_of_error engine hparse] at h
    cases h
  | ok document =>
    rw [runWith_of_ok engine hparse] at h
    obtain ⟨-, store, hcommit, -⟩ | ⟨-, rejection, -, -, hstatus⟩ | ⟨-, -, hstatus⟩ :=
      conclude_cases (started p) (planned p document)
        ((planned p document).placedWith ((planned p document).outcome engine))
    · exact ⟨document, rfl, (Store.commit_eq_ok_iff.1 hcommit).1.1⟩
    · rw [hstatus] at h
      cases h
    · rw [hstatus] at h
      cases h

/-- With no other call in between, a run never gives way: it commits unless it fails. -/
theorem failure?_runWith_eq_none_iff :
    (p.runWith engine text).2.failure? = none ↔ (p.runWith engine text).2.status = .committed := by
  have hcurrent : (p.runWith engine text).2.status ≠ .superseded := by
    cases hparse : Diagram.parse (Diagram.unwrap text) with
    | error e =>
      rw [runWith_of_error engine hparse]
      simp
    | ok document =>
      rw [runWith_of_ok engine hparse]
      obtain ⟨-, store, -, -, hstatus⟩ | ⟨-, rejection, -, -, hstatus⟩ | ⟨htoken, -, -⟩ :=
        conclude_cases (started p) (planned p document)
          ((planned p document).placedWith ((planned p document).outcome engine))
      · simp [hstatus]
      · simp [hstatus]
      · exact absurd rfl htoken
  unfold Result.failure?
  cases hstatus : (p.runWith engine text).2.status with
  | committed => simp
  | failed failure => simp
  | superseded => exact absurd hstatus hcurrent

end RunWith
end FlowCanvas.Pipeline
