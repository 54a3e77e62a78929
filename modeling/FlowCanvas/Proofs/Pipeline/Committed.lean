import FlowCanvas.Proofs.Pipeline.Plan

namespace FlowCanvas.Pipeline
open Identity

/-- A run that commits reports one warning for each connection with an endpoint that is not
declared, and then those of the layout. -/
theorem warnings_of_committed {p : Pipeline} (engine : LayoutEngine) {text : String}
    {document : Document} (hparse : Diagram.parse (Diagram.unwrap text) = .ok document)
    (h : (p.runWith engine text).2.status = .committed) :
    (∃ errors : List Layout.Error, (p.runWith engine text).2.warnings =
      (document.edges.filter (!document.isSound ·)).map
        (fun d => .dangling ⟨d.source, d.target, document.missing d, d.line⟩) ++
          errors.map .layout) ∧
    (p.runWith engine text).2.dropped = (document.edges.filter (!document.isSound ·)).length := by
  rw [runWith_of_ok engine hparse] at h ⊢
  obtain ⟨-, -, hwarnings, hdropped⟩ := conclude_report _ _ _ h
  have hdangling : (planned p document).dangling = document.dangling := rfl
  rw [hwarnings, hdropped, hdangling, Document.dangling_eq, List.length_map, List.map_map]
  refine ⟨⟨((planned p document).placedWith
    ((planned p document).outcome engine)).error.toList, ?_⟩, rfl⟩
  generalize ((planned p document).placedWith ((planned p document).outcome engine)).error = error
  cases error <;> rfl

/-- A committed canvas follows its document. Its nodes, with distinct ids and all of them placed,
show the declarations one by one; its edges, with distinct ids and between its own nodes, draw the
connections between declared nodes one by one, under the map of declared ids to canvas ids; and
every other connection leaves one warning. -/
theorem committed_canvas_follows_document (p : Pipeline) (engine : LayoutEngine) (text : String)
    (h : (p.runWith engine text).2.status = .committed) :
    ∃ document, Diagram.parse (Diagram.unwrap text) = .ok document ∧
      let canvas := (p.runWith engine text).1.store
      let result := (p.runWith engine text).2
      let ids := canvas.nodes.map (·.id)
      document.ids.Nodup ∧ ids.Nodup ∧ (canvas.edges.map (·.id)).Nodup ∧
      (∀ e ∈ canvas.edges, e.source ∈ ids ∧ e.target ∈ ids) ∧
      (∀ n ∈ canvas.nodes, n.position.isSome) ∧
      List.Forall₂ Shows document.nodes canvas.nodes ∧
      List.Forall₂ (Draws (document.ids.zip ids)) (document.edges.filter document.isSound)
        canvas.edges ∧
      (∃ errors : List Layout.Error, result.warnings =
        (document.edges.filter (!document.isSound ·)).map
          (fun d => .dangling ⟨d.source, d.target, document.missing d, d.line⟩) ++
            errors.map .layout) ∧
      result.dropped = (document.edges.filter (!document.isSound ·)).length ∧
      canvas.edges.length + result.dropped = document.edges.length := by
  obtain ⟨document, hparse, hlock⟩ := runWith_committed engine h
  obtain ⟨hdecls, -⟩ := Diagram.wellDeclared_of_parse hparse
  obtain ⟨-, hleft⟩ := runWith_of_unlocked engine hparse hlock
  obtain ⟨hwarnings, hdropped⟩ := warnings_of_committed engine hparse h
  refine ⟨document, hparse, ?_⟩
  let run := planned p document
  let placement := run.placedWith (run.outcome engine)
  have hids : placement.nodes.map (·.id) = run.nodes.map (·.id) := ids_placedWith _ run
  have hdraws := forall₂_draws_plan p.settings document (p.latest + 1) p.store.snapshot hdecls
  rw [identity_eq_zip] at hdraws
  intro canvas result ids
  -- The canvas is the planned run with its nodes placed, so each part is a fact about the plan.
  have hcanvasNodes : canvas.nodes = placement.nodes := congrArg (·.store.nodes) hleft
  have hcanvasEdges : canvas.edges = run.edges := congrArg (·.store.edges) hleft
  have hcanvasIds : ids = run.nodes.map (·.id) := by
    rw [← hids, ← hcanvasNodes]
  refine ⟨hdecls, ?_, ?_, ?_, ?_, ?_, ?_, hwarnings, hdropped, ?_⟩
  · rw [hcanvasIds]
    exact nodup_ids_plan_nodes _ _ _ _
  · rw [hcanvasEdges]
    exact nodup_ids_plan_edges _ _ _ _
  · intro e he
    rw [hcanvasEdges] at he
    rw [hcanvasIds, ← hids]
    exact Store.joins_iff.1 (joins_plan _ _ _ _ (run.outcome engine) hdecls e he)
  · rw [hcanvasNodes]
    exact Layout.isSome_position_of_mem_place _ _ _
  · obtain ⟨position?, hnodes⟩ := exists_placedWith_eq (run.outcome engine) run
    rw [hcanvasNodes, hnodes, List.forall₂_map_right_iff]
    exact forall₂_shows_plan p.settings document (p.latest + 1) p.store.snapshot
  · rw [hcanvasIds, hcanvasEdges, ← Document.soundEdges_eq]
    exact hdraws
  · -- Every connection is drawn or reported.
    have hsound := Document.length_soundEdges_add_length_dangling document
    rw [Document.dangling_eq, List.length_map] at hsound
    rw [hcanvasEdges, hdropped, ← hdraws.length_eq]
    exact hsound

/-- A canvas with one id twice and an edge that leads nowhere. -/
def crowdedStore : Store where
  nodes := [
    { id := "x", kind := .null, label := "A", subLabel := .null, position := none, style := [] },
    { id := "x", kind := .null, label := " b ", subLabel := .null, position := none, style := [] }]
  edges := [
    { id := "e", source := "x", target := "gone", kind := .null, animated := false, label := .null,
      style := [] }]
  commits := 0
  lock := none

def partialEngine (_ : List Node) (_ : List Edge) (_ : Layout.Options) :
    Except Layout.EngineFailure Layout.Positions :=
  .ok [("x", ⟨0, 0⟩), ("elsewhere", ⟨1, 1⟩)]

theorem committed_canvas_crowded :
    ((ofStore crowdedStore {}).runWith partialEngine
      "[start] A\n[end] x: B\nA -> x\nA -> C").2.status = .committed ∧
    (((ofStore crowdedStore {}).runWith partialEngine
      "[start] A\n[end] x: B\nA -> x\nA -> C").1.store.nodes.map (·.id)).Nodup ∧
    ((ofStore crowdedStore {}).runWith partialEngine
      "[start] A\n[end] x: B\nA -> x\nA -> C").1.store.nodes.map (·.id) = ["x", "x_1"] := by
  have h : ((ofStore crowdedStore {}).runWith partialEngine
      "[start] A\n[end] x: B\nA -> x\nA -> C").2.status = .committed := by decide +kernel
  obtain ⟨-, -, -, hids, -⟩ := committed_canvas_follows_document _ _ _ h
  exact ⟨h, hids, by decide +kernel⟩

end FlowCanvas.Pipeline
