import FlowCanvas.Proofs.Identity.Regeneration
import FlowCanvas.Proofs.Pipeline.Plan

namespace FlowCanvas.Pipeline
open Identity

section Left
variable (p : Pipeline) (document : Document) (position? : String → Option Point)

abbrev plannedAgain : Run :=
  Run.plan p.settings document (p.latest + 2)
    (leftCanvas (reconciled p.settings document p.store.snapshot) position?
      (planned p document).edges)

theorem edges_plannedAgain (hdecls : document.ids.Nodup) :
    (plannedAgain p document position?).edges = (planned p document).edges := by
  rw [plan_edges, links_again _ _ _ _ _ hdecls]
  rfl

theorem unplaced_plannedAgain (hdecls : document.ids.Nodup) :
    (plannedAgain p document position?).nodes.map Node.unplaced =
      (planned p document).nodes.map Node.unplaced :=
  nodes_again_unplaced _ _ _ _ _ hdecls

/-- Where positions are not kept, the second run asks the engine the same question. -/
theorem placedWith_plannedAgain_of_not_kept (hdecls : document.ids.Nodup)
    (hkeep : p.settings.keepPositions = false) (engine : LayoutEngine) :
    (plannedAgain p document position?).placedWith
        ((plannedAgain p document position?).outcome engine) =
      (planned p document).placedWith ((planned p document).outcome engine) := by
  have hnodes : (plannedAgain p document position?).nodes = (planned p document).nodes := by
    rw [plan_nodes, plan_nodes, reconciled, reconciled, hkeep]
    exact nodes_again_of_not_kept _ _ _ _ hdecls
  have hoptions : (plannedAgain p document position?).options = (planned p document).options := rfl
  rw [Run.placedWith, Run.placedWith, Run.outcome, Run.outcome, hnodes, hoptions,
    edges_plannedAgain p document position? hdecls]

/-- Where positions are kept and no label key is shared, the second run has nothing to place. -/
theorem nodes_plannedAgain_of_kept (hdecls : document.ids.Nodup)
    (hnamed : ∀ d ∈ document.nodes, Label.matchKey d.label ≠ "")
    (hkeep : p.settings.keepPositions = true)
    (hkeys : (document.nodes.map (Label.matchKey ·.label)).Nodup) :
    (plannedAgain p document position?).nodes =
      (planned p document).nodes.map (Node.placedBy position?) := by
  rw [plan_nodes, plan_nodes, reconciled, reconciled, hkeep]
  exact nodes_again_of_kept _ _ _ _ hdecls hkeys hnamed


variable {p document} {left : Pipeline} {text : String} (engine : LayoutEngine)

/-- The second run starts from the canvas that the first one left. -/
theorem exists_planned_eq (hleft : left = p.drawn engine document) :
    ∃ position?, left.store.nodes = (planned p document).nodes.map (Node.placedBy position?) ∧
      planned left document = plannedAgain p document position? := by
  obtain ⟨position?, hplaced⟩ :=
    exists_placedWith_eq ((planned p document).outcome engine) (planned p document)
  have hnodes : left.store.nodes = (planned p document).nodes.map (Node.placedBy position?) := by
    rw [hleft, ← hplaced]
  refine ⟨position?, hnodes, ?_⟩
  have hsnapshot : left.store.snapshot = leftCanvas
      (reconciled p.settings document p.store.snapshot) position? (planned p document).edges := by
    rw [Store.snapshot, hnodes, hleft]
    rfl
  have hlatest : left.latest = p.latest + 1 := by rw [hleft]
  have hsettings : left.settings = p.settings := by rw [hleft]
  rw [planned, hsnapshot, hlatest, hsettings]

theorem nodes_planned_of_kept (hparse : Diagram.parse (Diagram.unwrap text) = .ok document)
    (hleft : left = p.drawn engine document) (hkeep : p.settings.keepPositions = true)
    (hkeys : (document.nodes.map (Label.matchKey ·.label)).Nodup) :
    (planned left document).nodes = left.store.nodes ∧
      Layout.pending (planned left document).nodes = [] := by
  obtain ⟨hdecls, hnamed⟩ := Diagram.wellDeclared_of_parse hparse
  obtain ⟨position?, hnodes, hplan⟩ := exists_planned_eq engine hleft
  have hsame : (planned left document).nodes = left.store.nodes := by
    rw [hplan, hnodes, nodes_plannedAgain_of_kept p document position? hdecls hnamed hkeep hkeys]
  have hall : ∀ n ∈ left.store.nodes, n.position.isSome := by
    rw [hleft]
    exact Layout.isSome_position_of_mem_place _ _ _
  refine ⟨hsame, ?_⟩
  rw [hsame]
  simpa [Layout.pending, Option.isSome_iff_ne_none] using hall

end Left

/-- A text that was committed is committed again, as the same diagram up to the places of nodes. The
places are the same too, if positions are not kept or no two declarations share a label key; if
positions are kept and no key is shared, the engine is not even asked. -/
theorem run_again_of_committed (p : Pipeline) (engine : LayoutEngine) (text : String)
    (h : (p.runWith engine text).2.status = .committed) :
    ∃ document, Diagram.parse (Diagram.unwrap text) = .ok document ∧
      let keysDistinct := (document.nodes.map (Label.matchKey ·.label)).Nodup
      let left := (p.runWith engine text).1
      let again := left.runWith engine text
      again.2.status = .committed ∧
      again.1.store.nodes.map Node.unplaced = left.store.nodes.map Node.unplaced ∧
      again.1.store.edges = left.store.edges ∧
      (p.settings.keepPositions = false ∨ keysDistinct →
        again.1.store.nodes = left.store.nodes) ∧
      (p.settings.keepPositions = true → keysDistinct →
        ∃ result, (left.run text).2 = .finished result) := by
  obtain ⟨document, hparse, hlock⟩ := runWith_committed engine h
  obtain ⟨hdecls, -⟩ := Diagram.wellDeclared_of_parse hparse
  obtain ⟨-, hleft⟩ := runWith_of_unlocked engine hparse hlock
  refine ⟨document, hparse, ?_⟩
  dsimp only
  generalize (p.runWith engine text).1 = left at hleft ⊢
  -- From here on `left` is any pipeline with the canvas of the first run.
  obtain ⟨position?, hnodes, hplan⟩ := exists_planned_eq engine hleft
  have hunlocked : left.store.lock = none := by
    rw [hleft]
    exact hlock
  obtain ⟨hcommitted, hagain⟩ := runWith_of_unlocked engine hparse hunlocked
  rw [hagain]
  dsimp only [drawn, Run.placedWith]
  refine ⟨hcommitted, ?_, ?_, ?_, ?_⟩
  · obtain ⟨place?, hplace⟩ :=
      exists_placedWith_eq ((planned left document).outcome engine) (planned left document)
    have hunplaced := unplaced_plannedAgain p document position? hdecls
    rw [← hplan] at hunplaced
    rw [hnodes, hplace, List.map_map, List.map_map]
    exact hunplaced
  · rw [hplan, edges_plannedAgain p document position? hdecls, hleft]
  · intro hcases
    by_cases hkeep : p.settings.keepPositions = true
    · have hkeys := hcases.resolve_left (by simp [hkeep])
      obtain ⟨hsame, hnone⟩ := nodes_planned_of_kept engine hparse hleft hkeep hkeys
      rw [Layout.place, Layout.withoutEngine?_of_pending_eq_nil hnone]
      exact hsame
    · have hkeep' : p.settings.keepPositions = false := by simpa using hkeep
      rw [hplan, hleft]
      exact congrArg (·.nodes)
        (placedWith_plannedAgain_of_not_kept p document position? hdecls hkeep' engine)
  · intro hkeep hkeys
    obtain ⟨-, hnone⟩ := nodes_planned_of_kept engine hparse hleft hkeep hkeys
    have hrun := execute_of_some left.issue.1 (left.latest + 1) left.store.snapshot hparse
      (Layout.withoutEngine?_of_pending_eq_nil hnone)
    exact ⟨_, congrArg (·.2) hrun⟩

/-- Two declarations with one label key, where the second has a numbered form of the first one's
id. -/
def twins : String := "[start] a: Go\n[end] a_1: go\na -> a_1"

def brokenEngine (_ : List Node) (_ : List Edge) (_ : Layout.Options) :
    Except Layout.EngineFailure Layout.Positions :=
  .error (.crashed "out of order")

theorem run_again_twins :
    ((ofStore .empty { keepPositions := true }).runWith brokenEngine twins).2.status = .committed ∧
    (((ofStore .empty { keepPositions := true }).runWith brokenEngine twins).1.runWith
      brokenEngine twins).2.status = .committed := by
  have h : ((ofStore .empty { keepPositions := true }).runWith brokenEngine twins).2.status =
      .committed := by decide +kernel
  obtain ⟨-, -, hagain, -⟩ := run_again_of_committed _ _ _ h
  exact ⟨h, hagain⟩

end FlowCanvas.Pipeline
