import FlowCanvas.Canvas.Store

namespace FlowCanvas.Store

theorem joins_iff {nodes : List Node} {e : Edge} :
    joins nodes e = true ↔ e.source ∈ nodes.map (·.id) ∧ e.target ∈ nodes.map (·.id) := by
  simp [joins]

theorem rejection?_eq_none_iff {s : Store} {nodes : List Node} {edges : List Edge} :
    s.rejection? nodes edges = none ↔
      s.lock = none ∧ (∀ e ∈ edges, joins nodes e = true) ∧ ∀ n ∈ nodes, n.position.isSome := by
  have hedges : edges.find? (!joins nodes ·) = none ↔ ∀ e ∈ edges, joins nodes e = true := by
    simp
  have hnodes : nodes.find? (·.position.isNone) = none ↔ ∀ n ∈ nodes, n.position.isSome := by
    simp [Option.isSome_iff_ne_none]
  rw [← hedges, ← hnodes, rejection?]
  split <;> simp_all

/-- A commit is accepted if the canvas is not locked, every edge joins offered nodes and every node
is placed. -/
theorem commit_eq_ok_iff {s s' : Store} {nodes : List Node} {edges : List Edge} :
    s.commit nodes edges = .ok s' ↔
      (s.lock = none ∧ (∀ e ∈ edges, joins nodes e = true) ∧ ∀ n ∈ nodes, n.position.isSome) ∧
        s' = { s with nodes, edges, commits := s.commits + 1 } := by
  rw [← rejection?_eq_none_iff, commit]
  cases s.rejection? nodes edges with
  | none => simp [eq_comm]
  | some r => simp

theorem commit_of_lock {s : Store} {reason : String} (h : s.lock = some reason)
    (nodes : List Node) (edges : List Edge) : s.commit nodes edges = .error (.locked reason) := by
  simp [commit, rejection?, h]

end FlowCanvas.Store
