import FlowCanvas.Pipeline.Basic

namespace FlowCanvas.Pipeline

theorem exists_fail_eq (p : Pipeline) (failure : Failure) (token : Nat) (trail : List Stage) :
    ∃ result, p.fail failure token trail = ({ p with stage := .idle }, result) ∧
      result.token = token ∧ result.status = .failed failure :=
  ⟨_, rfl, rfl, rfl⟩

theorem run_eq (p : Pipeline) (text : String) :
    p.run text = p.issue.1.execute text (p.latest + 1) p.store.snapshot := rfl

section Conclude
variable (p : Pipeline) (run : Run) (placement : Layout.Placement)

@[simp] theorem conclude_token : (p.conclude run placement).2.token = run.token := by
  unfold conclude
  simp only
  split
  · split <;> rfl
  · rfl

/-- The outcomes of the last step of a run: it commits, the canvas refuses, or a newer call has
started. The canvas changes in the first case only. -/
theorem conclude_cases :
    (run.token = p.latest ∧ ∃ store, p.store.commit placement.nodes run.edges = .ok store ∧
      (p.conclude run placement).1 = { p with store, stage := .idle } ∧
      (p.conclude run placement).2.status = .committed) ∨
    (run.token = p.latest ∧ ∃ rejection,
      p.store.commit placement.nodes run.edges = .error rejection ∧
      (p.conclude run placement).1 = { p with stage := .idle } ∧
      (p.conclude run placement).2.status = .failed (.rejected rejection.message)) ∨
    (run.token ≠ p.latest ∧ (p.conclude run placement).1 = { p with stage := .idle } ∧
      (p.conclude run placement).2.status = .superseded) := by
  by_cases htoken : run.token = p.latest
  · cases hc : p.store.commit placement.nodes run.edges with
    | ok store =>
      refine .inl ⟨htoken, store, rfl, ?_, ?_⟩ <;>
        simp [conclude, isCurrent, htoken, hc]
    | error rejection =>
      refine .inr (.inl ⟨htoken, rejection, rfl, ?_, ?_⟩) <;>
        simp [conclude, isCurrent, htoken, hc, fail, enter]
  · refine .inr (.inr ⟨htoken, ?_, ?_⟩) <;>
      simp [conclude, isCurrent, htoken, enter]

@[simp] theorem history_conclude : (p.conclude run placement).1.history = p.history := by
  obtain ⟨-, store, -, hleft, -⟩ | ⟨-, rejection, -, hleft, -⟩ | ⟨-, hleft, -⟩ :=
    conclude_cases p run placement <;> rw [hleft]

/-- What a run that commits reports. -/
theorem conclude_report (h : (p.conclude run placement).2.status = .committed) :
    (p.conclude run placement).2.nodes = placement.nodes ∧
      (p.conclude run placement).2.edges = run.edges ∧
      (p.conclude run placement).2.warnings =
        run.dangling.map .dangling ++ (placement.error.map .layout).toList ∧
      (p.conclude run placement).2.dropped = run.dangling.length := by
  by_cases htoken : run.token = p.latest
  · cases hc : p.store.commit placement.nodes run.edges with
    | ok store => simp [conclude, isCurrent, htoken, hc]
    | error rejection => simp [conclude, isCurrent, htoken, hc, fail] at h
  · simp [conclude, isCurrent, htoken] at h

end Conclude

section Execute
variable (p : Pipeline) {text : String} (token : Nat) (base : Snapshot)

theorem execute_of_error {e : Diagram.Error} (h : Diagram.parse (Diagram.unwrap text) = .error e) :
    ∃ result, p.execute text token base = ({ p with stage := .idle }, .finished result) ∧
      result.token = token ∧ result.status = .failed (.diagram e) := by
  simp [execute, h, fail, enter]

theorem execute_of_some {document : Document}
    (h : Diagram.parse (Diagram.unwrap text) = .ok document) {placement : Layout.Placement}
    (hplaced : Layout.withoutEngine? (Run.plan p.settings document token base).options
      (Run.plan p.settings document token base).nodes = some placement) :
    p.execute text token base =
      ((p.enter .layingOut).conclude (Run.plan p.settings document token base) placement).map id
        .finished := by
  simp only [execute, h, hplaced]

theorem execute_of_none {document : Document}
    (h : Diagram.parse (Diagram.unwrap text) = .ok document)
    (hplaced : Layout.withoutEngine? (Run.plan p.settings document token base).options
      (Run.plan p.settings document token base).nodes = none) :
    p.execute text token base =
      (p.enter .layingOut, .awaitsEngine (Run.plan p.settings document token base)) := by
  simp only [execute, h, hplaced]

theorem history_execute (text : String) : (p.execute text token base).1.history = p.history := by
  cases hparse : Diagram.parse (Diagram.unwrap text) with
  | error e =>
    obtain ⟨result, hexecute, -, -⟩ := execute_of_error p token base hparse
    rw [hexecute]
  | ok document =>
    cases hplaced : Layout.withoutEngine? (Run.plan p.settings document token base).options
        (Run.plan p.settings document token base).nodes with
    | some placement =>
      rw [execute_of_some p token base hparse hplaced]
      exact history_conclude _ _ _
    | none =>
      rw [execute_of_none p token base hparse hplaced]
      rfl

end Execute

end FlowCanvas.Pipeline
