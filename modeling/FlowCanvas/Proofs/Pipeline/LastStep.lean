import FlowCanvas.Proofs.Pipeline.Plan
import FlowCanvas.Proofs.Pipeline.Session

namespace FlowCanvas.Pipeline

def Ending.FailedEarly (c : Ending) : Prop :=
  (∃ error, c.result.status = .failed (.diagram error)) ∨
    ∃ message, c.result.status = .failed (.generation message)

/-- What the last step of a call makes of the canvas. -/
inductive Outcome (spare : LayoutEngine) (q : Pipeline) (c : Ending) : Store → Prop where
  | failed (hunchecked : ¬ c.IsChecked) (hstatus : c.FailedEarly) : Outcome spare q c q.store
  | superseded (hchecked : c.IsChecked) (htoken : c.token ≠ q.latest)
      (hstatus : c.result.status = .superseded) : Outcome spare q c q.store
  | rejected (hchecked : c.IsChecked) (htoken : c.token = q.latest) (reason : String)
      (hstatus : c.result.status = .failed (.rejected reason))
      (hlock : q.store.lock = some reason) : Outcome spare q c q.store
  | committed (text : String) (document : Document) (htext : c.text = some text)
      (hparse : Diagram.parse (Diagram.unwrap text) = .ok document) (htoken : c.token = q.latest)
      (hstatus : c.result.status = .committed) (hlock : q.store.lock = none) (run : Run)
      (hrun : run = Run.plan q.settings document c.token c.base) :
      Outcome spare q c { q.store with
        nodes := (run.placedWith (run.outcome (c.engine spare))).nodes
        edges := run.edges
        commits := q.store.commits + 1 }

/-- The last step of a call, from one pipeline to the next. -/
structure Ends (spare : LayoutEngine) (q : Pipeline) (token : Nat) (base : Snapshot)
    (q' : Pipeline) (c : Ending) : Prop where
  token : c.token = token
  base : c.base = base
  before : c.before = q.store
  after : c.after = q'.store
  settings : q'.settings = q.settings
  latest : q'.latest = q.latest
  outcome : Outcome spare q c q'.store

namespace Ends
variable {spare : LayoutEngine} {q q' : Pipeline} {token : Nat} {base : Snapshot} {c : Ending}

theorem store_eq (h : Ends spare q token base q' c) (hstatus : c.result.status ≠ .committed) :
    q'.store = q.store := by
  have houtcome := h.outcome
  generalize q'.store = store at houtcome ⊢
  cases houtcome with
  | failed _ _ => rfl
  | superseded _ _ _ => rfl
  | rejected _ _ _ _ _ => rfl
  | committed _ _ _ _ _ hcommitted => exact absurd hcommitted hstatus

theorem eq_latest (h : Ends spare q token base q' c) (hstatus : c.result.status = .committed) :
    token = q.latest := by
  have houtcome := h.outcome
  generalize q'.store = store at houtcome
  cases houtcome with
  | failed _ hfailed =>
    obtain ⟨error, he⟩ | ⟨message, he⟩ := hfailed <;> cases hstatus.symm.trans he
  | superseded _ _ hsuperseded => cases hstatus.symm.trans hsuperseded
  | rejected _ _ _ hrejected _ => cases hstatus.symm.trans hrejected
  | committed _ _ _ _ hcurrent => exact h.token.symm.trans hcurrent

end Ends

/-- A call that waits for the engine has a text with a document, and its run is that document's. -/
def Waiting.IsPlanned (settings : Settings) : Waiting → Prop
  | .generator _ => True
  | .engine text run => ∃ given document, text = some given ∧
      Diagram.parse (Diagram.unwrap given) = .ok document ∧
      run = Run.plan settings document run.token run.base ∧
      Layout.withoutEngine? run.options run.nodes = none

/-- Two pipelines differ in stage and conversation at most. -/
structure Alike (q q' : Pipeline) : Prop where
  settings : q'.settings = q.settings
  latest : q'.latest = q.latest
  store : q'.store = q.store

/-- Two pipelines differ in stage, conversation and lock at most. -/
structure Steady (q q' : Pipeline) : Prop where
  settings : q'.settings = q.settings
  latest : q'.latest = q.latest
  store : (unlocked q').store = (unlocked q).store

theorem Alike.steady {q q' : Pipeline} (h : Alike q q') : Steady q q' := by
  refine ⟨h.settings, h.latest, ?_⟩
  rw [unlocked, unlocked, h.store]

theorem Steady.snapshot {q q' : Pipeline} (h : Steady q q') :
    q'.store.snapshot = q.store.snapshot := by
  have hstore := h.store
  simp only [unlocked, Store.mk.injEq] at hstore
  rw [Store.snapshot, Store.snapshot, hstore.1, hstore.2.1]

section
variable (spare : LayoutEngine) {q : Pipeline} {text : String} {document : Document} (token : Nat)
  (base : Snapshot)

/-- A call that fails early changes the stage and the conversation at most. -/
theorem ends_of_failedEarly {q' : Pipeline} (hq' : Alike q q') {result : Result}
    (htoken : result.token = token) {text : Option String}
    (hunread : ∀ given document, text = some given →
      Diagram.parse (Diagram.unwrap given) ≠ .ok document)
    (hstatus : (∃ error, result.status = .failed (.diagram error)) ∨
      ∃ message, result.status = .failed (.generation message)) :
    Ends spare q token base q'
      ⟨result, text, none, base, q.store, q'.store⟩ := by
  refine ⟨htoken, rfl, rfl, rfl, hq'.settings, hq'.latest, ?_⟩
  rw [hq'.store]
  refine .failed ?_ ?_
  · rintro ⟨given, document, hgiven, hparse⟩
    exact hunread given document hgiven hparse
  · exact hstatus

/-- A planned run whose nodes are placed ends its call. -/
theorem ends_of_conclude {q₁ : Pipeline} (hq₁ : Alike q q₁)
    (hparse : Diagram.parse (Diagram.unwrap text) = .ok document) {run : Run}
    (hrun : run = Run.plan q.settings document token base)
    (answer : Option (Except Layout.EngineFailure Layout.Positions))
    {placement : Layout.Placement}
    (hplacement : placement =
      run.placedWith (answer.getD (spare run.nodes run.edges run.options)))
    {q' : Pipeline} {result : Result} (hconclude : q₁.conclude run placement = (q', result)) :
    Ends spare q token base q'
      ⟨result, some text, answer, base, q.store, q'.store⟩ := by
  have htoken : result.token = run.token := by
    rw [← conclude_token q₁ run placement, hconclude]
  have hrunToken : run.token = token := by
    rw [hrun]
    rfl
  -- `q₁` differs from `q` in nothing that the last step looks at.
  have hcases := conclude_cases q₁ run placement
  rw [hconclude, hq₁.latest, hq₁.store, hrunToken] at hcases
  rw [hrunToken] at htoken
  subst htoken
  have hchecked : ∃ given document, some text = some given ∧
      Diagram.parse (Diagram.unwrap given) = .ok document := ⟨text, document, rfl, hparse⟩
  obtain ⟨hcurrent, store, hcommit, hleft, hstatus⟩ | ⟨hcurrent, rejection, hcommit, hleft,
    hstatus⟩ | ⟨hstale, hleft, hstatus⟩ := hcases
  · obtain ⟨⟨hlock, -⟩, rfl⟩ := Store.commit_eq_ok_iff.1 hcommit
    obtain rfl : q' = _ := hleft
    subst hplacement
    refine ⟨rfl, rfl, rfl, rfl, hq₁.settings, rfl, ?_⟩
    refine .committed text document rfl hparse ?_ ?_ hlock run hrun
    · exact hcurrent
    · exact hstatus
  · -- An unlocked canvas would have accepted the run.
    obtain ⟨reason, hlock⟩ : ∃ reason, q.store.lock = some reason := by
      obtain ⟨hdecls, -⟩ := Diagram.wellDeclared_of_parse hparse
      apply Option.ne_none_iff_exists'.1
      intro hlock
      rw [hplacement, hrun] at hcommit
      cases hcommit.symm.trans (commit_plan _ _ _ _ _ hdecls _ hlock)
    obtain rfl := Except.error.inj (hcommit.symm.trans (Store.commit_of_lock hlock _ _))
    obtain rfl : q' = _ := hleft
    refine ⟨rfl, rfl, rfl, rfl, hq₁.settings, rfl, ?_⟩
    refine .rejected ?_ ?_ reason ?_ hlock
    · exact hchecked
    · exact hcurrent
    · exact hstatus
  · obtain rfl : q' = _ := hleft
    refine ⟨rfl, rfl, rfl, rfl, hq₁.settings, rfl, ?_⟩
    refine .superseded ?_ ?_ ?_
    · exact hchecked
    · exact hstale
    · exact hstatus

variable {token base}

/-- A call that has its text ends at once, or it waits for the engine with a planned run. -/
inductive GoesOn (spare : LayoutEngine) (q : Pipeline) (token : Nat) (base : Snapshot)
    (text : Option String) : Pipeline × Progress → Prop where
  | ends {q' : Pipeline} {result : Result} (hends : Ends spare q token base q'
      ⟨result, text, none, base, q.store, q'.store⟩) :
      GoesOn spare q token base text (q', .finished result)
  | waits {q' : Pipeline} {run : Run} (hsteady : Steady q q') (htoken : run.token = token)
      (hbase : run.base = base) (hplanned : (Waiting.engine text run).IsPlanned q.settings) :
      GoesOn spare q token base text (q', .awaitsEngine run)

theorem goesOn_execute {q₁ : Pipeline} (hq₁ : Alike q q₁) (text : String) (token : Nat)
    (base : Snapshot) : GoesOn spare q token base (some text) (q₁.execute text token base) := by
  cases hparse : Diagram.parse (Diagram.unwrap text) with
  | error e =>
    obtain ⟨result, hexecute, htoken, hstatus⟩ := execute_of_error q₁ token base hparse
    rw [hexecute]
    refine .ends (ends_of_failedEarly spare token base ?_ htoken ?_ (.inl ⟨e, hstatus⟩))
    · exact ⟨hq₁.settings, hq₁.latest, hq₁.store⟩
    · intro given document hgiven hread
      obtain rfl := Option.some.inj hgiven
      cases hparse.symm.trans hread
  | ok document =>
    -- Without a node to place the run ends at once.
    cases hplaced : Layout.withoutEngine? (Run.plan q₁.settings document token base).options
        (Run.plan q₁.settings document token base).nodes with
    | some placement =>
      rw [execute_of_some q₁ token base hparse hplaced]
      refine .ends (ends_of_conclude spare token base ?_ hparse (by rw [hq₁.settings]) none ?_ rfl)
      · exact ⟨hq₁.settings, hq₁.latest, hq₁.store⟩
      · rw [Run.placedWith, Layout.place, hplaced]
        rfl
    | none =>
      rw [execute_of_none q₁ token base hparse hplaced]
      have halike : Alike q (q₁.enter .layingOut) := ⟨hq₁.settings, hq₁.latest, hq₁.store⟩
      refine .waits halike.steady rfl rfl ⟨text, document, rfl, hparse, ?_, hplaced⟩
      rw [hq₁.settings]
      rfl

theorem goesOn_receive (q : Pipeline) (request : Request) (reply : Reply) :
    GoesOn spare q request.token request.base reply.text? (q.receive request reply) := by
  cases htext : reply.text? with
  | none =>
    obtain ⟨message, hreceive⟩ := receive_of_no_text q request htext
    obtain ⟨result, hfail, htoken, hstatus⟩ :=
      exists_fail_eq q (.generation message) request.token []
    rw [hreceive, hfail]
    refine .ends (ends_of_failedEarly spare _ _ ?_ htoken ?_ (.inr ⟨message, hstatus⟩))
    · exact ⟨rfl, rfl, rfl⟩
    · intro given document hgiven
      cases hgiven
  | some text =>
    rw [receive_of_text q request htext]
    refine goesOn_execute spare ?_ text request.token request.base
    exact ⟨rfl, rfl, rfl⟩

theorem regenerate_false (q : Pipeline) (prompt : String) (image : Option String) :
    ∃ q' result, q.regenerate false prompt image = (q', .finished result) ∧
      GoesOn spare q.issue.1 (q.latest + 1) q.store.snapshot none (q', .finished result) := by
  obtain ⟨result, hfail, htoken, hstatus⟩ := exists_fail_eq q.issue.1
    (.generation "No text generator is configured") (q.latest + 1) []
  refine ⟨{ q.issue.1 with stage := .idle }, result, ?_, ?_⟩
  · exact congrArg (Prod.map id Opening.finished) hfail
  · refine .ends (ends_of_failedEarly spare _ _ ?_ htoken ?_ (.inr ⟨_, hstatus⟩))
    · exact ⟨rfl, rfl, rfl⟩
    · intro given document hgiven
      cases hgiven

theorem ends_resume {q : Pipeline} {text : Option String} {run : Run}
    (h : (Waiting.engine text run).IsPlanned q.settings)
    (outcome : Except Layout.EngineFailure Layout.Positions) :
    Ends spare q run.token run.base (q.resume run outcome).1
      ⟨(q.resume run outcome).2, text, some outcome, run.base, q.store,
        (q.resume run outcome).1.store⟩ := by
  obtain ⟨given, document, rfl, hparse, hrun, hpending⟩ := h
  refine ends_of_conclude spare run.token run.base ⟨rfl, rfl, rfl⟩ hparse hrun (some outcome) ?_ rfl
  rw [Run.placedWith, Layout.place, hpending]
  rfl

end
end FlowCanvas.Pipeline
