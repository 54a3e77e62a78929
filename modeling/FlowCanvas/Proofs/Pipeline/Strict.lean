import FlowCanvas.Proofs.Layout.Strict
import FlowCanvas.Proofs.Pipeline.Depth

namespace FlowCanvas

/-- The time limit is more than zero, or not a number. -/
def Settings.HasTime (s : Settings) : Prop :=
  s.layout.timeout.atMostZero = false

namespace Strict
open Identity Pipeline

def copied {α : Type} : Option α → Except Breakdown α
  | some a => .ok a
  | none => .error .tooDeep

/-- The node of an assignment. The style of a live one is copied for it. -/
def node (depth : Nat) (keepPositions : Bool) (a : Assignment) : Except Breakdown Node :=
  match a.live with
  | some live => do return { a.node keepPositions with style := ← copied (live.style.copy depth) }
  | none => .ok (a.node keepPositions)

def canvasId (assignments : List Assignment) (declared : String) : Except Breakdown String :=
  match assignments.find? (·.decl.id = declared) with
  | some a => .ok a.id
  | none => .error (.missingKey declared)

def linkFrom (assignments : List Assignment) (index : Nat) :
    List EdgeDecl → Except Breakdown (List Link)
  | [] => .ok []
  | e :: r => do
    let source ← canvasId assignments e.source
    let target ← canvasId assignments e.target
    return ⟨linkId source target index, source, target, e⟩ :: (← linkFrom assignments (index + 1) r)

def reconcile (depth : Nat) (document : Document) (edges : List EdgeDecl) (live : Snapshot)
    (keepPositions : Bool) : Except Breakdown Reconciliation := do
  let pairs := pair (labelIndex live.nodes) [] document.nodes
  let assignments := assign (pairs.filterMap fun p => p.2.map (·.id)) [] pairs
  let nodes ← assignments.mapM (node depth keepPositions)
  return { assignments, nodes, links := ← linkFrom assignments 0 edges }

/-- Options are checked again when their direction is set. -/
def layoutFor (s : Settings) (direction : Direction) : Except Breakdown Layout.Options :=
  if s.followDocument then
    if s.layout.timeout.atMostZero then .error (.invalidTimeout s.layout.timeout)
    else .ok { s.layout with direction }
  else .ok s.layout

def plan (depth : Nat) (settings : Settings) (document : Document) (token : Nat)
    (base : Snapshot) : Except Breakdown Run := do
  let reconciliation ← reconcile depth document document.soundEdges base settings.keepPositions
  return {
    token
    base
    options := ← layoutFor settings document.direction
    nodes := reconciliation.nodes
    edges := reconciliation.links.map (Styling.edgeOf settings.edges)
    dangling := document.dangling
    trail := [.parsing, .validating, .reconciling, .styling, .layingOut] }

def execute (depth : Nat) (p : Pipeline) (text : String) (token : Nat) (base : Snapshot) :
    Except Breakdown (Pipeline × Progress) :=
  match Diagram.parse (Diagram.unwrap text) with
  | .error error => .ok ((p.fail (.diagram error) token [.parsing]).map id .finished)
  | .ok document => do
    let run ← plan depth p.settings document token base
    let p := p.enter .layingOut
    match ← withoutEngine run.options run.nodes with
    | some placement => return (p.conclude run placement).map id .finished
    | none => return (p, .awaitsEngine run)

def receive (depth : Nat) (p : Pipeline) (request : Request) (reply : Reply) :
    Except Breakdown (Pipeline × Progress) :=
  match reply.text? with
  | some text =>
    let p := { p with history := p.history ++ exchange request text }
    execute depth p text request.token request.base
  | none => .ok (p.receive request reply)

def resume (p : Pipeline) (run : Run) (outcome : Except Layout.EngineFailure Layout.Positions) :
    Except Breakdown (Pipeline × Result) := do
  return p.conclude run (← byEngine run.options run.nodes outcome)

def read (depth : Nat) (store : Store) : Except Breakdown Snapshot :=
  copied (store.copy depth)

def regenerate (depth : Nat) (p : Pipeline) (hasGenerator : Bool) (prompt : String)
    (image : Option String) : Except Breakdown (Pipeline × Opening) := do
  let (p, token) := p.issue
  if hasGenerator then
    let base ← read depth p.store
    return (p, .awaitsGenerator ⟨token, base, p.history, prompt, base.summary, image⟩)
  else
    return (p.fail (.generation "No text generator is configured") token []).map id .finished

/-- One event of a session, where copies go so many levels deep. The events left out neither copy
nor look up anything. -/
def step (depth : Nat) (s : Session) : Event → Except Breakdown Session
  | .run text => do
    let (p, token) := s.pipeline.issue
    let base ← read depth p.store
    return s.call.proceed base (some text) (← execute depth p text token base)
  | .regenerate hasGenerator prompt image => do
    match ← regenerate depth s.pipeline hasGenerator prompt image with
    | (p, .finished result) => return s.call.close p s.pipeline.store.snapshot none none result
    | (p, .awaitsGenerator request) =>
      return { s.call with pipeline := p, waiting := s.waiting ++ [.generator request] }
  | .reply token reply =>
    match s.waiting.find? (·.token = token) with
    | some (.generator request) => do
      return (s.drop token).proceed request.base reply.text? (← receive depth s.pipeline request reply)
    | some (.engine _ _) | none => .ok s
  | .answer token outcome =>
    match s.waiting.find? (·.token = token) with
    | some (.engine text run) => do
      let (p, result) ← resume s.pipeline run outcome
      return (s.drop token).close p run.base text (some outcome) result
    | some (.generator _) | none => .ok s
  | event => .ok (s.step event)

def run (depth : Nat) (s : Session) (events : List Event) : Except Breakdown Session :=
  events.foldlM (step depth) s

/-- The session with which its callers go on. A call that could not copy the canvas has taken its
token and done nothing else. -/
def next (depth : Nat) (s : Session) (event : Event) : Session :=
  match step depth s event with
  | .ok s' => s'
  | .error .tooDeep => { s with pipeline := s.pipeline.issue.1 }
  | .error _ => s

def after (depth : Nat) (s : Session) (events : List Event) : Session :=
  events.foldl (next depth) s

section Reconciling
variable {document : Document} {depth : Nat} {base : Snapshot} (keepPositions : Bool)

theorem canvasId_eq {assignments : List Assignment} {declared : String}
    (h : declared ∈ assignments.map (·.decl.id)) :
    canvasId assignments declared = .ok (Identity.canvasId assignments declared) := by
  unfold canvasId Identity.canvasId
  cases hfound : assignments.find? (·.decl.id = declared) with
  | some a => rfl
  | none =>
    obtain ⟨a, ha, hid⟩ := List.mem_map.1 h
    simpa [hid] using List.find?_eq_none.1 hfound a ha

theorem linkFrom_eq {assignments : List Assignment} {edges : List EdgeDecl} (index : Nat)
    (h : ∀ e ∈ edges, e.source ∈ assignments.map (·.decl.id) ∧
      e.target ∈ assignments.map (·.decl.id)) :
    linkFrom assignments index edges = .ok (Identity.linkFrom assignments index edges) := by
  induction edges generalizing index with
  | nil => rfl
  | cons e r ih =>
    obtain ⟨hsource, htarget⟩ := h e List.mem_cons_self
    have hrest := ih (index + 1) fun d hd => h d (List.mem_cons_of_mem _ hd)
    simp [linkFrom, canvasId_eq hsource, canvasId_eq htarget, hrest, Identity.linkFrom, bind,
      Except.bind, pure, Except.pure]

theorem node_eq {a : Assignment}
    (h : ∀ live, a.live = some live → (Value.object live.style).levels ≤ depth) :
    node depth keepPositions a = .ok (a.node keepPositions) := by
  unfold node
  cases hlive : a.live with
  | none => rfl
  | some live =>
    have hcopy : copied (live.style.copy depth) = .ok (a.node keepPositions).style := by
      rw [Fields.copy_eq, if_pos (h live hlive), copied, Assignment.node, hlive]
    exact bind_eq_ok_iff.2 ⟨_, hcopy, rfl⟩

/-- Only connections between declared nodes are rewritten, so each endpoint is found. -/
theorem reconcile_eq (document : Document) (h : base.levels ≤ depth) :
    reconcile depth document document.soundEdges base keepPositions =
      .ok (Identity.reconcile document document.soundEdges base keepPositions) := by
  have hnodes : (Identity.reconcile document document.soundEdges base
      keepPositions).assignments.mapM (node depth keepPositions) =
        .ok (Identity.reconcile document document.soundEdges base keepPositions).nodes := by
    apply mapM_eq_ok
    intro a ha
    exact node_eq keepPositions fun live hlive =>
      levels_style_le (live_mem_of_mem_reconcile ha hlive) h
  have hdeclared : (Identity.reconcile document document.soundEdges base
      keepPositions).assignments.map (·.decl.id) = document.ids := by
    rw [Document.ids, ← map_decl_reconcile document document.soundEdges base keepPositions,
      List.map_map]
    rfl
  have hlinks : linkFrom (Identity.reconcile document document.soundEdges base
      keepPositions).assignments 0 document.soundEdges =
        .ok (Identity.reconcile document document.soundEdges base keepPositions).links := by
    apply linkFrom_eq
    intro e he
    rw [Document.soundEdges_eq] at he
    rw [hdeclared]
    exact Document.isSound_iff.1 (List.mem_filter.1 he).2
  exact bind_eq_ok_iff.2 ⟨_, hnodes, bind_eq_ok_iff.2 ⟨_, hlinks, rfl⟩⟩

end Reconciling

section Steps
variable {p : Pipeline} {settings : Settings} {depth : Nat} {base : Snapshot}

theorem layoutFor_eq (h : settings.HasTime) (direction : Direction) :
    layoutFor settings direction = .ok (settings.layoutFor direction) := by
  unfold layoutFor Settings.layoutFor
  rw [Settings.HasTime] at h
  split
  · simp [h]
  · rfl

theorem plan_eq (h : settings.HasTime) (document : Document) (token : Nat)
    (hbase : base.levels ≤ depth) :
    plan depth settings document token base = .ok (Run.plan settings document token base) := by
  simp [plan, reconcile_eq _ _ hbase, layoutFor_eq h, Run.plan, bind, Except.bind, pure, Except.pure]

theorem execute_eq (h : p.settings.HasTime) (text : String) (token : Nat)
    (hbase : base.levels ≤ depth) :
    execute depth p text token base = .ok (p.execute text token base) := by
  unfold execute Pipeline.execute
  cases Diagram.parse (Diagram.unwrap text) with
  | error error => rfl
  | ok document =>
    simp only [plan_eq h document token hbase, withoutEngine_eq, bind, Except.bind, pure, Except.pure]
    cases Layout.withoutEngine? (Run.plan p.settings document token base).options
      (Run.plan p.settings document token base).nodes <;> rfl

theorem receive_eq (h : p.settings.HasTime) {request : Request}
    (hbase : request.base.levels ≤ depth) (reply : Reply) :
    receive depth p request reply = .ok (p.receive request reply) := by
  cases reply with
  | refused message => rfl
  | crashed kind message => rfl
  | text answer =>
    by_cases hblank : (Text.trim (answer.getD "").toList).isEmpty
    · simp [receive, Reply.text?, hblank]
    · have hkept : ({ p with history := p.history ++ exchange request (answer.getD "") } :
          Pipeline).settings.HasTime := h
      simp only [receive, Reply.text?, hblank, Bool.false_eq_true, if_false, Pipeline.receive,
        execute_eq hkept _ _ hbase]

/-- The time limit of a run that waits for the engine can be shown. -/
theorem isSome_toFloat?_of_isPlanned {text : Option String} {run : Run}
    (h : (Waiting.engine text run).IsPlanned settings) :
    run.options.timeout.toFloat?.isSome := by
  obtain ⟨-, -, -, -, -, hpending⟩ := h
  unfold Layout.withoutEngine? at hpending
  split at hpending
  · cases hpending
  · split at hpending
    · cases hpending
    · next hshown => simpa [Option.isSome_iff_ne_none] using hshown

theorem resume_eq {text : Option String} {run : Run}
    (h : (Waiting.engine text run).IsPlanned settings)
    (outcome : Except Layout.EngineFailure Layout.Positions) :
    resume p run outcome = .ok (p.resume run outcome) := by
  simp [resume, byEngine_eq (isSome_toFloat?_of_isPlanned h), Pipeline.resume, bind, Except.bind,
    pure, Except.pure]

section Copying
variable {store : Store}

theorem read_eq (h : store.snapshot.levels ≤ depth) : read depth store = .ok store.snapshot := by
  rw [read, Store.copy_eq, if_pos h, copied]

theorem read_of_deep (h : depth < store.snapshot.levels) : read depth store = .error .tooDeep := by
  rw [read, Store.copy_eq, if_neg (Nat.not_le.2 h), copied]

theorem regenerate_eq {p : Pipeline} (h : p.store.snapshot.levels ≤ depth) (hasGenerator : Bool)
    (prompt : String) (image : Option String) :
    regenerate depth p hasGenerator prompt image =
      .ok (p.regenerate hasGenerator prompt image) := by
  have hread : read depth p.issue.1.store = .ok p.store.snapshot := read_eq h
  cases hasGenerator with
  | true =>
    simp only [regenerate, if_true, hread, bind, Except.bind, pure, Except.pure]
    rfl
  | false => rfl

end Copying

variable {s : Session}

theorem step_eq (htime : s.pipeline.settings.HasTime)
    (hwaiting : ∀ w ∈ s.waiting, w.IsPlanned s.pipeline.settings) (hshallow : s.IsShallow depth)
    (event : Event) : step depth s event = .ok (s.step event) := by
  cases event with
  | run text =>
    have hissue : s.pipeline.issue.1.settings.HasTime := htime
    have hread : read depth s.pipeline.issue.1.store = .ok s.pipeline.store.snapshot :=
      read_eq hshallow.store
    simp only [step, hread, execute_eq hissue _ _ hshallow.store, bind, Except.bind, pure, Except.pure]
    rfl
  | regenerate hasGenerator prompt image =>
    simp only [step, regenerate_eq hshallow.store, bind, Except.bind]
    cases hasGenerator <;> rfl
  | reply token reply =>
    simp only [step, Session.step]
    cases hfound : s.waiting.find? (·.token = token) with
    | none => rfl
    | some w =>
      cases w with
      | engine text run => rfl
      | generator request =>
        have hbase : request.base.levels ≤ depth :=
          hshallow.waiting _ (List.mem_of_find?_eq_some hfound)
        simp [receive_eq htime hbase, bind, Except.bind, pure, Except.pure]
  | answer token outcome =>
    simp only [step, Session.step]
    cases hfound : s.waiting.find? (·.token = token) with
    | none => rfl
    | some w =>
      cases w with
      | generator request => rfl
      | engine text run =>
        -- The time limit was looked at when the run was planned.
        have hplanned := hwaiting _ (List.mem_of_find?_eq_some hfound)
        simp [resume_eq hplanned, bind, Except.bind, pure, Except.pure]
  | clearHistory => rfl
  | lock reason => rfl

end Steps

section Sessions
variable {p : Pipeline} {spare : LayoutEngine} {calls depth : Nat} {s : Session}

theorem step_eq_of_sound (htime : p.settings.HasTime)
    (hsound : Sound p spare calls s) (hshallow : s.IsShallow depth) (event : Event) :
    step depth s event = .ok (s.step event) := by
  have hsettings : s.pipeline.settings.HasTime := by
    rw [hsound.settings]
    exact htime
  exact step_eq hsettings (fun w hw => (hsound.waiting w hw).planned) hshallow event

theorem run_eq (hdepth : 2 ≤ depth) (htime : p.settings.HasTime) (hsound : Sound p spare calls s)
    (hshallow : s.IsShallow depth) (events : List Event) :
    run depth s events = .ok (s.run events) := by
  induction events generalizing calls s with
  | nil => rfl
  | cons event r ih =>
    rw [run, List.foldlM_cons, step_eq_of_sound htime hsound hshallow event]
    exact ih (hsound.step event) (hshallow.step hdepth hsound event)

theorem next_eq (htime : p.settings.HasTime) (hsound : Sound p spare calls s)
    (hshallow : s.IsShallow depth) (event : Event) : next depth s event = s.step event := by
  rw [next, step_eq_of_sound htime hsound hshallow event]

theorem after_eq (hdepth : 2 ≤ depth) (htime : p.settings.HasTime) (hsound : Sound p spare calls s)
    (hshallow : s.IsShallow depth) (events : List Event) :
    after depth s events = s.run events := by
  induction events generalizing calls s with
  | nil => rfl
  | cons event r ih =>
    rw [after, List.foldl_cons, next_eq htime hsound hshallow event]
    exact ih (hsound.step event) (hshallow.step hdepth hsound event)

/-- On a canvas that cannot be copied no call gets further than its start. -/
structure IsStuck (depth : Nat) (s : Session) : Prop where
  deep : depth < s.pipeline.store.snapshot.levels
  waiting : s.waiting = []
  stage : s.pipeline.stage = .idle

namespace IsStuck

theorem start (h : depth < p.store.snapshot.levels) (hidle : p.stage = .idle) :
    IsStuck depth (Session.start p) :=
  ⟨h, rfl, hidle⟩

theorem step_run (h : IsStuck depth s) (text : String) :
    Strict.step depth s (.run text) = .error .tooDeep := by
  have hread : read depth s.pipeline.issue.1.store = .error .tooDeep := read_of_deep h.deep
  simp only [Strict.step, hread, bind, Except.bind]

/-- An event breaks down as the start of a call, or leaves the canvas as deep as it is. -/
theorem step (h : IsStuck depth s) (event : Event) :
    (event.isCall = true ∧ Strict.step depth s event = .error .tooDeep) ∨
      ∃ s', Strict.step depth s event = .ok s' ∧ IsStuck depth s' := by
  have hread : read depth s.pipeline.issue.1.store = .error .tooDeep := read_of_deep h.deep
  have hnone (token : Nat) : s.waiting.find? (·.token = token) = none := by
    rw [h.waiting]
    rfl
  cases event with
  | run text => exact .inl ⟨rfl, h.step_run text⟩
  | regenerate hasGenerator prompt image =>
    cases hasGenerator with
    | true =>
      refine .inl ⟨rfl, ?_⟩
      simp only [Strict.step, regenerate, if_true, hread, bind, Except.bind]
    | false => exact .inr ⟨_, rfl, h.deep, h.waiting, rfl⟩
  | reply token reply => exact .inr ⟨s, by simp only [Strict.step, hnone], h⟩
  | answer token outcome => exact .inr ⟨s, by simp only [Strict.step, hnone], h⟩
  | clearHistory => exact .inr ⟨_, rfl, h.deep, h.waiting, h.stage⟩
  | lock reason => exact .inr ⟨_, rfl, h.deep, h.waiting, h.stage⟩

theorem next (h : IsStuck depth s) (event : Event) : IsStuck depth (Strict.next depth s event) := by
  rw [Strict.next]
  obtain ⟨-, hbroken⟩ | ⟨s', hstep, hstuck⟩ := h.step event
  · rw [hbroken]
    exact ⟨h.deep, h.waiting, h.stage⟩
  · rw [hstep]
    exact hstuck

theorem after (h : IsStuck depth s) (events : List Event) :
    IsStuck depth (Strict.after depth s events) := by
  induction events generalizing s with
  | nil => exact h
  | cons event r ih => exact ih (h.next event)

end IsStuck
end Sessions
end Strict
end FlowCanvas
