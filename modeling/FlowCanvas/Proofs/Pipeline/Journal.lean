import FlowCanvas.Proofs.Pipeline.Conversation

namespace FlowCanvas.Pipeline

/-- The stages that calls have entered, in order, each with the token of its call. -/
abbrev Journal := List (Nat × Stage)

namespace Journal
variable (journal : Journal) (token : Nat) (stages : List Stage)

def of : List Stage :=
  (journal.filter (·.1 = token)).map (·.2)

def last (first : Stage) : Stage :=
  (journal.getLast?.map (·.2)).getD first

def note : Journal :=
  journal ++ stages.map (token, ·)

theorem of_note : (journal.note token stages).of token = journal.of token ++ stages := by
  simp [of, note, List.filter_map, Function.comp_def]

theorem of_note_of_ne {other : Nat} (h : other ≠ token) :
    (journal.note token stages).of other = journal.of other := by
  simp [of, note, List.filter_map, Function.comp_def, Ne.symm h]

theorem last_note_concat (stage first : Stage) :
    (journal.note token (stages ++ [stage])).last first = stage := by
  simp [last, note, ← List.append_assoc]

end Journal

structure Journaled where
  pipeline : Pipeline
  journal : Journal

def Progress.trail : Progress → List Stage
  | finished result => result.trail
  | awaitsEngine run => run.trail

def Waiting.trail : Waiting → List Stage
  | generator _ => []
  | engine _ run => run.trail

namespace Journaled

def enter (j : Journaled) (token : Nat) (stages : List Stage) : Journaled where
  pipeline := stages.foldl Pipeline.enter j.pipeline
  journal := j.journal.note token stages

def trail (j : Journaled) (token : Nat) : List Stage :=
  j.journal.of token

def fail (j : Journaled) (failure : Failure) (token : Nat) : Journaled × Result :=
  let j := j.enter token [.failed, .idle]
  (j, {
    status := .failed failure
    token
    nodes := []
    edges := []
    warnings := []
    dropped := 0
    fallback := false
    trail := j.trail token })

def finish (j : Journaled) (run : Run) (placement : Layout.Placement) (status : Status) :
    Journaled × Result :=
  let j := j.enter run.token [.idle]
  (j, {
    status
    token := run.token
    nodes := placement.nodes
    edges := run.edges
    warnings := run.dangling.map .dangling ++ (placement.error.map .layout).toList
    dropped := run.dangling.length
    fallback := placement.isFallback
    trail := j.trail run.token })

def conclude (j : Journaled) (run : Run) (placement : Layout.Placement) : Journaled × Result :=
  if j.pipeline.isCurrent run.token then
    let j := j.enter run.token [.committing]
    match j.pipeline.store.commit placement.nodes run.edges with
    | .ok store =>
      finish { j with pipeline := { j.pipeline with store } } run placement .committed
    | .error rejection => j.fail (.rejected rejection.message) run.token
  else j.finish run placement .superseded

def draw (j : Journaled) (run : Run) : Journaled × Progress :=
  match Layout.withoutEngine? run.options run.nodes with
  | some placement => (j.conclude run placement).map id .finished
  | none => (j, .awaitsEngine run)

def execute (j : Journaled) (text : String) (token : Nat) (base : Snapshot) :
    Journaled × Progress :=
  let j := j.enter token [.parsing]
  match Diagram.parse (Diagram.unwrap text) with
  | .error error => (j.fail (.diagram error) token).map id .finished
  | .ok document =>
    let j := j.enter token [.validating, .reconciling, .styling, .layingOut]
    j.draw { Run.plan j.pipeline.settings document token base with trail := j.trail token }

def resume (j : Journaled) (run : Run)
    (outcome : Except Layout.EngineFailure Layout.Positions) : Journaled × Result :=
  j.conclude run (Layout.byEngine run.options run.nodes outcome)

def receive (j : Journaled) (request : Request) : Reply → Journaled × Progress
  | .refused message => failed message
  | .crashed kind message => failed (if message.isEmpty then kind else message)
  | .text answer =>
    let text := answer.getD ""
    if (Text.trim text.toList).isEmpty then
      failed "No content in response from the text generator."
    else
      let history := j.pipeline.history ++ exchange request text
      execute { j with pipeline := { j.pipeline with history } } text request.token request.base
where
  failed (message : String) : Journaled × Progress :=
    (j.fail (.generation message) request.token).map id .finished

/-- One event of a session. The events left out enter no stage. -/
def step (s : Session) (journal : Journal) : Event → Session × Journal
  | .run text =>
    let (p, token) := s.pipeline.issue
    let left := execute ⟨p, journal⟩ text token p.store.snapshot
    (s.call.proceed p.store.snapshot (some text) (left.1.pipeline, left.2), left.1.journal)
  | .regenerate false _ _ =>
    let (p, token) := s.pipeline.issue
    let left := fail ⟨p, journal⟩ (.generation "No text generator is configured") token
    (s.call.close left.1.pipeline p.store.snapshot none none left.2, left.1.journal)
  | .reply token reply =>
    match s.waiting.find? (·.token = token) with
    | some (.generator request) =>
      let left := receive ⟨s.pipeline, journal⟩ request reply
      ((s.drop token).proceed request.base reply.text? (left.1.pipeline, left.2), left.1.journal)
    | some (.engine _ _) | none => (s, journal)
  | .answer token outcome =>
    match s.waiting.find? (·.token = token) with
    | some (.engine text run) =>
      let left := resume ⟨s.pipeline, journal⟩ run outcome
      ((s.drop token).close left.1.pipeline run.base text (some outcome) left.2, left.1.journal)
    | some (.generator _) | none => (s, journal)
  | event => (s.step event, journal)

def run (s : Session) (journal : Journal) (events : List Event) : Session × Journal :=
  events.foldl (fun (s, journal) event => step s journal event) (s, journal)

/-- A step of one call does the same with a journal as without. It enters stages for that call only,
and the trail that it leaves is what the journal has for the call. -/
structure Follows {α : Type} (trailOf : α → List Stage) (token : Nat) (journal : Journal)
    (plain : Pipeline × α) (journaled : Journaled × α) : Prop where
  pipeline : journaled.1.pipeline = plain.1
  outcome : journaled.2 = plain.2
  own : journaled.1.trail token = trailOf plain.2
  others : ∀ other, other ≠ token → journaled.1.trail other = journal.of other
  stage : ∀ first, journaled.1.journal.last first = plain.1.stage

section Steps
variable (j : Journaled) (token : Nat)

theorem Follows.of_enter {α : Type} {trailOf : α → List Stage} {plain : Pipeline × α}
    {journaled : Journaled × α} (stages : List Stage)
    (h : Follows trailOf token (j.enter token stages).journal plain journaled) :
    Follows trailOf token j.journal plain journaled := by
  refine ⟨h.pipeline, h.outcome, h.own, fun other hother => ?_, h.stage⟩
  rw [h.others other hother]
  exact Journal.of_note_of_ne j.journal token stages hother

theorem Follows.finished {plain : Pipeline × Result} {journaled : Journaled × Result}
    {journal : Journal} (h : Follows Result.trail token journal plain journaled) :
    Follows Progress.trail token journal (plain.map id .finished)
      (journaled.map id .finished) :=
  ⟨h.pipeline, congrArg Progress.finished h.outcome, h.own, h.others, h.stage⟩

theorem follows_fail (failure : Failure) :
    Follows Result.trail token j.journal (j.pipeline.fail failure token (j.trail token))
      (j.fail failure token) := by
  have hown : (j.enter token [.failed, .idle]).trail token = j.trail token ++ [.failed, .idle] :=
    Journal.of_note j.journal token _
  refine ⟨rfl, ?_, hown, fun other hother => ?_, fun first => ?_⟩
  · rw [fail, hown]
    rfl
  · exact Journal.of_note_of_ne j.journal token _ hother
  · exact Journal.last_note_concat j.journal token [.failed] .idle first

theorem follows_finish (run : Run) (placement : Layout.Placement) (status : Status) :
    Follows Result.trail run.token j.journal
      (j.pipeline.enter .idle, {
        status
        token := run.token
        nodes := placement.nodes
        edges := run.edges
        warnings := run.dangling.map .dangling ++ (placement.error.map .layout).toList
        dropped := run.dangling.length
        fallback := placement.isFallback
        trail := j.trail run.token ++ [.idle] })
      (j.finish run placement status) := by
  have hown : (j.enter run.token [.idle]).trail run.token = j.trail run.token ++ [.idle] :=
    Journal.of_note j.journal run.token _
  refine ⟨rfl, ?_, hown, fun other hother => ?_, fun first => ?_⟩
  · rw [finish, hown]
  · exact Journal.of_note_of_ne j.journal run.token _ hother
  · exact Journal.last_note_concat j.journal run.token [] .idle first

theorem follows_conclude (run : Run) (placement : Layout.Placement)
    (htrail : j.trail run.token = run.trail) :
    Follows Result.trail run.token j.journal (j.pipeline.conclude run placement)
      (j.conclude run placement) := by
  have hcommitting : (j.enter run.token [.committing]).trail run.token =
      run.trail ++ [.committing] := by
    rw [← htrail]
    exact Journal.of_note j.journal run.token _
  unfold conclude Pipeline.conclude
  simp only
  split
  · apply Follows.of_enter j run.token [.committing]
    rw [← hcommitting]
    have hstore : (j.enter run.token [.committing]).pipeline.store = j.pipeline.store := rfl
    rw [hstore]
    cases j.pipeline.store.commit placement.nodes run.edges with
    | ok store =>
      exact follows_finish { j.enter run.token [.committing] with
        pipeline := { (j.enter run.token [.committing]).pipeline with store } } run placement
        .committed
    | error rejection => exact follows_fail (j.enter run.token [.committing]) run.token _
  · rw [← htrail]
    exact j.follows_finish run placement .superseded

theorem follows_draw (run : Run) (htrail : j.trail run.token = run.trail)
    (hstage : ∀ first, j.journal.last first = j.pipeline.stage) :
    Follows Progress.trail run.token j.journal
      (match Layout.withoutEngine? run.options run.nodes with
        | some placement => (j.pipeline.conclude run placement).map id .finished
        | none => (j.pipeline, .awaitsEngine run))
      (j.draw run) := by
  unfold draw
  cases Layout.withoutEngine? run.options run.nodes with
  | some placement => exact (j.follows_conclude run placement htrail).finished
  | none => exact ⟨rfl, rfl, htrail, fun _ _ => rfl, hstage⟩

theorem follows_execute (text : String) (base : Snapshot) (hfresh : j.trail token = []) :
    Follows Progress.trail token j.journal (j.pipeline.execute text token base)
      (j.execute text token base) := by
  let parsed := j.enter token [.parsing]
  have hparsed : parsed.trail token = [.parsing] := by
    have hown := Journal.of_note j.journal token [.parsing]
    exact hown.trans (congrArg (· ++ [Stage.parsing]) hfresh)
  unfold execute Pipeline.execute
  apply Follows.of_enter j token [.parsing]
  cases Diagram.parse (Diagram.unwrap text) with
  | error error =>
    have hfail := parsed.follows_fail token (.diagram error)
    rw [hparsed] at hfail
    exact hfail.finished
  | ok document =>
    apply Follows.of_enter parsed token [.validating, .reconciling, .styling, .layingOut]
    let drawn := parsed.enter token [.validating, .reconciling, .styling, .layingOut]
    let run := Run.plan j.pipeline.settings document token base
    have hdrawn : drawn.trail token = run.trail := by
      have hown :=
        Journal.of_note parsed.journal token [.validating, .reconciling, .styling, .layingOut]
      exact hown.trans (congrArg (· ++ _) hparsed)
    -- A plan says itself which stages its call has entered.
    have hrun : { run with trail := drawn.trail token } = run := by
      rw [hdrawn]
    have hdraw := drawn.follows_draw run hdrawn fun first =>
      Journal.last_note_concat parsed.journal token [.validating, .reconciling, .styling]
        .layingOut first
    show Follows Progress.trail token drawn.journal _
      (drawn.draw { run with trail := drawn.trail token })
    rw [hrun]
    exact hdraw

theorem follows_receive (request : Request) (reply : Reply)
    (hfresh : j.trail request.token = []) :
    Follows Progress.trail request.token j.journal (j.pipeline.receive request reply)
      (j.receive request reply) := by
  have hfailed (message : String) : Follows Progress.trail request.token j.journal
      (Pipeline.receive.failed j.pipeline request message) (receive.failed j request message) := by
    have hfail := j.follows_fail request.token (.generation message)
    rw [hfresh] at hfail
    exact hfail.finished
  cases reply with
  | refused message => exact hfailed message
  | crashed kind message => exact hfailed _
  | text answer =>
    unfold receive Pipeline.receive
    simp only
    split
    · exact hfailed _
    · exact follows_execute { j with pipeline := { j.pipeline with
        history := j.pipeline.history ++ exchange request (answer.getD "") } } request.token
        (answer.getD "") request.base hfresh

end Steps

section Sessions
variable {p : Pipeline} {spare : LayoutEngine} {calls : Nat} {s : Session} {first : Stage}
  {journal : Journal} {token latest : Nat} {base : Snapshot} {text : Option String}

/-- A journal accounts for the stage of a session and for the trails of its calls. -/
structure Accounts (first : Stage) (journal : Journal) (s : Session) : Prop where
  stage : journal.last first = s.pipeline.stage
  waiting : ∀ w ∈ s.waiting, journal.of w.token = w.trail
  ended : ∀ c ∈ s.ended, journal.of c.token = c.result.trail
  later : ∀ other, s.pipeline.latest < other → journal.of other = []

/-- A journal accounts for the trails of all calls but the one that is about to take a step. -/
structure AccountsBut (token latest : Nat) (journal : Journal) (s : Session) : Prop where
  waiting : ∀ w ∈ s.waiting, w.token ≠ token ∧ journal.of w.token = w.trail
  ended : ∀ c ∈ s.ended, c.token ≠ token ∧ journal.of c.token = c.result.trail
  later : ∀ other, latest < other → other ≠ token ∧ journal.of other = []

theorem Accounts.drop (h : Accounts first journal s) (hsound : Sound p spare calls s)
    {w : Waiting} (hfound : s.waiting.find? (·.token = token) = some w) :
    AccountsBut token s.pipeline.latest journal (s.drop token) := by
  have hw := List.mem_of_find?_eq_some hfound
  have htoken : w.token = token := Session.token_of_find? hfound
  refine ⟨fun v hv => ?_, fun c hc => ⟨?_, h.ended c hc⟩, fun other hother => ⟨?_, ?_⟩⟩
  · obtain ⟨hv, hne⟩ := (hsound.mem_drop_iff hfound).1 hv
    exact ⟨hne, h.waiting v hv⟩
  · rw [← htoken]
    exact (List.nodup_append.1 hsound.nodup).2.2 _ (List.mem_map_of_mem hc) _
      (List.mem_map_of_mem hw)
  · have hle := hsound.le_latest (hsound.mem_started_of_waiting hw)
    omega
  · exact h.later other hother

theorem Accounts.call (h : Accounts first journal s) (hsound : Sound p spare calls s) :
    AccountsBut (s.pipeline.latest + 1) (s.pipeline.latest + 1) journal s.call := by
  have hended : s.call.ended = s.ended := ended_concat_started s.record _
  refine ⟨fun w hw => ⟨?_, h.waiting w hw⟩, fun c hc => ?_, fun other hother => ⟨?_, ?_⟩⟩
  · have hle := hsound.le_latest (hsound.mem_started_of_waiting hw)
    omega
  · rw [hended] at hc
    have hle := hsound.le_latest (hsound.mem_started_of_ended hc)
    exact ⟨by omega, h.ended c hc⟩
  · omega
  · exact h.later other (by omega)

theorem AccountsBut.close (h : AccountsBut token latest journal s) {plain : Pipeline × Result}
    {journaled : Journaled × Result} (hfollows : Follows Result.trail token journal plain journaled)
    (htoken : plain.2.token = token) (hlatest : plain.1.latest = latest) (first : Stage)
    (base : Snapshot) (text : Option String)
    (answer : Option (Except Layout.EngineFailure Layout.Positions)) :
    Accounts first journaled.1.journal (s.close plain.1 base text answer plain.2) := by
  refine ⟨hfollows.stage first, fun w hw => ?_, fun c hc => ?_, fun other hother => ?_⟩
  · obtain ⟨hne, htrail⟩ := h.waiting w hw
    exact (hfollows.others _ hne).trans htrail
  · rw [Session.ended, Session.close, ended_concat_ended] at hc
    rcases List.mem_append.1 hc with hc | hc
    · obtain ⟨hne, htrail⟩ := h.ended c hc
      exact (hfollows.others _ hne).trans htrail
    · obtain rfl := List.mem_singleton.1 hc
      show journaled.1.journal.of plain.2.token = plain.2.trail
      rw [htoken]
      exact hfollows.own
  · obtain ⟨hne, hnone⟩ := h.later other (hlatest ▸ hother)
    exact (hfollows.others _ hne).trans hnone

theorem AccountsBut.proceed (h : AccountsBut token latest journal s) {q : Pipeline}
    {plain : Pipeline × Progress} {journaled : Journaled × Progress}
    (hfollows : Follows Progress.trail token journal plain journaled)
    (hgoes : GoesOn spare q token base text plain) (hlatest : q.latest = latest) (first : Stage) :
    Accounts first journaled.1.journal (s.proceed base text plain) := by
  -- The other calls keep their trails, since only stages of this one are noted.
  cases hgoes with
  | @ends q' result hends =>
    have hresult : Follows Result.trail token journal (q', result) (journaled.1, result) :=
      ⟨hfollows.pipeline, rfl, hfollows.own, hfollows.others, hfollows.stage⟩
    exact h.close hresult hends.token (hends.latest.trans hlatest) first base text none
  | @waits q' run hsteady htoken _ _ =>
    refine ⟨hfollows.stage first, fun w hw => ?_, fun c hc => ?_, fun other hother => ?_⟩
    · rcases List.mem_append.1 hw with hw | hw
      · obtain ⟨hne, htrail⟩ := h.waiting w hw
        exact (hfollows.others _ hne).trans htrail
      · obtain rfl := List.mem_singleton.1 hw
        show journaled.1.journal.of run.token = run.trail
        rw [htoken]
        exact hfollows.own
    · obtain ⟨hne, htrail⟩ := h.ended c hc
      exact (hfollows.others _ hne).trans htrail
    · have hother' : q'.latest < other := hother
      rw [hsteady.latest, hlatest] at hother'
      obtain ⟨hne, hnone⟩ := h.later other hother'
      exact (hfollows.others _ hne).trans hnone

theorem Follows.pair_eq {α : Type} {trailOf : α → List Stage} {plain : Pipeline × α}
    {journaled : Journaled × α} (h : Follows trailOf token journal plain journaled) :
    (journaled.1.pipeline, journaled.2) = plain :=
  Prod.ext h.pipeline h.outcome

theorem step_eq (hsound : Sound p spare calls s) (h : Accounts first journal s) (event : Event) :
    (step s journal event).1 = s.step event ∧
      Accounts first (step s journal event).2 (s.step event) := by
  cases event with
  | run text =>
    have hfollows := follows_execute ⟨s.pipeline.issue.1, journal⟩ (s.pipeline.latest + 1) text
      s.pipeline.store.snapshot (h.later _ (Nat.lt_succ_self _))
    have hsame : Alike s.pipeline.issue.1 s.pipeline.issue.1 := ⟨rfl, rfl, rfl⟩
    have hgoes := goesOn_execute spare hsame text (s.pipeline.latest + 1) s.pipeline.store.snapshot
    have haccounts := (h.call hsound).proceed hfollows hgoes rfl first
    rw [Session.step, run_eq, step]
    simp only [Pipeline.issue] at hfollows haccounts ⊢
    rw [hfollows.pair_eq]
    exact ⟨rfl, haccounts⟩
  | regenerate hasGenerator prompt image =>
    cases hasGenerator with
    | true =>
      refine ⟨rfl, h.stage, fun w hw => ?_, fun c hc => ?_, fun other hother => ?_⟩
      · rcases List.mem_append.1 hw with hw | hw
        · exact h.waiting w hw
        · obtain rfl := List.mem_singleton.1 hw
          exact h.later _ (Nat.lt_succ_self _)
      · exact ((h.call hsound).ended c hc).2
      · exact ((h.call hsound).later other hother).2
    | false =>
      have hfollows := follows_fail ⟨s.pipeline.issue.1, journal⟩ (s.pipeline.latest + 1)
        (.generation "No text generator is configured")
      -- No stage has been noted for a token that was not given out yet.
      have hfresh : trail ⟨s.pipeline.issue.1, journal⟩ (s.pipeline.latest + 1) = [] :=
        h.later _ (Nat.lt_succ_self _)
      rw [hfresh] at hfollows
      have haccounts := (h.call hsound).close hfollows rfl rfl first
        s.pipeline.store.snapshot none none
      have hsame := congrArg
        (fun left => s.call.close left.1 s.pipeline.store.snapshot none none left.2)
        hfollows.pair_eq
      exact ⟨hsame, haccounts⟩
  | reply token reply =>
    rw [step, Session.step]
    cases hfound : s.waiting.find? (·.token = token) with
    | none => exact ⟨rfl, h⟩
    | some w =>
      cases w with
      | engine text run => exact ⟨rfl, h⟩
      | generator request =>
        have htoken : request.token = token := Session.token_of_find? hfound
        -- A call that waits for the generator has entered no stage so far.
        have hfresh : journal.of request.token = [] :=
          h.waiting _ (List.mem_of_find?_eq_some hfound)
        have hfollows := follows_receive ⟨s.pipeline, journal⟩ request reply hfresh
        have hgoes := goesOn_receive spare s.pipeline request reply
        have hdrop := h.drop hsound hfound
        rw [← htoken] at hdrop ⊢
        have haccounts := hdrop.proceed hfollows hgoes rfl first
        exact ⟨congrArg ((s.drop request.token).proceed request.base reply.text?) hfollows.pair_eq,
          haccounts⟩
  | answer token outcome =>
    rw [step, Session.step]
    cases hfound : s.waiting.find? (·.token = token) with
    | none => exact ⟨rfl, h⟩
    | some w =>
      cases w with
      | generator request => exact ⟨rfl, h⟩
      | engine text run =>
        have htoken : run.token = token := Session.token_of_find? hfound
        have hwaiting := List.mem_of_find?_eq_some hfound
        have hfollows := follows_conclude ⟨s.pipeline, journal⟩ run
          (Layout.byEngine run.options run.nodes outcome) (h.waiting _ hwaiting)
        have hends := ends_resume spare (hsound.waiting _ hwaiting).planned outcome
        have hdrop := h.drop hsound hfound
        rw [← htoken] at hdrop ⊢
        have haccounts := hdrop.close hfollows hends.token hends.latest first run.base
          text (some outcome)
        have hsame := congrArg
          (fun left => (s.drop run.token).close left.1 run.base text (some outcome) left.2)
          hfollows.pair_eq
        exact ⟨hsame, haccounts⟩
  | clearHistory => exact ⟨rfl, h.stage, h.waiting, h.ended, h.later⟩
  | lock reason => exact ⟨rfl, h.stage, h.waiting, h.ended, h.later⟩

theorem accounts_start (p : Pipeline) : Accounts p.stage [] (Session.start p) := by
  refine ⟨rfl, fun w hw => ?_, fun c hc => ?_, fun _ _ => rfl⟩
  · cases hw
  · cases hc

/-- A session with a journal is the same session, and the journal accounts for it. -/
theorem run_eq (hsound : Sound p spare calls s) (h : Accounts first journal s)
    (events : List Event) :
    (run s journal events).1 = s.run events ∧
      Accounts first (run s journal events).2 (s.run events) := by
  induction events generalizing calls s journal with
  | nil => exact ⟨rfl, h⟩
  | cons event r ih =>
    obtain ⟨hsame, haccounts⟩ := step_eq hsound h event
    have hrest := ih (hsound.step event) haccounts
    rw [← hsame] at hrest
    rw [Session.run, List.foldl_cons, ← hsame]
    exact hrest

end Sessions
end Journaled
end FlowCanvas.Pipeline
