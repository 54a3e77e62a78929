import Mathlib.Data.List.Basic
import Mathlib.Data.List.Nodup
import FlowCanvas.Pipeline.Basic

namespace FlowCanvas.Pipeline

/-- The diagram text that a reply brings, unless it is blank. -/
def Reply.text? : Reply → Option String
  | .text answer =>
    if (Text.trim (answer.getD "").toList).isEmpty then none else some (answer.getD "")
  | .refused _ | .crashed _ _ => none

section Receive
variable (q : Pipeline) (request : Request) {reply : Reply}

theorem receive_of_text {text : String} (h : reply.text? = some text) :
    q.receive request reply =
      { q with history := q.history ++ exchange request text }.execute text request.token
        request.base := by
  cases reply with
  | refused message => cases h
  | crashed kind message => cases h
  | text answer =>
    by_cases hblank : (Text.trim (answer.getD "").toList).isEmpty
    · simp [Reply.text?, hblank] at h
    · obtain rfl : answer.getD "" = text := by simpa [Reply.text?, hblank] using h
      simp only [receive, hblank, Bool.false_eq_true, if_false]

theorem receive_of_no_text (h : reply.text? = none) :
    ∃ message, q.receive request reply =
      (q.fail (.generation message) request.token []).map id .finished := by
  cases reply with
  | refused message => exact ⟨_, rfl⟩
  | crashed kind message => exact ⟨_, rfl⟩
  | text answer =>
    by_cases hblank : (Text.trim (answer.getD "").toList).isEmpty
    · simp only [receive, hblank, if_true]
      exact ⟨_, rfl⟩
    · simp [Reply.text?, hblank] at h

end Receive

/-- A call that waits for the generator or, with the text that it got, for the layout engine. -/
inductive Waiting where
  | generator (request : Request)
  | engine (text : Option String) (run : Run)

def Waiting.token : Waiting → Nat
  | generator request => request.token
  | engine _ run => run.token

def Waiting.base : Waiting → Snapshot
  | generator request => request.base
  | engine _ run => run.base

/-- A call that has ended. -/
structure Ending where
  result : Result
  /-- The diagram text that it got, if any. -/
  text : Option String
  /-- What the layout engine answered, if it was asked. -/
  answer : Option (Except Layout.EngineFailure Layout.Positions)
  base : Snapshot
  /-- The canvas just before its last step. -/
  before : Store
  /-- The canvas just after its last step. -/
  after : Store

def Ending.token (c : Ending) : Nat :=
  c.result.token

inductive Entry where
  | started (token : Nat)
  | ended (call : Ending)

def Entry.started? : Entry → Option Nat
  | started token => some token
  | ended _ => none

def Entry.ended? : Entry → Option Ending
  | started _ => none
  | ended call => some call

structure Session where
  pipeline : Pipeline
  waiting : List Waiting
  /-- What has started and ended, in order. -/
  record : List Entry

inductive Event where
  | run (text : String)
  | regenerate (hasGenerator : Bool) (prompt : String) (image : Option String)
  /-- The generator answers the call with a token. -/
  | reply (token : Nat) (reply : Reply)
  /-- The layout engine answers the call with a token. -/
  | answer (token : Nat) (outcome : Except Layout.EngineFailure Layout.Positions)
  | clearHistory
  /-- The canvas begins to refuse commits, or stops doing so. -/
  | lock (reason : Option String)

def Event.isCall : Event → Bool
  | run _ | regenerate _ _ _ => true
  | reply _ _ | answer _ _ | clearHistory | lock _ => false

namespace Session

def start (p : Pipeline) : Session := ⟨p, [], []⟩

def call (s : Session) : Session :=
  { s with record := s.record ++ [.started s.pipeline.issue.2] }

def drop (s : Session) (token : Nat) : Session :=
  { s with waiting := s.waiting.eraseP (·.token = token) }

def close (s : Session) (p : Pipeline) (base : Snapshot) (text : Option String)
    (answer : Option (Except Layout.EngineFailure Layout.Positions)) (result : Result) : Session :=
  { s with
    pipeline := p
    record := s.record ++ [.ended ⟨result, text, answer, base, s.pipeline.store, p.store⟩] }

def proceed (s : Session) (base : Snapshot) (text : Option String) :
    Pipeline × Progress → Session
  | (p, .finished result) => s.close p base text none result
  | (p, .awaitsEngine run) =>
    { s with pipeline := p, waiting := s.waiting ++ [.engine text run] }

def step (s : Session) : Event → Session
  | .run text =>
    s.call.proceed s.pipeline.store.snapshot (some text) (s.pipeline.run text)
  | .regenerate hasGenerator prompt image =>
    match s.pipeline.regenerate hasGenerator prompt image with
    | (p, .finished result) => s.call.close p s.pipeline.store.snapshot none none result
    | (p, .awaitsGenerator request) =>
      { s.call with pipeline := p, waiting := s.waiting ++ [.generator request] }
  | .reply token reply =>
    match s.waiting.find? (·.token = token) with
    | some (.generator request) =>
      (s.drop token).proceed request.base reply.text? (s.pipeline.receive request reply)
    | some (.engine _ _) | none => s
  | .answer token outcome =>
    match s.waiting.find? (·.token = token) with
    | some (.engine text run) =>
      let (p, result) := s.pipeline.resume run outcome
      (s.drop token).close p run.base text (some outcome) result
    | some (.generator _) | none => s
  | .clearHistory => { s with pipeline := s.pipeline.clearHistory }
  | .lock reason =>
    { s with pipeline := { s.pipeline with store := { s.pipeline.store with lock := reason } } }

def run (s : Session) (events : List Event) : Session :=
  events.foldl step s

theorem run_concat (s : Session) (events : List Event) (event : Event) :
    s.run (events ++ [event]) = (s.run events).step event := by
  rw [run, List.foldl_concat, run]

/-- What an event can make of a session. An answer for a call that does not wait for it is
ignored. -/
inductive Moves (s : Session) : Event → Session → Prop where
  | runs (text : String) :
      Moves s (.run text) (s.call.proceed s.pipeline.store.snapshot (some text)
        (s.pipeline.issue.1.execute text (s.pipeline.latest + 1) s.pipeline.store.snapshot))
  | asks (prompt : String) (image : Option String) (request : Request) :
      Moves s (.regenerate true prompt image)
        { s.call with
          pipeline := s.pipeline.issue.1
          waiting := s.waiting ++ [.generator request] }
  | lacksGenerator (prompt : String) (image : Option String) (result : Result) :
      Moves s (.regenerate false prompt image)
        (s.call.close (s.pipeline.issue.1.enter .idle) s.pipeline.store.snapshot none none result)
  | replied (token : Nat) (reply : Reply) (request : Request)
      (hfound : s.waiting.find? (·.token = token) = some (.generator request)) :
      Moves s (.reply token reply)
        ((s.drop token).proceed request.base reply.text? (s.pipeline.receive request reply))
  | answered (token : Nat) (outcome : Except Layout.EngineFailure Layout.Positions)
      (text : Option String) (run : Run)
      (hfound : s.waiting.find? (·.token = token) = some (.engine text run)) :
      Moves s (.answer token outcome)
        ((s.drop token).close (s.pipeline.resume run outcome).1 run.base text (some outcome)
          (s.pipeline.resume run outcome).2)
  | ignored (event : Event) : Moves s event s
  | clears : Moves s .clearHistory { s with pipeline := s.pipeline.clearHistory }
  | locks (reason : Option String) :
      Moves s (.lock reason)
        { s with pipeline := { s.pipeline with store := { s.pipeline.store with lock := reason } } }

theorem moves_step (s : Session) (event : Event) : s.Moves event (s.step event) := by
  cases event with
  | run text => exact .runs text
  | regenerate hasGenerator prompt image =>
    cases hasGenerator with
    | true => exact .asks prompt image _
    | false => exact .lacksGenerator prompt image _
  | reply token reply =>
    rw [step]
    cases hfound : s.waiting.find? (·.token = token) with
    | none => exact .ignored _
    | some w =>
      cases w with
      | engine text run => exact .ignored _
      | generator request => exact .replied token reply request hfound
  | answer token outcome =>
    rw [step]
    cases hfound : s.waiting.find? (·.token = token) with
    | none => exact .ignored _
    | some w =>
      cases w with
      | generator request => exact .ignored _
      | engine text run => exact .answered token outcome text run hfound
  | clearHistory => exact .clears
  | lock reason => exact .locks reason

theorem token_of_find? {s : Session} {token : Nat} {w : Waiting}
    (h : s.waiting.find? (·.token = token) = some w) : w.token = token := by
  have hfirst := List.find?_some h
  exact of_decide_eq_true hfirst

def started (s : Session) : List Nat :=
  s.record.filterMap Entry.started?

def ended (s : Session) : List Ending :=
  s.record.filterMap Entry.ended?

def committed (s : Session) : List Ending :=
  s.ended.filter (·.result.isCommitted)

end Session

theorem concat_eq_append_cons_iff {α : Type} {xs before after : List α} {x y : α} :
    xs ++ [x] = before ++ y :: after ↔
      (before = xs ∧ y = x ∧ after = []) ∨ ∃ r, after = r ++ [x] ∧ xs = before ++ y :: r := by
  constructor
  · intro h
    rcases after.eq_nil_or_concat with rfl | ⟨r, last, rfl⟩
    · obtain ⟨hbefore, hlast⟩ := List.append_inj' h rfl
      exact .inl ⟨hbefore.symm, (List.singleton_inj.1 hlast).symm, rfl⟩
    · rw [List.concat_eq_append, ← List.cons_append, ← List.append_assoc] at h
      obtain ⟨hsplit, hlast⟩ := List.append_inj' h rfl
      obtain rfl := List.singleton_inj.1 hlast
      exact .inr ⟨r, List.concat_eq_append, hsplit⟩
  · rintro (⟨rfl, rfl, rfl⟩ | ⟨r, rfl, rfl⟩)
    · rfl
    · rw [List.append_assoc, List.cons_append]

/-- Another call started after the one with a token. -/
def Overtaken (record : List Entry) (token : Nat) : Prop :=
  ∃ earlier later other,
    record = earlier ++ .started token :: later ∧ .started other ∈ later

/-- A call came as far as the question whether a newer one has started. -/
def Ending.IsChecked (c : Ending) : Prop :=
  ∃ text document, c.text = some text ∧ Diagram.parse (Diagram.unwrap text) = .ok document

/-- The engine that gives a call the answer that it got, and is like another one otherwise. -/
def Ending.engine (c : Ending) (spare : LayoutEngine) : LayoutEngine :=
  fun nodes edges options => c.answer.getD (spare nodes edges options)

/-- Runs the texts of calls one after another, each with the answer that its call got. -/
def replay (spare : LayoutEngine) (p : Pipeline) (calls : List Ending) : Pipeline :=
  calls.foldl (fun p c => (p.runWith (c.engine spare) (c.text.getD "")).1) p

/-- A pipeline whose canvas refuses nothing. -/
def unlocked (p : Pipeline) : Pipeline :=
  { p with store := { p.store with lock := none } }

end FlowCanvas.Pipeline
