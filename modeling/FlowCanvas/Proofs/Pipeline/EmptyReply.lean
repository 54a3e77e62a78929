import FlowCanvas.Proofs.Pipeline.Completion

namespace FlowCanvas.Pipeline

def emptyDocument : Document := ⟨.down, none, [], []⟩

theorem parse_empty : Diagram.parse "" = .ok emptyDocument := rfl

/-- What the run of a document without declarations comes to, for a call with a token. -/
inductive Erases (latest token : Nat) (before : Store) : Status → Store → Prop where
  | superseded (hstale : token ≠ latest) : Erases latest token before .superseded before
  | rejected (hcurrent : token = latest) (reason : String) (hlock : before.lock = some reason) :
      Erases latest token before (.failed (.rejected reason)) before
  | erased (hcurrent : token = latest) (hlock : before.lock = none) :
      Erases latest token before .committed
        { before with nodes := [], edges := [], commits := before.commits + 1 }

theorem Erases.not_generation {latest token : Nat} {before after : Store} {status : Status}
    (h : Erases latest token before status after) (message : String) :
    status ≠ .failed (.generation message) := by
  cases h <;> simp

/-- A text with an empty body is run without asking the engine. -/
theorem execute_of_empty (q : Pipeline) (token : Nat) (base : Snapshot) {text : String}
    (h : Diagram.unwrap text = "") :
    ∃ result, (q.execute text token base).2 = .finished result ∧
      (q.execute text token base).1.history = q.history ∧
      Erases q.latest token q.store result.status (q.execute text token base).1.store := by
  let run := Run.plan q.settings emptyDocument token base
  have hparse : Diagram.parse (Diagram.unwrap text) = .ok emptyDocument := by rw [h, parse_empty]
  have hplaced : Layout.withoutEngine? run.options run.nodes = some ⟨[], false, none⟩ := rfl
  have hexecute := execute_of_some q token base hparse hplaced
  rw [hexecute]
  refine ⟨((q.enter .layingOut).conclude run ⟨[], false, none⟩).2, rfl, ?_⟩
  show ((q.enter .layingOut).conclude run ⟨[], false, none⟩).1.history = q.history ∧
    Erases q.latest token q.store ((q.enter .layingOut).conclude run ⟨[], false, none⟩).2.status
      ((q.enter .layingOut).conclude run ⟨[], false, none⟩).1.store
  obtain ⟨hcurrent, store, hcommit, hleft, hstatus⟩ | ⟨hcurrent, rejection, hcommit, hleft,
    hstatus⟩ | ⟨hstale, hleft, hstatus⟩ := conclude_cases (q.enter .layingOut) run ⟨[], false, none⟩
  · obtain ⟨⟨hlock, -⟩, rfl⟩ := Store.commit_eq_ok_iff.1 hcommit
    rw [hleft, hstatus]
    exact ⟨rfl, .erased hcurrent hlock⟩
  · -- Only a lock can keep an empty diagram off the canvas.
    cases hlock : q.store.lock with
    | none =>
      have haccepted := Store.commit_eq_ok_iff.2 ⟨⟨hlock, List.forall_mem_nil _,
        List.forall_mem_nil _⟩, rfl⟩
      cases hcommit.symm.trans haccepted
    | some reason =>
      obtain rfl := Except.error.inj (hcommit.symm.trans (Store.commit_of_lock hlock _ _))
      rw [hleft, hstatus]
      have hrejected : Erases q.latest token q.store (.failed (.rejected reason)) q.store :=
        .rejected hcurrent reason hlock
      exact ⟨rfl, hrejected⟩
  · rw [hleft, hstatus]
    exact ⟨rfl, .superseded hstale⟩

section Receive
variable (q : Pipeline) (request : Request) (answer : Option String)

theorem receive_of_blank (h : Text.trim (answer.getD "").toList = []) :
    ∃ result, (q.receive request (.text answer)).2 = .finished result ∧
      result.status = .failed (.generation "No content in response from the text generator.") ∧
      Untouched q (q.receive request (.text answer)).1 := by
  simp only [receive, h, List.isEmpty_nil, if_true]
  exact ⟨_, rfl, rfl, ⟨rfl, rfl, rfl⟩⟩

theorem text?_of_not_blank {answer : Option String} (h : Text.trim (answer.getD "").toList ≠ []) :
    (Reply.text answer).text? = some (answer.getD "") := by
  simp [Reply.text?, h]

end Receive

/-- Of the replies with an empty body just the blank ones fail as empty and change nothing. The
others stay in the conversation, and the canvas is erased unless the call has been overtaken or the
canvas is locked. -/
theorem empty_body_refused_iff_blank (q : Pipeline) (request : Request) (answer : Option String)
    (h : Diagram.unwrap (answer.getD "") = "") :
    let left := q.receive request (.text answer)
    ∃ result, left.2 = .finished result ∧
      (((∃ message, result.status = .failed (.generation message)) ∧ Untouched q left.1) ↔
        Text.trim (answer.getD "").toList = []) ∧
      (Text.trim (answer.getD "").toList ≠ [] →
        left.1.history = q.history ++ exchange request (answer.getD "") ∧
          Erases q.latest request.token q.store result.status left.1.store) := by
  intro left
  by_cases hblank : Text.trim (answer.getD "").toList = []
  · obtain ⟨result, hfinished, hstatus, huntouched⟩ := receive_of_blank q request answer hblank
    refine ⟨result, hfinished, iff_of_true ⟨⟨_, hstatus⟩, huntouched⟩ hblank, ?_⟩
    exact fun hfilled => absurd hblank hfilled
  · have hleft : left = { q with history := q.history ++ exchange request (answer.getD "") }.execute
        (answer.getD "") request.token request.base :=
      receive_of_text q request (text?_of_not_blank hblank)
    obtain ⟨result, hfinished, hhistory, herases⟩ := execute_of_empty
      { q with history := q.history ++ exchange request (answer.getD "") } request.token
      request.base h
    rw [← hleft] at hfinished hhistory herases
    refine ⟨result, hfinished, iff_of_false ?_ hblank, fun _ => ⟨hhistory, herases⟩⟩
    rintro ⟨⟨message, hstatus⟩, -⟩
    exact herases.not_generation message hstatus

def loginStore : Store where
  nodes := [
    { id := "n7", kind := .text "process", label := "Login", subLabel := .null,
      position := some ⟨3, 4⟩, style := [] }]
  edges := []
  commits := 0
  lock := none

def loginRequest : Request :=
  ⟨1, loginStore.snapshot, [], "add a home page", loginStore.snapshot.summary, none⟩

def loginPipeline : Pipeline :=
  (ofStore loginStore {}).issue.1

/-- A byte order mark by itself is run as a diagram. -/
theorem byte_order_mark_erases :
    let left := loginPipeline.receive loginRequest (.text (some "\ufeff"))
    Diagram.unwrap "\ufeff" = "" ∧ left.1.store.nodes.length = 0 ∧ left.1.history.length = 2 := by
  have hbody : Diagram.unwrap "\ufeff" = "" := by decide +kernel
  obtain ⟨result, -, -, hkept⟩ := empty_body_refused_iff_blank loginPipeline loginRequest
    (some "\ufeff") hbody
  obtain ⟨hhistory, herases⟩ := hkept (by decide +kernel)
  intro left
  refine ⟨hbody, ?_, ?_⟩
  · generalize result.status = status at herases
    have hleft : Erases 1 1 loginStore status left.1.store := herases
    generalize left.1.store = store at hleft ⊢
    cases hleft with
    | superseded hstale => exact absurd rfl hstale
    | rejected _ reason hlock => cases hlock
    | erased _ _ => rfl
  · rw [hhistory]
    rfl

/-- A fence around nothing is no failure: the call commits, the node is gone, and the reply is
kept. -/
theorem fenced_nothing_erases :
    let reply := String.ofList (Diagram.fenceMark ++ '\n' :: Diagram.fenceMark)
    let left := (Session.start (ofStore loginStore {})).run
      [.regenerate true "add a home page" none, .reply 1 (.text (some reply))]
    Diagram.unwrap reply = "" ∧ left.ended.map (·.result.status) = [.committed] ∧
      left.pipeline.store.nodes.length = 0 ∧ left.pipeline.history.length = 2 := by
  decide +kernel

end FlowCanvas.Pipeline
