import FlowCanvas.Proofs.Pipeline.Journal

namespace FlowCanvas.Pipeline

def drawing : List Stage :=
  [.parsing, .validating, .reconciling, .styling, .layingOut]

def Status.trail : Status → List Stage
  | .committed => drawing ++ [.committing, .idle]
  | .superseded => drawing ++ [.idle]
  | .failed (.rejected _) => drawing ++ [.committing, .failed, .idle]
  | .failed (.diagram _) => [.parsing, .failed, .idle]
  | .failed (.generation _) => [.failed, .idle]

theorem failed_mem_trail_iff (status : Status) :
    .failed ∈ status.trail ↔ status.name = "failed" := by
  cases status with
  | committed => decide
  | superseded => decide
  | failed failure => cases failure <;> simp [Status.trail, Status.name]

section Results
variable (r : Result)

theorem isSome_failure?_iff : r.failure?.isSome ↔ r.status.name = "failed" := by
  unfold Result.failure?
  cases r.status <;> simp [Status.name]

/-- A result as data shows an error just if it has failed. -/
theorem error_ne_null_iff (warning : Warning → Value) :
    Table.get? "error" (r.toValueWith warning) ≠ some .null ↔ r.status.name = "failed" := by
  rw [← isSome_failure?_iff]
  cases hfailure : r.failure? <;> simp [Result.toValueWith, Table.get?_cons, hfailure]

/-- What a result says of the text that its call got: there was none, or it was not accepted, or
else it was drawn. -/
structure Result.Reports (text : Option String) : Prop where
  trail : r.trail = r.status.trail
  generation : (∃ message, r.status = .failed (.generation message)) ↔ text = none
  diagram : ∀ error, r.status = .failed (.diagram error) ↔
    ∃ given, text = some given ∧ Diagram.parse (Diagram.unwrap given) = .error error

end Results

section Steps
variable (p : Pipeline) {text : String} {result : Result}

theorem reports_conclude {document : Document}
    (hparse : Diagram.parse (Diagram.unwrap text) = .ok document) {run : Run}
    (htrail : run.trail = drawing) (placement : Layout.Placement) :
    (p.conclude run placement).2.Reports (some text) := by
  unfold conclude
  simp only
  split
  · split
    · refine ⟨?_, ?_, ?_⟩ <;> simp [htrail, hparse, Status.trail]
    · refine ⟨?_, ?_, ?_⟩ <;> simp [fail, htrail, hparse, Status.trail]
  · refine ⟨?_, ?_, ?_⟩ <;> simp [htrail, hparse, Status.trail]

theorem reports_execute (token : Nat) (base : Snapshot)
    (h : (p.execute text token base).2 = .finished result) : result.Reports (some text) := by
  cases hparse : Diagram.parse (Diagram.unwrap text) with
  | error error =>
    simp only [execute, hparse] at h
    obtain rfl := Progress.finished.inj h
    refine ⟨rfl, ?_, fun other => ?_⟩
    · simp
    · simp [hparse, eq_comm]
  | ok document =>
    cases hplaced : Layout.withoutEngine? (Run.plan p.settings document token base).options
        (Run.plan p.settings document token base).nodes with
    | some placement =>
      rw [execute_of_some p token base hparse hplaced] at h
      obtain rfl := Progress.finished.inj h
      exact reports_conclude _ hparse rfl placement
    | none =>
      rw [execute_of_none p token base hparse hplaced] at h
      cases h

theorem reports_of_no_text (message : String) (token : Nat) :
    (p.fail (.generation message) token []).2.Reports none := by
  refine ⟨rfl, ?_, fun error => ?_⟩ <;> simp [fail]

theorem reports_receive (request : Request) (reply : Reply)
    (h : (p.receive request reply).2 = .finished result) : result.Reports reply.text? := by
  cases htext : reply.text? with
  | none =>
    obtain ⟨message, hreceive⟩ := receive_of_no_text p request htext
    rw [hreceive] at h
    obtain rfl := Progress.finished.inj h
    exact reports_of_no_text p message request.token
  | some text =>
    rw [receive_of_text p request htext] at h
    exact reports_execute _ _ _ h

end Steps

section Sessions
variable {p : Pipeline} {spare : LayoutEngine} {calls : Nat} {s : Session}

theorem reports_close (h : ∀ c ∈ s.ended, c.result.Reports c.text) {q : Pipeline} {base : Snapshot}
    {text : Option String} {answer : Option (Except Layout.EngineFailure Layout.Positions)}
    {result : Result} (hresult : result.Reports text) :
    ∀ c ∈ (s.close q base text answer result).ended, c.result.Reports c.text := by
  intro c hc
  rw [Session.ended, Session.close, ended_concat_ended] at hc
  rcases List.mem_append.1 hc with hc | hc
  · exact h c hc
  · obtain rfl := List.mem_singleton.1 hc
    exact hresult

theorem reports_proceed (h : ∀ c ∈ s.ended, c.result.Reports c.text) {base : Snapshot}
    {text : Option String} {progress : Pipeline × Progress}
    (hresult : ∀ result, progress.2 = .finished result → result.Reports text) :
    ∀ c ∈ (s.proceed base text progress).ended, c.result.Reports c.text := by
  obtain ⟨q, result | run⟩ := progress
  · exact reports_close h (hresult result rfl)
  · exact h

/-- Every step that ends a call leaves a report that agrees with how it ended. -/
theorem reports_step (hsound : Sound p spare calls s)
    (h : ∀ c ∈ s.ended, c.result.Reports c.text) (event : Event) :
    ∀ c ∈ (s.step event).ended, c.result.Reports c.text := by
  have hcall : ∀ c ∈ s.call.ended, c.result.Reports c.text := by
    rw [Session.ended, Session.call, ended_concat_started]
    exact h
  cases event with
  | run text =>
    rw [Session.step, run_eq]
    exact reports_proceed hcall fun _ => reports_execute _ _ _
  | regenerate hasGenerator prompt image =>
    cases hasGenerator with
    | true => exact hcall
    | false => exact reports_close hcall (reports_of_no_text s.pipeline.issue.1 _ _)
  | reply token reply =>
    rw [Session.step]
    cases hfound : s.waiting.find? (·.token = token) with
    | none => exact h
    | some w =>
      cases w with
      | engine text run => exact h
      | generator request =>
        exact reports_proceed (s := s.drop token) h fun _ => reports_receive _ _ _
  | answer token outcome =>
    rw [Session.step]
    cases hfound : s.waiting.find? (·.token = token) with
    | none => exact h
    | some w =>
      cases w with
      | generator request => exact h
      | engine text run =>
        -- What waits for the engine has been planned from a text that was accepted.
        obtain ⟨given, document, rfl, hparse, hrun, -⟩ :=
          (hsound.waiting _ (List.mem_of_find?_eq_some hfound)).planned
        have htrail : run.trail = drawing := by
          rw [hrun]
          rfl
        exact reports_close (s := s.drop token) h (reports_conclude _ hparse htrail _)
  | clearHistory => exact h
  | lock reason => exact h

theorem reports_run (p : Pipeline) (spare : LayoutEngine) (events : List Event) :
    ∀ c ∈ ((Session.start p).run events).ended, c.result.Reports c.text := by
  induction events using List.reverseRecOn with
  | nil =>
    intro c hc
    cases hc
  | append_singleton events event ih =>
    rw [Session.run_concat]
    exact reports_step ((Sound.start p spare).run events) ih event

end Sessions

/-- The trail of every call is the one that its ending dictates, however calls overlap. It is made
up of the stages that the call has entered itself, though all calls set the same stage of the
pipeline. A call fails with a generation error just if it got no text, and with a diagram error just
if its text is not accepted; and it has a failure, and shows an error, just if its trail does. -/
theorem every_trail_is_dictated (p : Pipeline) (events : List Event) :
    let s := (Session.start p).run events
    let journaled := Journaled.run (Session.start p) [] events
    journaled.1 = s ∧ journaled.2.last p.stage = s.pipeline.stage ∧
    (s.ended.map (·.token) ++ s.waiting.map (·.token)).Nodup ∧
    ∀ c ∈ s.ended,
      c.result.Reports c.text ∧ journaled.2.of c.token = c.result.trail ∧
      (.failed ∈ c.result.trail ↔ c.result.status.name = "failed") ∧
      (c.result.failure?.isSome ↔ c.result.status.name = "failed") ∧
      ∀ warning, Table.get? "error" (c.result.toValueWith warning) ≠ some .null ↔
        c.result.status.name = "failed" := by
  intro s journaled
  let spare : LayoutEngine := fun _ _ _ => .ok []
  have hstart := Sound.start p spare
  obtain ⟨hsame, haccounts⟩ := Journaled.run_eq hstart (Journaled.accounts_start p) events
  refine ⟨hsame, haccounts.stage, (hstart.run events).nodup, fun c hc => ?_⟩
  have hreports := reports_run p spare events c hc
  refine ⟨hreports, haccounts.ended c hc, ?_, isSome_failure?_iff _, error_ne_null_iff _⟩
  rw [hreports.trail]
  exact failed_mem_trail_iff _

/-- One run overtakes another, and a request fails in between. -/
example :
    let s := (Session.start (ofStore .empty {})).run
      [.run "[start] A", .run "[end] B", .regenerate true "C" none, .reply 3 (.refused "busy"),
        .answer 2 (.ok []), .answer 1 (.ok [])]
    s.ended.map (fun c => (c.token, c.result.trail)) =
      [(3, [.failed, .idle]), (2, drawing ++ [.idle]), (1, drawing ++ [.idle])] := by
  decide +kernel

end FlowCanvas.Pipeline
