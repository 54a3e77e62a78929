import FlowCanvas.Proofs.Diagram.Fences
import FlowCanvas.Proofs.Pipeline.Session
import FlowCanvas.Proofs.Pipeline.Steps

namespace FlowCanvas.Pipeline

section History
variable (p : Pipeline) (history : List Message)

/-- The last step of a run does not look at the conversation. -/
theorem conclude_history (run : Run) (placement : Layout.Placement) :
    { p with history }.conclude run placement =
      ({ (p.conclude run placement).1 with history }, (p.conclude run placement).2) := by
  by_cases htoken : run.token = p.latest
  · cases hc : p.store.commit placement.nodes run.edges with
    | ok store => simp [conclude, isCurrent, htoken, hc]
    | error rejection => simp [conclude, isCurrent, htoken, hc, fail, enter]
  · simp [conclude, isCurrent, htoken, enter]

/-- Nor does a run up to that step. -/
theorem execute_history (text : String) (token : Nat) (base : Snapshot) :
    { p with history }.execute text token base =
      ({ (p.execute text token base).1 with history }, (p.execute text token base).2) := by
  cases hparse : Diagram.parse (Diagram.unwrap text) with
  | error e => simp [execute, hparse, fail, enter]
  | ok document =>
    cases hplaced : Layout.withoutEngine? (Run.plan p.settings document token base).options
        (Run.plan p.settings document token base).nodes with
    | some placement =>
      simp only [execute, hparse, hplaced]
      exact congrArg (Prod.map id Progress.finished)
        (conclude_history (p.enter .layingOut) history _ placement)
    | none => simp only [execute, hparse, hplaced, enter]

end History

/-- Replies that are unwrapped to the same text are gone on with alike, but each is kept in the
conversation as it came. -/
theorem receive_text_eq {text body : String} (htext : Text.trim text.toList ≠ [])
    (hbody : Text.trim body.toList ≠ []) (h : Diagram.unwrap text = Diagram.unwrap body)
    (p : Pipeline) (request : Request) :
    p.receive request (.text (some text)) =
      ({ (p.receive request (.text (some body))).1 with
          history := p.history ++ exchange request text },
        (p.receive request (.text (some body))).2) := by
  have hread (text : String) (hfull : Text.trim text.toList ≠ []) :
      p.receive request (.text (some text)) =
        ({ (p.execute text request.token request.base).1 with
            history := p.history ++ exchange request text },
          (p.execute text request.token request.base).2) := by
    have hreply : (Reply.text (some text)).text? = some text := by simp [Reply.text?, hfull]
    rw [receive_of_text p request hreply, execute_history]
  rw [hread text htext, hread body hbody, execute, h, ← execute]

/-- A fence is transparent, whatever stands before and after it: a text in it is unwrapped as it is
by itself, and a run on the fenced text is the run on its body. A generator may put a fence around
an answer that is not blank, and the call goes on alike; but the whole answer is kept in the
conversation. -/
theorem fenced_text_runs_as_its_body (f : Diagram.FencedText) (h : f.IsCanonical) (p : Pipeline) :
    Diagram.unwrap f.text = Diagram.unwrap f.body ∧
      (∀ token base, p.execute f.text token base = p.execute f.body token base) ∧
      p.run f.text = p.run f.body ∧
      (∀ engine, p.runWith engine f.text = p.runWith engine f.body) ∧
      (Text.trim f.body.toList ≠ [] → ∀ request,
        p.receive request (.text (some f.text)) =
          ({ (p.receive request (.text (some f.body))).1 with
              history := p.history ++ exchange request f.text },
            (p.receive request (.text (some f.body))).2)) := by
  have hunwrap := h.unwrap_text
  have hexecute (p : Pipeline) (token : Nat) (base : Snapshot) :
      p.execute f.text token base = p.execute f.body token base := by
    rw [execute, hunwrap, ← execute]
  have hrun : p.run f.text = p.run f.body := by rw [run_eq, run_eq, hexecute]
  refine ⟨hunwrap, hexecute p, hrun, fun engine => by rw [runWith, hrun, ← runWith], ?_⟩
  exact fun hbody => receive_text_eq f.trim_text_ne_nil hbody hunwrap p

/-- A reply with much in the way: prose with a byte order mark before it and a carriage return at
its end, a tag, line ends of all kinds in the body, and a second block. -/
theorem prose_and_blocks_run_as_body :
    let f : Diagram.FencedText := ⟨some "\ufeffHere it is:\r", "flow+1",
      "  [start] A\r\n[end] B\rA -> B\r", some "\x60\x60\x60\nMore.\n\x60\x60\x60"⟩
    let p := ofStore .empty {}
    let request : Request := ⟨1, .empty, [], "two steps", "", none⟩
    f.IsCanonical ∧ Diagram.unwrap f.text = "[start] A\n[end] B\nA -> B" ∧
      p.run f.text = p.run f.body ∧ Text.trim f.body.toList ≠ [] ∧
      (p.receive request (.text (some f.text))).2 =
        (p.receive request (.text (some f.body))).2 := by
  intro f p request
  have h : f.IsCanonical := by decide +kernel
  have hbody : Diagram.unwrap f.body = "[start] A\n[end] B\nA -> B" := by decide +kernel
  have hfull : Text.trim f.body.toList ≠ [] := by decide +kernel
  obtain ⟨hunwrap, -, hrun, -, hreceive⟩ := fenced_text_runs_as_its_body f h p
  exact ⟨h, hunwrap.trans hbody, hrun, hfull, by rw [hreceive hfull request]⟩

end FlowCanvas.Pipeline
