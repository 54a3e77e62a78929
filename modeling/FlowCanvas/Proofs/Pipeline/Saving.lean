import Mathlib
import FlowCanvas.Proofs.Canvas.Interchange
import FlowCanvas.Proofs.Diagram.NormalForm
import FlowCanvas.Proofs.Pipeline.Interleaving

namespace FlowCanvas

namespace Pipeline

section Endings
variable {p : Pipeline} {spare : LayoutEngine} {calls : Nat} {s : Session} {settings : Settings}
  {q q' : Pipeline} {token : Nat} {base : Snapshot} {text : Option String}

/-- An ended call was noted by a last step on a pipeline with the settings. -/
def Ending.IsStepWith (spare : LayoutEngine) (settings : Settings) (c : Ending) : Prop :=
  ∃ q token base q', Ends spare q token base q' c ∧ q.settings = settings

theorem isStepWith_close {answer : Option (Except Layout.EngineFailure Layout.Positions)}
    {result : Result}
    (hends : Ends spare q token base q' ⟨result, text, answer, base, q.store, q'.store⟩)
    (hstore : s.pipeline.store = q.store) (hsettings : q.settings = settings)
    (hended : ∀ c ∈ s.ended, c.IsStepWith spare settings) :
    ∀ c ∈ (s.close q' base text answer result).ended, c.IsStepWith spare settings := by
  intro c hc
  rw [Session.ended, Session.close, ended_concat_ended, hstore] at hc
  rcases List.mem_append.1 hc with hc | hc
  · exact hended c hc
  · obtain rfl := List.mem_singleton.1 hc
    exact ⟨q, token, base, q', hends, hsettings⟩

theorem isStepWith_proceed {progress : Pipeline × Progress}
    (hgoes : GoesOn spare q token base text progress) (hstore : s.pipeline.store = q.store)
    (hsettings : q.settings = settings) (hended : ∀ c ∈ s.ended, c.IsStepWith spare settings) :
    ∀ c ∈ (s.proceed base text progress).ended, c.IsStepWith spare settings := by
  cases hgoes with
  | ends hends => exact isStepWith_close hends hstore hsettings hended
  | waits _ _ _ _ => exact hended

theorem isStepWith_step (hsound : Sound p spare calls s)
    (hended : ∀ c ∈ s.ended, c.IsStepWith spare p.settings) (event : Event) :
    ∀ c ∈ (s.step event).ended, c.IsStepWith spare p.settings := by
  have hissue : s.pipeline.issue.1.settings = p.settings := hsound.settings
  have hcall : ∀ c ∈ s.call.ended, c.IsStepWith spare p.settings := by
    rw [Session.ended, Session.call, ended_concat_started]
    exact hended
  cases event with
  | run text =>
    rw [Session.step, run_eq]
    -- The token is the only thing that a call takes before its first step.
    have hsame : Alike s.pipeline.issue.1 s.pipeline.issue.1 := ⟨rfl, rfl, rfl⟩
    have hgoes := goesOn_execute spare hsame text (s.pipeline.latest + 1) s.pipeline.store.snapshot
    exact isStepWith_proceed hgoes rfl hissue hcall
  | regenerate hasGenerator prompt image =>
    cases hasGenerator with
    | true => exact hcall
    | false =>
      obtain ⟨q', result, hregenerate, hgoes⟩ := regenerate_false spare s.pipeline prompt image
      rw [Session.step, hregenerate]
      exact isStepWith_proceed hgoes rfl hissue hcall
  | reply token reply =>
    rw [Session.step]
    cases hfound : s.waiting.find? (·.token = token) with
    | none => exact hended
    | some w =>
      cases w with
      | engine text run => exact hended
      | generator request =>
        have hgoes := goesOn_receive spare s.pipeline request reply
        exact isStepWith_proceed (s := s.drop token) hgoes rfl hsound.settings hended
  | answer token outcome =>
    rw [Session.step]
    cases hfound : s.waiting.find? (·.token = token) with
    | none => exact hended
    | some w =>
      cases w with
      | generator request => exact hended
      | engine text run =>
        have hready := hsound.waiting _ (List.mem_of_find?_eq_some hfound)
        exact isStepWith_close (s := s.drop token) (ends_resume spare hready.planned outcome) rfl
          hsound.settings hended
  | clearHistory => exact hended
  | lock reason => exact hended

theorem isStepWith_run (p : Pipeline) (spare : LayoutEngine) (events : List Event) :
    ∀ c ∈ ((Session.start p).run events).ended, c.IsStepWith spare p.settings := by
  induction events using List.reverseRecOn with
  | nil =>
    intro c hc
    cases hc
  | append_singleton events event ih =>
    rw [Session.run_concat]
    exact isStepWith_step ((Sound.start p spare).run events) ih event

/-- What a call that commits leaves is a planned run, its nodes placed. -/
theorem exists_plan_of_committed {events : List Event} {c : Ending}
    (hc : c ∈ ((Session.start p).run events).committed) :
    ∃ text document outcome, Diagram.parse (Diagram.unwrap text) = .ok document ∧
      let run := Run.plan p.settings document c.token c.base
      c.after.nodes = (run.placedWith outcome).nodes ∧ c.after.edges = run.edges := by
  obtain ⟨hmem, hcommitted⟩ := List.mem_filter.1 hc
  have hstatus : c.result.status = .committed := of_decide_eq_true hcommitted
  obtain ⟨q, token, base, q', hends, hsettings⟩ :=
    isStepWith_run p (fun _ _ _ => .ok []) events c hmem
  have houtcome := hends.outcome
  rw [← hends.after] at houtcome
  generalize c.after = store at houtcome ⊢
  cases houtcome with
  | failed _ hfailed =>
    obtain ⟨error, he⟩ | ⟨message, he⟩ := hfailed <;> cases hstatus.symm.trans he
  | superseded _ _ hsuperseded => cases hstatus.symm.trans hsuperseded
  | rejected _ _ reason hrejected _ => cases hstatus.symm.trans hrejected
  | committed text document htext hparse _ _ _ run hrun =>
    rw [hsettings] at hrun
    subst hrun
    exact ⟨text, document, _, hparse, rfl, rfl⟩

end Endings

section Committed
variable {settings : Settings} {document : Document} {token : Nat} {base : Snapshot}

theorem eq_null_of_isEmpty {o : Option String} (h : ∀ s, o = some s → s ≠ "") :
    (match o with
      | some s => Value.text s
      | none => .null).isEmpty = true →
    (match o with
      | some s => Value.text s
      | none => .null) = .null := by
  cases o with
  | none => exact fun _ => rfl
  | some s =>
    intro hempty
    cases hempty.symm.trans (Value.isEmpty_text_eq_false_iff.2 (h s rfl))

theorem reread_of_mem_placedWith (hnormal : document.IsNormal)
    (outcome : Except Layout.EngineFailure Layout.Positions) {n : Node}
    (hn : n ∈ ((Run.plan settings document token base).placedWith outcome).nodes) :
    n.reread = n := by
  have hposition : n.position.isSome := Layout.isSome_position_of_mem_place _ _ _ n hn
  obtain ⟨position?, hnodes⟩ :=
    exists_placedWith_eq outcome (Run.plan settings document token base)
  rw [hnodes] at hn
  obtain ⟨m, hm, rfl⟩ := List.mem_map.1 hn
  obtain ⟨d, hd, hkind, -, hsub⟩ := exists_shows_of_mem_plan _ _ _ _ hm
  refine Node.reread_eq_self ?_ ?_ hposition
  · show m.kind.isEmpty = false
    rw [hkind]
    cases d.kind <;> rfl
  · show m.subLabel.isEmpty = true → m.subLabel = .null
    rw [hsub]
    exact eq_null_of_isEmpty fun s hs => ((hnormal.nodes d hd).subLabel s hs).nonempty

theorem connector_ne_empty {defaults : EdgeDefaults} (h : defaults.kind ≠ "")
    (style : Option LineStyle) : Styling.connector style defaults ≠ "" := by
  unfold Styling.connector
  split
  · decide
  · decide
  · exact h
  · exact h

theorem reread_of_mem_plan (hnormal : document.IsNormal) (hkind : settings.edges.kind ≠ "")
    {e : Edge} (he : e ∈ (Run.plan settings document token base).edges) : e.reread = e := by
  obtain ⟨l, hl, rfl⟩ := exists_link_of_mem_plan _ _ _ _ he
  refine Edge.reread_eq_self ?_ ?_
  · exact Value.isEmpty_text_eq_false_iff.2 (connector_ne_empty hkind l.decl.style)
  · exact eq_null_of_isEmpty fun s hs => ((hnormal.edges l.decl hl).label s hs).nonempty

end Committed

theorem reread_of_committed {p : Pipeline} (hkind : p.settings.edges.kind ≠ "")
    {events : List Event} {c : Ending}
    (hc : c ∈ ((Session.start p).run events).committed) :
    (∀ n ∈ c.after.nodes, n.reread = n) ∧ ∀ e ∈ c.after.edges, e.reread = e := by
  obtain ⟨text, document, outcome, hparse, hnodes, hedges⟩ := exists_plan_of_committed hc
  have hnormal := Diagram.isNormal_of_parse hparse
  rw [hnodes, hedges]
  exact ⟨fun n hn => reread_of_mem_placedWith hnormal outcome hn,
    fun e he => reread_of_mem_plan hnormal hkind he⟩

/-- Every committed node and edge comes back as it was when it is written and read, given that the
connector of the settings has a name. Whatever payload is read, what is written of it is settled at
the first time. So a canvas that was committed, or read from a payload, is loaded from the file that
it is saved to as one that is written alike, provided that the JSON in the file is read as it was
written. -/
theorem canvas_survives_interchange (p : Pipeline) (hkind : p.settings.edges.kind ≠ "")
    (events : List Event) :
    let s := (Session.start p).run events
    (∀ c ∈ s.committed, (∀ n ∈ c.after.nodes, Node.ofValue n.toValue = .ok n) ∧
      ∀ e ∈ c.after.edges, Edge.ofValue e.toValue = .ok e) ∧
    (∀ payload written, Snapshot.rewrite payload = .ok written →
      Snapshot.rewrite written = .ok written) ∧
    ∀ store : Store,
      (∃ payload, Snapshot.ofValue payload = .ok store.snapshot) ∨
        (∃ c ∈ s.committed, c.after = store) →
      Json.parse (Json.pretty store.snapshot.toValue) = .ok store.snapshot.toValue →
      ∃ loaded, Store.load store.save = .ok loaded ∧
        loaded.snapshot.toValue = store.snapshot.toValue := by
  intro s
  have hcommitted (c : Ending) (hc : c ∈ s.committed) := reread_of_committed hkind hc
  refine ⟨fun c hc => ⟨fun n hn => ?_, fun e he => ?_⟩, ?_, ?_⟩
  · rw [Node.ofValue_toValue, (hcommitted c hc).1 n hn]
  · rw [Edge.ofValue_toValue, (hcommitted c hc).2 e he]
  · exact fun payload written => Snapshot.rewrite_rewritten
  · rintro store (⟨payload, hread⟩ | ⟨c, hc, rfl⟩) hjson
    · exact Store.load_save (Snapshot.isTyped_of_ofValue hread) hjson
    · refine Store.load_save ⟨fun n hn => ?_, fun e he => ?_⟩ hjson
      · rw [← (hcommitted c hc).1 n hn]
        exact Value.isEmpty_orElse rfl
      · rw [← (hcommitted c hc).2 e he]
        exact Value.isEmpty_orElse rfl

def oddPayload : Value :=
  .record [
    ("nodes", .list [.record [("id", .int 1), ("label", .flag true), ("style", .null),
      ("data", .record [("subLabel", .list [])])]]),
    ("edges", .text "")]

/-- An edge that leads nowhere, with a label that is not written. -/
def strayEdge : Edge where
  id := "1"
  source := ""
  target := "None"
  kind := .text "default"
  animated := false
  label := .text ""
  style := []

def strayStore : Store :=
  .ofSnapshot ⟨[], [strayEdge]⟩

theorem odd_canvases_survive :
    let s := (Session.start (ofStore .empty {})).run
      [.run "[start] A\nA -> A", .answer 1 (.ok [("A", ⟨0, 0⟩)])]
    (∃ c ∈ s.committed, (∀ n ∈ c.after.nodes, Node.ofValue n.toValue = .ok n) ∧
      ∀ e ∈ c.after.edges, Edge.ofValue e.toValue = .ok e) ∧
    (∃ written, Snapshot.rewrite oddPayload = .ok written ∧
      Snapshot.rewrite written = .ok written) ∧
    ∃ loaded, Store.load strayStore.save = .ok loaded ∧
      loaded.snapshot.toValue = strayStore.snapshot.toValue := by
  intro s
  obtain ⟨hcommitted, hrewrite, hload⟩ := canvas_survives_interchange (ofStore .empty {})
    (by decide) [.run "[start] A\nA -> A", .answer 1 (.ok [("A", ⟨0, 0⟩)])]
  have hlength : s.committed.length = 1 := by decide +kernel
  obtain ⟨c, hc⟩ : ∃ c, c ∈ s.committed := List.exists_mem_of_length_pos (by omega)
  have hread : Snapshot.ofValue (.record [("edges", .list [.record [("id", .int 1),
      ("source", .text ""), ("target", .null), ("label", .text "")]])]) =
      .ok strayStore.snapshot := rfl
  have hjson : Json.parse (Json.pretty strayStore.snapshot.toValue) =
      .ok strayStore.snapshot.toValue := by cbv
  exact ⟨⟨c, hc, hcommitted c hc⟩, ⟨_, rfl, hrewrite oddPayload _ rfl⟩,
    hload strayStore (.inl ⟨_, hread⟩) hjson⟩

end Pipeline
end FlowCanvas
