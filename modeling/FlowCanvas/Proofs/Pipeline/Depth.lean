import FlowCanvas.Proofs.Canvas.Copying
import FlowCanvas.Proofs.Pipeline.Interleaving

namespace FlowCanvas.Pipeline
open Identity

section Plan
variable {settings : Settings} {document : Document} {token : Nat} {base : Snapshot} {depth : Nat}

theorem live_mem_of_mem_reconcile {edges : List EdgeDecl} {keepPositions : Bool} {a : Assignment}
    {live : Node} (ha : a ∈ (reconcile document edges base keepPositions).assignments)
    (hlive : a.live = some live) : live ∈ base.nodes := by
  have hpair : (a.decl, some live) ∈ pairs document base :=
    (mem_pairs_iff document edges base keepPositions).2 ⟨a, ha, rfl, hlive⟩
  have hlookup := lookup_of_mem_pair hpair
  rw [lookup_labelIndex] at hlookup
  exact (mem_of_bearer hlookup).1

/-- A planned node has the style of a live one, or none. -/
theorem style_of_mem_plan {n : Node} (h : n ∈ (Run.plan settings document token base).nodes) :
    n.style = [] ∨ ∃ live ∈ base.nodes, n.style = live.style := by
  rw [plan_nodes, reconcile_nodes] at h
  obtain ⟨a, ha, rfl⟩ := List.mem_map.1 h
  cases hlive : a.live with
  | none => exact .inl (by rw [Assignment.node, hlive])
  | some live =>
    exact .inr ⟨live, live_mem_of_mem_reconcile ha hlive, by rw [Assignment.node, hlive]⟩

theorem levels_style_le {n : Node} (hn : n ∈ base.nodes) (h : base.levels ≤ depth) :
    (Value.object n.style).levels ≤ depth :=
  (Snapshot.levels_le_iff.1 h).1 n hn _ (by simp [Node.values])

theorem levels_lineFields_le (decl : EdgeDecl) (defaults : EdgeDefaults) :
    (Value.object (Styling.lineFields decl defaults)).levels ≤ 2 := by
  rw [Value.levels, Nat.add_le_add_iff_right, Value.fieldLevels_le_iff]
  intro f hf
  simp only [Styling.lineFields, List.mem_cons, List.mem_append] at hf
  rcases hf with rfl | hcolor | hdash
  · exact le_rfl
  · split at hcolor
    · obtain rfl := List.mem_singleton.1 hcolor
      exact le_rfl
    · cases hcolor
  · split at hdash
    · obtain rfl := List.mem_singleton.1 hdash
      exact le_rfl
    · cases hdash

theorem levels_of_mem_placedWith (hone : 1 ≤ depth) (h : base.levels ≤ depth)
    (outcome : Except Layout.EngineFailure Layout.Positions) {n : Node}
    (hn : n ∈ ((Run.plan settings document token base).placedWith outcome).nodes) :
    ∀ v ∈ n.values, v.levels ≤ depth := by
  obtain ⟨position?, hnodes⟩ := exists_placedWith_eq outcome (Run.plan settings document token base)
  rw [hnodes] at hn
  obtain ⟨m, hm, rfl⟩ := List.mem_map.1 hn
  obtain ⟨d, -, hkind, -, hsub⟩ := exists_shows_of_mem_plan _ _ _ _ hm
  have hkindLevels : m.kind.levels ≤ depth := by
    rw [hkind]
    exact hone
  have hsubLevels : m.subLabel.levels ≤ depth := by
    rw [hsub]
    cases d.subLabel <;> exact hone
  have hstyle : (Value.object m.style).levels ≤ depth := by
    obtain hnone | ⟨live, hlive, hsame⟩ := style_of_mem_plan hm
    · rw [hnone]
      exact hone
    · rw [hsame]
      exact levels_style_le hlive h
  exact List.forall_mem_cons.2 ⟨hkindLevels, List.forall_mem_cons.2
    ⟨hsubLevels, List.forall_mem_singleton.2 hstyle⟩⟩

theorem levels_of_mem_plan (hdepth : 2 ≤ depth) {e : Edge}
    (he : e ∈ (Run.plan settings document token base).edges) :
    ∀ v ∈ e.values, v.levels ≤ depth := by
  have hone : 1 ≤ depth := by omega
  obtain ⟨l, -, rfl⟩ := exists_link_of_mem_plan settings document token base he
  have hlabel : (Styling.edgeOf settings.edges l).label.levels ≤ depth := by
    unfold Styling.edgeOf
    cases l.decl.label <;> exact hone
  have hstyle := (levels_lineFields_le l.decl settings.edges).trans hdepth
  exact List.forall_mem_cons.2 ⟨hone, List.forall_mem_cons.2
    ⟨hlabel, List.forall_mem_singleton.2 hstyle⟩⟩

/-- What is drawn has no more levels than the canvas that it is reconciled with, or two: those of
the looks of a connection. -/
theorem levels_placedWith_le (hdepth : 2 ≤ depth) (h : base.levels ≤ depth)
    (outcome : Except Layout.EngineFailure Layout.Positions) :
    Snapshot.levels ⟨((Run.plan settings document token base).placedWith outcome).nodes,
      (Run.plan settings document token base).edges⟩ ≤ depth := by
  have hone : 1 ≤ depth := by omega
  have hedges : ∀ e ∈ (Run.plan settings document token base).edges,
      ∀ v ∈ e.values, v.levels ≤ depth := fun e he => levels_of_mem_plan hdepth he
  exact Snapshot.levels_le_iff.2
    ⟨fun n hn => levels_of_mem_placedWith hone h outcome hn, hedges⟩

end Plan

section Sessions
variable {p q q' : Pipeline} {spare : LayoutEngine} {calls token depth : Nat} {s : Session}
  {base : Snapshot} {text : Option String}

theorem Ends.levels_le {c : Ending} (hends : Ends spare q token base q' c) (hdepth : 2 ≤ depth)
    (hstore : q.store.snapshot.levels ≤ depth) (hbase : base.levels ≤ depth) :
    q'.store.snapshot.levels ≤ depth := by
  have houtcome := hends.outcome
  generalize q'.store = store at houtcome ⊢
  cases houtcome with
  | failed _ _ => exact hstore
  | superseded _ _ _ => exact hstore
  | rejected _ _ _ _ _ => exact hstore
  | committed _ _ _ _ _ _ _ run hrun =>
    subst hrun
    rw [hends.base]
    exact levels_placedWith_le hdepth hbase _

/-- The canvas can be copied, and so can those that the waiting calls are to be drawn on. -/
structure Session.IsShallow (depth : Nat) (s : Session) : Prop where
  store : s.pipeline.store.snapshot.levels ≤ depth
  waiting : ∀ w ∈ s.waiting, w.base.levels ≤ depth

namespace Session.IsShallow

theorem start (h : p.store.snapshot.levels ≤ depth) : (Session.start p).IsShallow depth :=
  ⟨h, fun w hw => by cases hw⟩

theorem drop (h : s.IsShallow depth) (token : Nat) : (s.drop token).IsShallow depth :=
  ⟨h.store, fun w hw => h.waiting w (List.mem_of_mem_eraseP hw)⟩

theorem proceed (h : s.IsShallow depth) (hdepth : 2 ≤ depth) (hbase : base.levels ≤ depth)
    {progress : Pipeline × Progress} (hgoes : GoesOn spare q token base text progress)
    (hstore : q.store.snapshot = s.pipeline.store.snapshot) :
    (s.proceed base text progress).IsShallow depth := by
  have hlevels : q.store.snapshot.levels ≤ depth := by
    rw [hstore]
    exact h.store
  cases hgoes with
  | ends hends => exact ⟨hends.levels_le hdepth hlevels hbase, h.waiting⟩
  | @waits q' run hsteady _ hrun _ =>
    refine ⟨?_, fun w hw => ?_⟩
    · show q'.store.snapshot.levels ≤ depth
      rw [hsteady.snapshot]
      exact hlevels
    · rcases List.mem_append.1 hw with hw | hw
      · exact h.waiting w hw
      · obtain rfl := List.mem_singleton.1 hw
        show run.base.levels ≤ depth
        rw [hrun]
        exact hbase

theorem step (h : s.IsShallow depth) (hdepth : 2 ≤ depth) (hsound : Sound p spare calls s)
    (event : Event) : (s.step event).IsShallow depth := by
  -- What waits has been copied from the canvas; only an event that ends a call puts something
  -- there.
  cases event with
  | run text =>
    have hcall : s.call.IsShallow depth := ⟨h.store, h.waiting⟩
    have hsame : Alike s.pipeline.issue.1 s.pipeline.issue.1 := ⟨rfl, rfl, rfl⟩
    rw [Session.step, run_eq]
    exact hcall.proceed hdepth h.store (goesOn_execute spare hsame text _ _) rfl
  | regenerate hasGenerator prompt image =>
    cases hasGenerator with
    | true =>
      refine ⟨h.store, fun w hw => ?_⟩
      rcases List.mem_append.1 hw with hw | hw
      · exact h.waiting w hw
      · obtain rfl := List.mem_singleton.1 hw
        exact h.store
    | false => exact ⟨h.store, h.waiting⟩
  | reply token reply =>
    rw [Session.step]
    cases hfound : s.waiting.find? (·.token = token) with
    | none => exact h
    | some w =>
      cases w with
      | engine text run => exact h
      | generator request =>
        have hbase := h.waiting _ (List.mem_of_find?_eq_some hfound)
        exact (h.drop token).proceed hdepth hbase (goesOn_receive spare _ _ _) rfl
  | answer token outcome =>
    rw [Session.step]
    cases hfound : s.waiting.find? (·.token = token) with
    | none => exact h
    | some w =>
      cases w with
      | generator request => exact h
      | engine text run =>
        have hmem := List.mem_of_find?_eq_some hfound
        have hends := ends_resume spare (hsound.waiting _ hmem).planned outcome
        exact ⟨hends.levels_le hdepth h.store (h.waiting _ hmem), (h.drop token).waiting⟩
  | clearHistory => exact ⟨h.store, h.waiting⟩
  | lock reason => exact ⟨h.store, h.waiting⟩

theorem run (h : s.IsShallow depth) (hdepth : 2 ≤ depth) (hsound : Sound p spare calls s)
    (events : List Event) : (s.run events).IsShallow depth := by
  induction events generalizing calls s with
  | nil => exact h
  | cons event r ih => exact ih (h.step hdepth hsound event) (hsound.step event)

end Session.IsShallow
end Sessions
end FlowCanvas.Pipeline
