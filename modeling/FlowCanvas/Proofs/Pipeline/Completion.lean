import FlowCanvas.Proofs.Pipeline.Strict

namespace FlowCanvas.Pipeline

/-- Two pipelines differ in stage and token count at most. -/
structure Untouched (q q' : Pipeline) : Prop where
  store : q'.store = q.store
  history : q'.history = q.history
  settings : q'.settings = q.settings

theorem Untouched.refl (q : Pipeline) : Untouched q q := ⟨rfl, rfl, rfl⟩

section Steps
variable (p : Pipeline) (run : Run)

theorem untouched_of_conclude (placement : Layout.Placement)
    (h : (p.conclude run placement).2.status ≠ .committed) :
    Untouched p (p.conclude run placement).1 := by
  obtain ⟨-, store, -, -, hstatus⟩ | ⟨-, rejection, -, hleft, -⟩ | ⟨-, hleft, -⟩ :=
    conclude_cases p run placement
  · exact absurd hstatus h
  · rw [hleft]
    exact ⟨rfl, rfl, rfl⟩
  · rw [hleft]
    exact ⟨rfl, rfl, rfl⟩

theorem stage_conclude (placement : Layout.Placement) :
    (p.conclude run placement).1.stage = .idle := by
  obtain ⟨-, store, -, hleft, -⟩ | ⟨-, rejection, -, hleft, -⟩ | ⟨-, hleft, -⟩ :=
    conclude_cases p run placement <;> rw [hleft]

/-- A step that has its text touches nothing unless it commits, and if it ends its call it leaves
the pipeline idle. -/
theorem execute_leaves (text : String) (token : Nat) (base : Snapshot) :
    ((∀ result, (p.execute text token base).2 = .finished result → result.status ≠ .committed) →
      Untouched p (p.execute text token base).1) ∧
    (∀ result, (p.execute text token base).2 = .finished result →
      (p.execute text token base).1.stage = .idle) := by
  cases hparse : Diagram.parse (Diagram.unwrap text) with
  | error e =>
    obtain ⟨result, hexecute, -, -⟩ := execute_of_error p token base hparse
    rw [hexecute]
    exact ⟨fun _ => ⟨rfl, rfl, rfl⟩, fun _ _ => rfl⟩
  | ok document =>
    cases hplaced : Layout.withoutEngine? (Run.plan p.settings document token base).options
        (Run.plan p.settings document token base).nodes with
    | some placement =>
      rw [execute_of_some p token base hparse hplaced]
      refine ⟨fun h => ?_, fun _ _ => stage_conclude _ _ _⟩
      have huntouched := untouched_of_conclude (p.enter .layingOut) _ placement (h _ rfl)
      exact ⟨huntouched.store, huntouched.history, huntouched.settings⟩
    | none =>
      rw [execute_of_none p token base hparse hplaced]
      refine ⟨fun _ => ⟨rfl, rfl, rfl⟩, fun result h => ?_⟩
      cases h

theorem stage_receive (request : Request) (reply : Reply) (result : Result)
    (h : (p.receive request reply).2 = .finished result) :
    (p.receive request reply).1.stage = .idle := by
  cases htext : reply.text? with
  | none =>
    obtain ⟨message, hreceive⟩ := receive_of_no_text p request htext
    rw [hreceive]
    rfl
  | some text =>
    rw [receive_of_text p request htext] at h ⊢
    exact (execute_leaves _ _ _ _).2 result h

end Steps

section Quiet

def Session.IsQuiet (s : Session) : Prop :=
  s.pipeline.stage = .idle ∨ ∃ text run, Waiting.engine text run ∈ s.waiting

variable {s : Session}

theorem isQuiet_proceed (s : Session) (base : Snapshot) (text : Option String)
    {progress : Pipeline × Progress}
    (h : ∀ result, progress.2 = .finished result → progress.1.stage = .idle) :
    (s.proceed base text progress).IsQuiet := by
  obtain ⟨q, result | run⟩ := progress
  · exact .inl (h result rfl)
  · exact .inr ⟨text, run, by simp [Session.proceed]⟩

theorem Session.IsQuiet.step (h : s.IsQuiet) (event : Event) : (s.step event).IsQuiet := by
  have hmoves := s.moves_step event
  generalize s.step event = s' at hmoves ⊢
  cases hmoves with
  | runs text => exact isQuiet_proceed _ _ _ (execute_leaves _ _ _ _).2
  | asks prompt image request =>
    rcases h with hidle | ⟨text, run, hmem⟩
    · exact .inl hidle
    · exact .inr ⟨text, run, List.mem_append_left _ hmem⟩
  | lacksGenerator prompt image result => exact .inl rfl
  | replied token reply request hfound => exact isQuiet_proceed _ _ _ (stage_receive _ _ _)
  | answered token outcome text run hfound => exact .inl (stage_conclude _ _ _)
  | ignored => exact h
  | clears => exact h
  | locks reason => exact h

theorem Session.IsQuiet.run (h : s.IsQuiet) (events : List Event) : (s.run events).IsQuiet := by
  induction events generalizing s with
  | nil => exact h
  | cons event r ih => exact ih (h.step event)

end Quiet

section Waiting
variable {s : Session} {token : Nat}

/-- The call with a token waits for the engine with a run. -/
def Session.Awaits (s : Session) (token : Nat) (text : Option String) (run : Run) : Prop :=
  s.waiting.find? (·.token = token) = some (.engine text run)

theorem find?_eraseP_of_ne {α : Type} {p q : α → Bool} {xs : List α} {x : α}
    (h : xs.find? p = some x) (hdisjoint : ∀ y, q y = true → p y = false) :
    (xs.eraseP q).find? p = some x := by
  induction xs with
  | nil => cases h
  | cons y r ih =>
    rw [List.eraseP_cons]
    cases hq : q y with
    | true => simpa [hdisjoint y hq] using h
    | false =>
      cases hp : p y with
      | true => simpa [hp] using h
      | false =>
        have hrest : r.find? p = some x := by simpa [hp] using h
        simpa [hp] using ih hrest

namespace Session.Awaits
variable {text : Option String} {run : Run}

theorem drop (h : s.Awaits token text run) {other : Nat} (hne : other ≠ token) :
    (s.drop other).Awaits token text run := by
  apply find?_eraseP_of_ne h
  intro w hw
  have htoken : w.token = other := by simpa using hw
  simpa [htoken] using hne

theorem proceed (h : s.Awaits token text run) (base : Snapshot) (other : Option String)
    (progress : Pipeline × Progress) : (s.proceed base other progress).Awaits token text run := by
  obtain ⟨q, result | more⟩ := progress
  · exact h
  · rw [Awaits, Session.proceed, List.find?_append, h]
    rfl

theorem step (h : s.Awaits token text run) {event : Event}
    (hevent : ∀ outcome, event ≠ .answer token outcome) :
    (s.step event).Awaits token text run := by
  have hmoves := s.moves_step event
  generalize s.step event = s' at hmoves ⊢
  cases hmoves with
  | runs more =>
    have hcall : s.call.Awaits token text run := h
    exact hcall.proceed _ _ _
  | asks prompt image request =>
    show (s.waiting ++ [Waiting.generator request]).find? _ = _
    rw [List.find?_append, h]
    rfl
  | lacksGenerator prompt image result => exact h
  | replied other reply request hfound =>
    -- The call with the token does not wait for the generator.
    have hne : other ≠ token := by
      rintro rfl
      cases hfound.symm.trans h
    exact (h.drop hne).proceed _ _ _
  | answered other outcome more run' hfound =>
    have hne : other ≠ token := by
      rintro rfl
      exact hevent outcome rfl
    exact h.drop hne
  | ignored => exact h
  | clears => exact h
  | locks reason => exact h

theorem run_events (h : s.Awaits token text run) {events : List Event}
    (hevents : ∀ outcome, Event.answer token outcome ∉ events) :
    (s.run events).Awaits token text run := by
  induction events generalizing s with
  | nil => exact h
  | cons event r ih =>
    apply ih
    · exact h.step fun outcome heq => hevents outcome (by simp [heq])
    · exact fun outcome hmem => hevents outcome (List.mem_cons_of_mem _ hmem)

end Session.Awaits
end Waiting

section Ended
variable {s : Session}

theorem exists_record_proceed (s : Session) (base : Snapshot) (text : Option String)
    (progress : Pipeline × Progress) :
    ∃ more, (s.proceed base text progress).record = s.record ++ more := by
  obtain ⟨q, result | run⟩ := progress
  · exact ⟨_, rfl⟩
  · exact ⟨[], (List.append_nil _).symm⟩

theorem exists_record_step (s : Session) (event : Event) :
    ∃ more, (s.step event).record = s.record ++ more := by
  have hcall : s.call.record = s.record ++ [.started s.pipeline.issue.2] := rfl
  have hmoves := s.moves_step event
  generalize s.step event = s' at hmoves ⊢
  cases hmoves with
  | runs text =>
    obtain ⟨more, hmore⟩ := exists_record_proceed s.call s.pipeline.store.snapshot (some text)
      (s.pipeline.issue.1.execute text (s.pipeline.latest + 1) s.pipeline.store.snapshot)
    exact ⟨_, by rw [hmore, hcall, List.append_assoc]⟩
  | asks prompt image request => exact ⟨_, hcall⟩
  | lacksGenerator prompt image result => exact ⟨_, List.append_assoc _ _ _⟩
  | replied token reply request hfound => exact exists_record_proceed (s.drop token) _ _ _
  | answered token outcome text run hfound => exact ⟨_, rfl⟩
  | ignored => exact ⟨[], (List.append_nil _).symm⟩
  | clears => exact ⟨[], (List.append_nil _).symm⟩
  | locks reason => exact ⟨[], (List.append_nil _).symm⟩

theorem mem_ended_run {c : Ending} (h : c ∈ s.ended) (events : List Event) :
    c ∈ (s.run events).ended := by
  induction events generalizing s with
  | nil => exact h
  | cons event r ih =>
    apply ih
    obtain ⟨more, hmore⟩ := exists_record_step s event
    rw [Session.ended, hmore, List.filterMap_append]
    exact List.mem_append_left _ h

theorem step_answer_of_ended {p : Pipeline} {spare : LayoutEngine} {calls : Nat}
    (hsound : Sound p spare calls s) {c : Ending} (hc : c ∈ s.ended)
    (outcome : Except Layout.EngineFailure Layout.Positions) :
    s.step (.answer c.token outcome) = s := by
  have hnone : s.waiting.find? (·.token = c.token) = none := by
    rw [List.find?_eq_none]
    intro w hw heq
    have htoken : w.token = c.token := by simpa using heq
    refine (List.nodup_append.1 hsound.nodup).2.2 c.token (List.mem_map_of_mem hc) w.token
      (List.mem_map_of_mem hw) htoken.symm
  rw [Session.step, hnone]

end Ended

section Checked
variable {spare : LayoutEngine} {q q' : Pipeline} {token : Nat} {base : Snapshot} {c : Ending}

/-- The last step of a call that read its text fails only where the canvas is locked, and commits
if the canvas is not locked and no newer call has started. -/
theorem Ends.of_checked (h : Ends spare q token base q' c) (hchecked : c.IsChecked) :
    (token = q.latest → c.before.lock = none → c.result.status = .committed) ∧
      ∀ failure, c.result.status = .failed failure →
        ∃ reason, c.before.lock = some reason ∧ failure = .rejected reason := by
  have houtcome := h.outcome
  rw [h.before]
  generalize q'.store = store at houtcome
  cases houtcome with
  | failed hunchecked _ => exact absurd hchecked hunchecked
  | superseded _ hstale hstatus =>
    refine ⟨fun hcurrent => absurd (h.token.trans hcurrent) hstale, fun failure hfailed => ?_⟩
    cases hstatus.symm.trans hfailed
  | rejected _ _ reason hstatus hlock =>
    refine ⟨fun _ hfree => ?_, fun failure hfailed => ⟨reason, hlock, ?_⟩⟩
    · cases hlock.symm.trans hfree
    · exact (Status.failed.inj (hstatus.symm.trans hfailed)).symm
  | committed _ _ _ _ _ hstatus _ _ _ =>
    refine ⟨fun _ _ => hstatus, fun failure hfailed => ?_⟩
    cases hstatus.symm.trans hfailed

end Checked

/-- The run of a text ends as it should: with the error of a text that is not read, and otherwise
with a commit, if it is not disturbed and the canvas is not locked. It fails for no other reason. -/
structure Ending.Completes (c : Ending) (text : String) (undisturbed : Prop) : Prop where
  reads : c.text = some text
  unread : ∀ error, Diagram.parse (Diagram.unwrap text) = .error error →
    c.result.status = .failed (.diagram error)
  committed : ∀ document, Diagram.parse (Diagram.unwrap text) = .ok document → undisturbed →
    c.before.lock = none → c.result.status = .committed
  failed : ∀ failure, c.result.status = .failed failure →
    (∃ error, Diagram.parse (Diagram.unwrap text) = .error error ∧ failure = .diagram error) ∨
      ∃ reason, c.before.lock = some reason ∧ failure = .rejected reason

section Runs
variable {p : Pipeline} {spare : LayoutEngine} {calls : Nat} {s : Session} {text : String}

theorem Ending.Completes.imp {c : Ending} {undisturbed undisturbed' : Prop}
    (h : c.Completes text undisturbed) (himp : undisturbed' → undisturbed) :
    c.Completes text undisturbed' :=
  ⟨h.reads, h.unread, fun document hparse hfree => h.committed document hparse (himp hfree),
    h.failed⟩

theorem Ends.completes {q q' : Pipeline} {token : Nat} {base : Snapshot} {c : Ending}
    (h : Ends spare q token base q' c) (htext : c.text = some text) {document : Document}
    (hparse : Diagram.parse (Diagram.unwrap text) = .ok document) :
    c.Completes text (token = q.latest) := by
  obtain ⟨hcommitted, hfailed⟩ := h.of_checked ⟨text, document, htext, hparse⟩
  refine ⟨htext, fun error herror => ?_, fun _ _ => hcommitted, fun failure hstatus => ?_⟩
  · cases herror.symm.trans hparse
  · exact .inr (hfailed failure hstatus)

theorem mem_ended_proceed (s : Session) (text : String) (q : Pipeline) (result : Result) :
    (⟨result, some text, none, s.pipeline.store.snapshot, s.pipeline.store, q.store⟩ : Ending) ∈
      (s.call.proceed s.pipeline.store.snapshot (some text) (q, .finished result)).ended := by
  show _ ∈ (s.call.record ++ [Entry.ended _]).filterMap Entry.ended?
  rw [ended_concat_ended]
  exact List.mem_append_right _ List.mem_cons_self

theorem opens_of_error {error : Diagram.Error}
    (hparse : Diagram.parse (Diagram.unwrap text) = .error error) :
    ∃ c ∈ (s.step (.run text)).ended, c.token = s.pipeline.latest + 1 ∧ c.Completes text True ∧
      Untouched s.pipeline (s.step (.run text)).pipeline := by
  obtain ⟨result, hexecute, htoken, hstatus⟩ := execute_of_error s.pipeline.issue.1
    (s.pipeline.latest + 1) s.pipeline.store.snapshot hparse
  rw [Session.step, run_eq, hexecute]
  refine ⟨_, mem_ended_proceed s text _ result, htoken, ⟨rfl, ?_, ?_, ?_⟩, ⟨rfl, rfl, rfl⟩⟩
  · intro other hother
    obtain rfl := Except.error.inj (hparse.symm.trans hother)
    exact hstatus
  · intro document hok
    cases hparse.symm.trans hok
  · intro failure hfailed
    exact .inl ⟨error, hparse, (Status.failed.inj (hstatus.symm.trans hfailed)).symm⟩

/-- A run that starts ends at once, or it waits for the engine and has touched nothing. -/
theorem opens (hsound : Sound p spare calls s) (text : String) :
    (∃ c ∈ (s.step (.run text)).ended, c.token = s.pipeline.latest + 1 ∧ c.Completes text True ∧
      (c.result.status ≠ .committed → Untouched s.pipeline (s.step (.run text)).pipeline)) ∨
    ∃ run, (s.step (.run text)).Awaits (s.pipeline.latest + 1) (some text) run ∧
      Untouched s.pipeline (s.step (.run text)).pipeline := by
  cases hparse : Diagram.parse (Diagram.unwrap text) with
  | error e =>
    obtain ⟨c, hc, htoken, hcompletes, huntouched⟩ := opens_of_error (s := s) hparse
    exact .inl ⟨c, hc, htoken, hcompletes, fun _ => huntouched⟩
  | ok document =>
    rw [Session.step, run_eq]
    have hsame : Alike s.pipeline.issue.1 s.pipeline.issue.1 := ⟨rfl, rfl, rfl⟩
    have hgoes := goesOn_execute spare hsame text (s.pipeline.latest + 1) s.pipeline.store.snapshot
    obtain ⟨hleaves, -⟩ := execute_leaves s.pipeline.issue.1 text (s.pipeline.latest + 1)
      s.pipeline.store.snapshot
    generalize s.pipeline.issue.1.execute text (s.pipeline.latest + 1)
      s.pipeline.store.snapshot = progress at hgoes hleaves ⊢
    cases hgoes with
    | @ends q' result hends =>
      refine .inl ⟨_, mem_ended_proceed s text q' result, hends.token,
        (hends.completes rfl hparse).imp fun _ => rfl, fun hstatus => ?_⟩
      have huntouched := hleaves fun other hother => by
        obtain rfl := Progress.finished.inj hother
        exact hstatus
      exact ⟨huntouched.store, huntouched.history, huntouched.settings⟩
    | @waits q' run _ htoken _ _ =>
      have huntouched := hleaves fun other hother => by cases hother
      refine .inr ⟨run, ?_, ⟨huntouched.store, huntouched.history, huntouched.settings⟩⟩
      -- The token is new, so no other call that waits has it.
      have hnone : s.waiting.find? (·.token = s.pipeline.latest + 1) = none := by
        rw [List.find?_eq_none]
        intro w hw heq
        have hle := hsound.le_latest (hsound.mem_started_of_waiting hw)
        have htokenw : w.token = s.pipeline.latest + 1 := by simpa using heq
        omega
      show (s.waiting ++ [Waiting.engine (some text) run]).find? _ = _
      rw [List.find?_append, hnone]
      simp [Waiting.token, htoken]

/-- A run that is answered ends, and it commits if its token is still the latest. -/
theorem answers (hsound : Sound p spare calls s) {token : Nat} {run : Run}
    (hawaits : s.Awaits token (some text) run)
    (outcome : Except Layout.EngineFailure Layout.Positions) :
    ∃ c ∈ (s.step (.answer token outcome)).ended, c.token = token ∧
      c.Completes text (token = s.pipeline.latest) ∧
      (c.result.status ≠ .committed →
        Untouched s.pipeline (s.step (.answer token outcome)).pipeline) := by
  have hfound : s.waiting.find? (·.token = token) = some (.engine (some text) run) := hawaits
  have htoken : run.token = token := Session.token_of_find? hfound
  have hplanned := (hsound.waiting _ (List.mem_of_find?_eq_some hfound)).planned
  have hends := ends_resume spare hplanned outcome
  obtain ⟨given, document, hgiven, hparse, -⟩ := hplanned
  obtain rfl := Option.some.inj hgiven
  rw [htoken] at hends
  rw [Session.step, hfound]
  refine ⟨_, ?_, hends.token, hends.completes rfl hparse, untouched_of_conclude _ _ _⟩
  show _ ∈ ((s.drop token).record ++ [_]).filterMap Entry.ended?
  rw [ended_concat_ended]
  exact List.mem_append_right _ List.mem_cons_self

end Runs

/-- A run that has started ends when it is answered, if it has not ended before. -/
theorem run_completes {p : Pipeline} {spare : LayoutEngine} {calls : Nat} {s : Session}
    (hsound : Sound p spare calls s) (hquiet : s.IsQuiet) (between : List Event) (text : String)
    (outcome : Except Layout.EngineFailure Layout.Positions) :
    let token := s.pipeline.latest + 1
    let opened := s.step (.run text)
    let reached := opened.run between
    let left := reached.step (.answer token outcome)
    (∀ other, Event.answer token other ∉ between) →
      (∃ c ∈ left.ended, c.token = token ∧
        c.Completes text (∀ event ∈ between, event.isCall = false) ∧
        (c.result.status ≠ .committed →
          Untouched s.pipeline opened.pipeline ∧ Untouched reached.pipeline left.pipeline)) ∧
      (left.waiting = [] → left.pipeline.stage = .idle) := by
  intro token opened reached left hfirst
  have hopened := hsound.step (.run text)
  have hreached := hopened.run between
  refine ⟨?_, ?_⟩
  · rcases opens hsound text with ⟨c, hc, htoken, hcompletes, huntouched⟩ |
      ⟨run, hawaits, huntouched⟩
    · -- The run has ended before it could be answered.
      have hlater := mem_ended_run hc between
      have hignored : left = reached := by
        have hstep := step_answer_of_ended hreached hlater outcome
        rwa [htoken] at hstep
      rw [hignored]
      refine ⟨c, hlater, htoken, hcompletes.imp fun _ => trivial, fun hstatus => ?_⟩
      exact ⟨huntouched hstatus, Untouched.refl _⟩
    · have hlast : reached.Awaits token (some text) run := hawaits.run_events hfirst
      obtain ⟨c, hc, htoken, hcompletes, hleft⟩ := answers hreached hlast outcome
      refine ⟨c, hc, htoken, hcompletes.imp fun hcalls => ?_, fun hstatus => ?_⟩
      · -- Without another call the token of this one stays the latest.
        have hnone : between.countP Event.isCall = 0 :=
          List.countP_eq_zero.2 fun event hevent => by simp [hcalls event hevent]
        have hissued : s.pipeline.latest = p.latest + calls := hsound.latest
        have hlatest : reached.pipeline.latest =
            p.latest + (calls + 1 + between.countP Event.isCall) := hreached.latest
        show s.pipeline.latest + 1 = reached.pipeline.latest
        omega
      · exact ⟨huntouched, hleft hstatus⟩
  · intro hnone
    -- A session in which nothing waits is quiet only if it is idle.
    have hleft : left.IsQuiet := ((hquiet.step _).run between).step _
    rcases hleft with hstage | ⟨waitingText, run, hmem⟩
    · exact hstage
    · rw [hnone] at hmem
      cases hmem

/-- A run breaks down just where the canvas has more levels than a copy of it can go into, and then
as it starts: nothing but its token is gone, and the pipeline is idle. Every other run ends,
wherever it stands among other calls and whatever the engine answers: no step of it breaks down; it
ends with the error of its text, or it commits if no call starts before its last step and the canvas
does not refuse for a reason of its own; if it does not commit, its steps touch neither canvas nor
conversation nor settings; and the pipeline is idle once no call waits. -/
theorem run_breaks_down_iff {depth : Nat} (hdepth : 2 ≤ depth) (p : Pipeline)
    (hidle : p.stage = .idle) (htime : p.settings.HasTime) (before between : List Event)
    (text : String) (outcome : Except Layout.EngineFailure Layout.Positions) :
    let s := Strict.after depth (Session.start p) before
    let token := s.pipeline.latest + 1
    let opened := Strict.next depth s (.run text)
    let reached := Strict.after depth opened between
    let left := Strict.next depth reached (.answer token outcome)
    (∀ event breakdown, Strict.step depth s event = .error breakdown →
      breakdown = .tooDeep ∧ event.isCall = true ∧ depth < s.pipeline.store.snapshot.levels) ∧
    (depth < s.pipeline.store.snapshot.levels →
      Strict.step depth s (.run text) = .error .tooDeep ∧
      Untouched s.pipeline opened.pipeline ∧ opened.pipeline.stage = .idle) ∧
    (s.pipeline.store.snapshot.levels ≤ depth → (∀ other, Event.answer token other ∉ between) →
      Strict.run depth s (.run text :: (between ++ [.answer token outcome])) = .ok left ∧
      (∃ c ∈ left.ended, c.token = token ∧
        c.Completes text (∀ event ∈ between, event.isCall = false) ∧
        (c.result.status ≠ .committed →
          Untouched s.pipeline opened.pipeline ∧ Untouched reached.pipeline left.pipeline)) ∧
      (left.waiting = [] → left.pipeline.stage = .idle)) := by
  intro s token opened reached left
  -- Nothing that a pipeline commits is too deep, so what the canvas is at first decides.
  rcases Nat.lt_or_ge depth p.store.snapshot.levels with hdeep | hshallow
  · have hstuck : Strict.IsStuck depth s := (Strict.IsStuck.start hdeep hidle).after before
    have hrun := hstuck.step_run text
    have hopened : opened = { s with pipeline := s.pipeline.issue.1 } := by
      show Strict.next depth s (.run text) = _
      rw [Strict.next, hrun]
    refine ⟨fun event breakdown hbroken => ?_, fun _ => ⟨hrun, ?_, ?_⟩, fun hfits => ?_⟩
    · obtain ⟨hcall, herror⟩ | ⟨s', hstep, -⟩ := hstuck.step event
      · exact ⟨Except.error.inj (hbroken.symm.trans herror), hcall, hstuck.deep⟩
      · cases hbroken.symm.trans hstep
    · rw [hopened]
      exact ⟨rfl, rfl, rfl⟩
    · rw [hopened]
      exact hstuck.stage
    · exact absurd hfits (Nat.not_le.2 hstuck.deep)
  · let spare : LayoutEngine := fun _ _ _ => .ok []
    have hstart := Session.IsShallow.start hshallow
    have hs : s = (Session.start p).run before :=
      Strict.after_eq hdepth htime (Sound.start p spare) hstart before
    have hsound := (Sound.start p spare).run before
    have hfits := hstart.run hdepth (Sound.start p spare) before
    have hquiet : ((Session.start p).run before).IsQuiet :=
      Session.IsQuiet.run (.inl hidle) before
    rw [← hs] at hsound hfits hquiet
    refine ⟨fun event breakdown hbroken => ?_, fun hdeep => ?_, fun _ hfirst => ?_⟩
    · cases hbroken.symm.trans (Strict.step_eq_of_sound htime hsound hfits event)
    · exact absurd hfits.store (Nat.not_le.2 hdeep)
    have hopened : opened = s.step (.run text) := Strict.next_eq htime hsound hfits _
    have hopenedSound := hsound.step (.run text)
    have hopenedFits := hfits.step hdepth hsound (.run text)
    rw [← hopened] at hopenedSound hopenedFits
    have hreached : reached = opened.run between :=
      Strict.after_eq hdepth htime hopenedSound hopenedFits between
    have hreachedSound := hopenedSound.run between
    have hreachedFits := hopenedFits.run hdepth hopenedSound between
    rw [← hreached] at hreachedSound hreachedFits
    have hleft : left = reached.step (.answer token outcome) :=
      Strict.next_eq htime hreachedSound hreachedFits _
    refine ⟨?_, ?_⟩
    · rw [Strict.run_eq hdepth htime hsound hfits, hleft, hreached, hopened]
      simp only [Session.run, List.foldl_append, List.foldl_cons, List.foldl_nil]
    · rw [hleft, hreached, hopened]
      exact run_completes hsound hquiet between text outcome hfirst

/-- A pipeline that keeps nodes in their places, on a canvas where one id stands twice. -/
def keepingPipeline : Pipeline :=
  let node (label : String) (position : Option Point) : Node :=
    { id := "x", kind := .null, label, subLabel := .null, position, style := [] }
  ofStore ⟨[node "A" (some ⟨7, 7⟩), node "B" none], [], 0, none⟩ { keepPositions := true }

def nested : Nat → Value
  | 0 => .object []
  | n + 1 => .record [("a", nested n)]

theorem levels_nested (n : Nat) : (nested n).levels = n + 1 := by
  induction n with
  | zero => rfl
  | succ n ih =>
    rw [nested, Value.record, Value.levels]
    simp [Value.fieldLevels, ih]

/-- A canvas whose only node has a style of seven hundred levels. -/
def nestedStore : Store :=
  .ofSnapshot {
    nodes := [{
      id := "x"
      kind := .text "process"
      label := ""
      subLabel := .null
      position := none
      style := [(.text "a", nested 698)] }]
    edges := [] }

theorem levels_nestedStore : nestedStore.snapshot.levels = 700 := by
  have hstyle : (Value.object [(.text "a", nested 698)]).levels = 700 := by
    simp [Value.levels, Value.fieldLevels, levels_nested]
  have hvalues : nestedStore.snapshot.values =
      [.text "process", .null, .object [(.text "a", nested 698)]] := rfl
  rw [Snapshot.levels, hvalues]
  simp only [Value.listLevels, hstyle]
  rfl

/-- Where a copy goes 485 levels deep, a run on such a canvas breaks down. -/
theorem nested_canvas_breaks_run_down :
    Strict.step 485 (Session.start (ofStore nestedStore {})) (.run "[start] A") =
      .error .tooDeep := by
  apply Strict.IsStuck.step_run
  refine Strict.IsStuck.start ?_ rfl
  show 485 < nestedStore.snapshot.levels
  rw [levels_nestedStore]
  decide

def openedSession : Session :=
  Strict.after 485 (Session.start keepingPipeline) [.run "[start] C"]

/-- What becomes of it when another call starts, the first one is answered, and then the other. -/
def answeredSession : Session :=
  Strict.next 485
    (Strict.after 485
      (Strict.next 485 openedSession (.run "[start] A\n[end] x: B\nA -> x\nA -> D"))
      [.answer 1 (.error (.crashed "lost")), .clearHistory])
    (.answer (openedSession.pipeline.latest + 1) (.ok [("x", ⟨0, 0⟩)]))

theorem run_ends_beside_another :
    (∃ c ∈ answeredSession.ended, c.token = 2 ∧ c.result.status = .committed) ∧
      answeredSession.pipeline.stage = .idle ∧
    Strict.step 485 (Strict.after 485 (Session.start (ofStore nestedStore {})) [])
      (.run "[start] A") = .error .tooDeep := by
  have htoken : openedSession.pipeline.latest = 1 := by decide +kernel
  have hfirst : ∀ other, Event.answer (openedSession.pipeline.latest + 1) other ∉
      [Event.answer 1 (.error (.crashed "lost")), .clearHistory] := by
    simp [htoken]
  have htime : keepingPipeline.settings.HasTime := by
    unfold Settings.HasTime
    decide +kernel
  have hread : (Diagram.parse (Diagram.unwrap
      "[start] A\n[end] x: B\nA -> x\nA -> D")).toOption.isSome = true := by decide +kernel
  have hunlocked : ∀ c ∈ answeredSession.ended, c.before.lock = none := by decide +kernel
  have hnone : answeredSession.waiting.isEmpty = true := by decide +kernel
  have hfits : openedSession.pipeline.store.snapshot.levels ≤ 485 := by decide +kernel
  obtain ⟨-, -, hends⟩ := run_breaks_down_iff (by decide : 2 ≤ 485) keepingPipeline rfl
    htime [.run "[start] C"] [.answer 1 (.error (.crashed "lost")), .clearHistory]
    "[start] A\n[end] x: B\nA -> x\nA -> D" (.ok [("x", ⟨0, 0⟩)])
  obtain ⟨-, ⟨c, hc, hcurrent, hcompletes, -⟩, hidle⟩ := hends hfits hfirst
  obtain ⟨-, hbreaks, -⟩ := run_breaks_down_iff (by decide : 2 ≤ 485) (ofStore nestedStore {}) rfl
    htime [] [] "[start] A" (.ok [])
  have hdeep : 485 < nestedStore.snapshot.levels := by
    rw [levels_nestedStore]
    decide
  refine ⟨⟨c, hc, ?_, ?_⟩, hidle (List.isEmpty_iff.1 hnone), (hbreaks hdeep).1⟩
  · exact hcurrent.trans (congrArg (· + 1) htoken)
  · cases hparse : Diagram.parse (Diagram.unwrap "[start] A\n[end] x: B\nA -> x\nA -> D") with
    | error error => simp [hparse, Except.toOption] at hread
    | ok document =>
      exact hcompletes.committed document hparse (by simp [Event.isCall]) (hunlocked c hc)

end FlowCanvas.Pipeline
