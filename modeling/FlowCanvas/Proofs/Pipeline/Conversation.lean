import FlowCanvas.Proofs.Pipeline.Interleaving

namespace FlowCanvas.Pipeline

@[ext]
structure Exchange where
  token : Nat
  prompt : String
  image : Option String
  text : String

def Exchange.turns (e : Exchange) : List Message :=
  [⟨"user", if e.image.getD "" = "" then e.prompt else e.prompt ++ " [Image Attached]"⟩,
    ⟨"model", e.text⟩]

/-- At one of the events something held of it and those before it, and no event after it is of a
kind. -/
def Since (P : List Event → Event → Prop) (kind : Event → Prop) (events : List Event) : Prop :=
  ∃ before event after, events = before ++ event :: after ∧ P before event ∧
    ∀ later ∈ after, ¬ kind later

def Event.Replies (token : Nat) (event : Event) : Prop :=
  ∃ reply, event = .reply token reply

/-- The call with a token has asked the generator, which has not answered since. -/
def Asked (events : List Event) (token : Nat) (prompt : String) (image : Option String) : Prop :=
  Since
    (fun before event =>
      event = .regenerate true prompt image ∧ token = before.countP Event.isCall + 1)
    (Event.Replies token) events

/-- The event at a position has completed an exchange, and the conversation has not been cleared
since. -/
def Exchange.CompletedAt (events : List Event) (i : Nat) (e : Exchange) : Prop :=
  Since
    (fun before event => before.length = i ∧ Asked before e.token e.prompt e.image ∧
      ∃ reply, event = .reply e.token reply ∧ reply.text? = some e.text)
    (· = .clearHistory) events

structure AreCompleted (events : List Event) (kept : List (Nat × Exchange)) : Prop where
  increasing : (kept.map (·.1)).Pairwise (· < ·)
  nodup : (kept.map (·.2.token)).Nodup
  mem_iff : ∀ i e, (i, e) ∈ kept ↔ e.CompletedAt events i

def Session.ask (s : Session) (prompt : String) (image : Option String) : Request where
  token := s.pipeline.latest + 1
  base := s.pipeline.store.snapshot
  history := s.pipeline.history
  prompt
  current := s.pipeline.store.snapshot.summary
  image

/-- An element is told by how many before it satisfy a predicate that it satisfies. -/
theorem eq_of_split_of_countP_eq {α : Type} {p : α → Bool} {x x' : α} {xs xs' ys ys' : List α}
    (h : xs ++ x :: ys = xs' ++ x' :: ys') (hx : p x = true) (hx' : p x' = true)
    (hcount : xs.countP p = xs'.countP p) : xs = xs' ∧ x = x' ∧ ys = ys' := by
  have hlength : xs.length = xs'.length := by
    rcases List.append_eq_append_iff.1 h with ⟨zs, rfl, hzs⟩ | ⟨zs, rfl, hzs⟩
    all_goals
      cases zs with
      | nil => simp
      | cons z r =>
        obtain ⟨rfl, -⟩ := List.cons.inj hzs
        simp [*] at hcount
  obtain ⟨rfl, hrest⟩ := List.append_inj h hlength
  exact ⟨rfl, List.cons.inj hrest⟩

section Events
variable {events : List Event} {event : Event} {token : Nat} {prompt : String}
  {image : Option String} {i : Nat} {e : Exchange}

/-- With one more event, something has held at that event, or before and that event is not of the
kind. -/
theorem since_concat_iff {P : List Event → Event → Prop} {kind : Event → Prop} :
    Since P kind (events ++ [event]) ↔ (Since P kind events ∧ ¬ kind event) ∨ P events event := by
  constructor
  · rintro ⟨before, x, after, hsplit, hP, hkind⟩
    rcases concat_eq_append_cons_iff.1 hsplit with ⟨rfl, rfl, -⟩ | ⟨r, rfl, hbefore⟩
    · exact .inr hP
    · rw [List.forall_mem_append, List.forall_mem_singleton] at hkind
      exact .inl ⟨⟨before, x, r, hbefore, hP, hkind.1⟩, hkind.2⟩
  · rintro (⟨⟨before, x, after, rfl, hP, hkind⟩, hevent⟩ | hP)
    · refine ⟨before, x, after ++ [event], List.append_assoc _ _ _, hP, ?_⟩
      rw [List.forall_mem_append, List.forall_mem_singleton]
      exact ⟨hkind, hevent⟩
    · exact ⟨events, event, [], rfl, hP, List.forall_mem_nil _⟩

theorem not_since_nil {P : List Event → Event → Prop} {kind : Event → Prop} :
    ¬ Since P kind [] := by
  rintro ⟨before, x, after, hsplit, -⟩
  simp at hsplit

theorem completedAt_concat_iff :
    e.CompletedAt (events ++ [event]) i ↔
      (e.CompletedAt events i ∧ event ≠ .clearHistory) ∨
        events.length = i ∧ Asked events e.token e.prompt e.image ∧
          ∃ reply, event = .reply e.token reply ∧ reply.text? = some e.text :=
  since_concat_iff

theorem Exchange.CompletedAt.lt_length (h : e.CompletedAt events i) : i < events.length := by
  obtain ⟨before, event, after, rfl, ⟨rfl, -⟩, -⟩ := h
  simp

theorem Asked.unique {prompt' : String} {image' : Option String}
    (h : Asked events token prompt image) (h' : Asked events token prompt' image') :
    prompt = prompt' ∧ image = image' := by
  obtain ⟨before, event, after, rfl, ⟨rfl, htoken⟩, -⟩ := h
  obtain ⟨before', event', after', hsplit, ⟨rfl, htoken'⟩, -⟩ := h'
  have hcount : before.countP Event.isCall = before'.countP Event.isCall := by omega
  obtain ⟨-, hevent, -⟩ := eq_of_split_of_countP_eq hsplit rfl rfl hcount
  obtain ⟨-, hprompt, himage⟩ := Event.regenerate.inj hevent
  exact ⟨hprompt, himage⟩

theorem Exchange.CompletedAt.not_asked (h : e.CompletedAt events i) :
    ¬ Asked events e.token prompt image := by
  obtain ⟨before, event, after, rfl, ⟨-, hasked, reply, rfl, -⟩, -⟩ := h
  obtain ⟨first, question, between, rfl, ⟨rfl, htoken⟩, -⟩ := hasked
  rintro ⟨first', question', between', hsplit, ⟨rfl, htoken'⟩, hopen⟩
  have hcount : first.countP Event.isCall = first'.countP Event.isCall := by omega
  rw [List.append_assoc, List.cons_append] at hsplit
  obtain ⟨-, -, rfl⟩ := eq_of_split_of_countP_eq hsplit rfl rfl hcount
  exact hopen _ (List.mem_append_right _ List.mem_cons_self) ⟨reply, rfl⟩

namespace AreCompleted
variable {kept : List (Nat × Exchange)}

/-- An event that completes no exchange leaves them as they are, unless it clears them. -/
theorem keep (h : AreCompleted events kept) (hclear : event ≠ .clearHistory)
    (hevent : ∀ token prompt image reply, event = .reply token reply →
      Asked events token prompt image → reply.text? = none) :
    AreCompleted (events ++ [event]) kept := by
  refine ⟨h.increasing, h.nodup, fun i e => ?_⟩
  rw [h.mem_iff, completedAt_concat_iff, or_iff_left, and_iff_left hclear]
  rintro ⟨-, hasked, reply, hreply, htext⟩
  cases htext.symm.trans (hevent _ _ _ reply hreply hasked)

theorem clear : AreCompleted (events ++ [.clearHistory]) [] := by
  refine ⟨.nil, .nil, fun i e => ?_⟩
  simp [completedAt_concat_iff]

theorem complete (h : AreCompleted events kept) (hasked : Asked events e.token e.prompt e.image)
    {reply : Reply} (htext : reply.text? = some e.text) :
    AreCompleted (events ++ [.reply e.token reply]) (kept ++ [(events.length, e)]) := by
  have hearlier (k : Nat × Exchange) (hk : k ∈ kept) : k.2.CompletedAt events k.1 :=
    (h.mem_iff _ _).1 hk
  refine ⟨?_, ?_, fun i e' => ?_⟩
  · rw [List.map_append, List.pairwise_append]
    refine ⟨h.increasing, List.pairwise_singleton _ _, ?_⟩
    intro i hi j hj
    obtain ⟨k, hk, rfl⟩ := List.mem_map.1 hi
    obtain rfl := List.mem_singleton.1 hj
    exact (hearlier k hk).lt_length
  · rw [List.map_append, List.nodup_append]
    refine ⟨h.nodup, List.nodup_singleton _, ?_⟩
    -- The earlier exchanges are over, so their calls ask for nothing.
    intro token htoken token' htoken' heq
    obtain ⟨k, hk, rfl⟩ := List.mem_map.1 htoken
    rw [List.map_singleton, List.mem_singleton] at htoken'
    rw [← htoken', ← heq] at hasked
    exact (hearlier k hk).not_asked hasked
  · rw [completedAt_concat_iff, List.mem_append, h.mem_iff, List.mem_singleton, Prod.mk.injEq]
    refine or_congr (by simp) ?_
    constructor
    · rintro ⟨rfl, rfl⟩
      exact ⟨rfl, hasked, reply, rfl, htext⟩
    · rintro ⟨rfl, hasked', reply', hreply, htext'⟩
      obtain ⟨htoken, rfl⟩ := Event.reply.inj hreply
      rw [← htoken] at hasked'
      obtain ⟨hprompt, himage⟩ := hasked'.unique hasked
      have htexts := Option.some.inj (htext'.symm.trans htext)
      exact ⟨rfl, Exchange.ext htoken.symm hprompt himage htexts⟩

end AreCompleted
end Events

section Waiting
variable {p : Pipeline} {spare : LayoutEngine} {calls : Nat} {s : Session} {request : Request}

theorem Sound.find?_eq_of_mem (h : Sound p spare calls s) {w : Waiting} (hw : w ∈ s.waiting) :
    s.waiting.find? (·.token = w.token) = some w := by
  cases hfound : s.waiting.find? (·.token = w.token) with
  | none => simpa using List.find?_eq_none.1 hfound w hw
  | some v =>
    have hnodup : (s.waiting.map Waiting.token).Nodup := (List.nodup_append.1 h.nodup).2.1
    rw [List.inj_on_of_nodup_map hnodup (List.mem_of_find?_eq_some hfound) hw
      (Session.token_of_find? hfound)]

theorem mem_waiting_proceed (s : Session) (base : Snapshot) (text : Option String)
    (progress : Pipeline × Progress) :
    .generator request ∈ (s.proceed base text progress).waiting ↔
      .generator request ∈ s.waiting := by
  obtain ⟨q, result | run⟩ := progress
  · rfl
  · simp [Session.proceed]

theorem Sound.mem_drop_iff (h : Sound p spare calls s) {token : Nat} {v w : Waiting}
    (hfound : s.waiting.find? (·.token = token) = some v) :
    w ∈ (s.drop token).waiting ↔ w ∈ s.waiting ∧ w.token ≠ token := by
  have hperm := Sound.perm_cons_drop hfound
  have htoken : v.token = token := Session.token_of_find? hfound
  have hnodup := (hperm.map Waiting.token).nodup_iff.1 (List.nodup_append.1 h.nodup).2.1
  rw [List.map_cons, List.nodup_cons, htoken] at hnodup
  rw [hperm.mem_iff, List.mem_cons]
  constructor
  · intro hw
    refine ⟨.inr hw, ?_⟩
    rintro rfl
    exact hnodup.1 (List.mem_map_of_mem hw)
  · rintro ⟨rfl | hw, hne⟩
    · exact absurd htoken hne
    · exact hw

/-- A request waits until it is answered. -/
theorem mem_waiting_step_iff (h : Sound p spare calls s) (event : Event) :
    .generator request ∈ (s.step event).waiting ↔
      (.generator request ∈ s.waiting ∧ ¬ event.Replies request.token) ∨
        event = .regenerate true request.prompt request.image ∧
          request = s.ask request.prompt request.image := by
  unfold Event.Replies
  cases event with
  | run text => simp [Session.step, mem_waiting_proceed, Session.call]
  | regenerate hasGenerator prompt image =>
    cases hasGenerator with
    | true =>
      show _ ∈ s.waiting ++ [Waiting.generator (s.ask prompt image)] ↔ _
      have hask : request = s.ask prompt image ↔ (prompt = request.prompt ∧ image = request.image) ∧
          request = s.ask request.prompt request.image := by
        constructor
        · rintro rfl
          exact ⟨⟨rfl, rfl⟩, rfl⟩
        · rintro ⟨⟨rfl, rfl⟩, hrequest⟩
          exact hrequest
      simp [← hask]
    | false =>
      show _ ∈ s.waiting ↔ _
      simp
  | reply token reply =>
    -- A request is told by its token, so the call that is found is the one that is answered.
    have hfirst (hw : .generator request ∈ s.waiting) (htoken : token = request.token) :
        s.waiting.find? (·.token = token) = some (.generator request) := by
      rw [htoken]
      exact h.find?_eq_of_mem hw
    rw [Session.step]
    cases hfound : s.waiting.find? (·.token = token) with
    | none =>
      rw [hfound] at hfirst
      simpa using hfirst
    | some w =>
      cases w with
      | engine text run =>
        rw [hfound] at hfirst
        simpa using hfirst
      | generator other =>
        simp [mem_waiting_proceed, h.mem_drop_iff hfound, Waiting.token, eq_comm]
  | answer token outcome =>
    rw [Session.step]
    cases hfound : s.waiting.find? (·.token = token) with
    | none => simp
    | some w =>
      cases w with
      | generator other => simp
      | engine text run =>
        -- The engine answers for a call that waits for it, and no request has the same token.
        have hkept (hw : .generator request ∈ s.waiting) : request.token ≠ token := by
          rintro rfl
          cases hfound.symm.trans (h.find?_eq_of_mem hw)
        show _ ∈ (s.drop token).waiting ↔ _
        simpa [h.mem_drop_iff hfound, Waiting.token] using hkept
  | clearHistory =>
    show _ ∈ s.waiting ↔ _
    simp
  | lock reason =>
    show _ ∈ s.waiting ↔ _
    simp

/-- The requests that wait are those that have been made and not been answered, each with what the
session had for the generator when it was made. -/
theorem mem_waiting_run_iff (p : Pipeline) (events : List Event) (request : Request) :
    .generator request ∈ ((Session.start p).run events).waiting ↔
      Since
        (fun before event => event = .regenerate true request.prompt request.image ∧
          request = ((Session.start p).run before).ask request.prompt request.image)
        (Event.Replies request.token) events := by
  induction events using List.reverseRecOn with
  | nil => exact iff_of_false List.not_mem_nil not_since_nil
  | append_singleton events event ih =>
    have hsound := (Sound.start p fun _ _ _ => .ok []).run events
    rw [Session.run_concat, mem_waiting_step_iff hsound, ih, since_concat_iff]

end Waiting

section History
variable {s : Session}

theorem history_receive (q : Pipeline) (request : Request) (reply : Reply) :
    (q.receive request reply).1.history =
      q.history ++ (reply.text?.map (exchange request)).getD [] := by
  cases htext : reply.text? with
  | none =>
    obtain ⟨message, hreceive⟩ := receive_of_no_text q request htext
    rw [hreceive]
    exact (List.append_nil _).symm
  | some text =>
    rw [receive_of_text q request htext]
    exact history_execute _ _ _ _

theorem pipeline_proceed (s : Session) (base : Snapshot) (text : Option String)
    (progress : Pipeline × Progress) : (s.proceed base text progress).pipeline = progress.1 := by
  obtain ⟨q, result | run⟩ := progress <;> rfl

theorem history_step_of_ne {event : Event} (hclear : event ≠ .clearHistory)
    (hreply : ∀ token reply, event ≠ .reply token reply) :
    (s.step event).pipeline.history = s.pipeline.history := by
  have hmoves := s.moves_step event
  generalize s.step event = s' at hmoves ⊢
  cases hmoves with
  | runs text =>
    rw [pipeline_proceed, history_execute]
    rfl
  | asks prompt image request => rfl
  | lacksGenerator prompt image result => rfl
  | replied token reply request hfound => exact absurd rfl (hreply token reply)
  | answered token outcome text run hfound => exact history_conclude _ _ _
  | ignored => rfl
  | clears => exact absurd rfl hclear
  | locks reason => rfl

theorem history_reply {token : Nat} {request : Request}
    (hfound : s.waiting.find? (·.token = token) = some (.generator request)) (reply : Reply) :
    (s.step (.reply token reply)).pipeline.history =
      s.pipeline.history ++ (reply.text?.map (exchange request)).getD [] := by
  rw [Session.step, hfound]
  simp only
  rw [pipeline_proceed, history_receive]

theorem step_reply_of_not_waiting {token : Nat}
    (h : ∀ request, .generator request ∈ s.waiting → request.token ≠ token) (reply : Reply) :
    s.step (.reply token reply) = s := by
  rw [Session.step]
  cases hfound : s.waiting.find? (·.token = token) with
  | none => rfl
  | some w =>
    cases w with
    | engine text run => rfl
    | generator request =>
      exact absurd (Session.token_of_find? hfound)
        (h request (List.mem_of_find?_eq_some hfound))

end History

section Fresh
variable (store : Store) (settings : Settings) (events : List Event)

theorem asked_iff (token : Nat) (prompt : String) (image : Option String) :
    Asked events token prompt image ↔
      ∃ request,
        .generator request ∈ ((Session.start (ofStore store settings)).run events).waiting ∧
        request.token = token ∧ request.prompt = prompt ∧ request.image = image := by
  have htoken (before : List Event) :
      ((Session.start (ofStore store settings)).run before).pipeline.latest =
        before.countP Event.isCall := by
    have hlatest := ((Sound.start (ofStore store settings) fun _ _ _ => .ok []).run before).latest
    simpa [ofStore] using hlatest
  -- Tokens count the calls so far, so both sides speak of the same event.
  constructor
  · rintro ⟨before, event, after, hsplit, ⟨rfl, rfl⟩, hopen⟩
    let request := ((Session.start (ofStore store settings)).run before).ask prompt image
    have hrequest : request.token = before.countP Event.isCall + 1 := by
      simp only [request, Session.ask, htoken]
    refine ⟨request, (mem_waiting_run_iff _ _ _).2 ?_, hrequest, rfl, rfl⟩
    rw [← hrequest] at hopen
    exact ⟨before, _, after, hsplit, ⟨rfl, rfl⟩, hopen⟩
  · rintro ⟨request, hmem, rfl, rfl, rfl⟩
    obtain ⟨before, event, after, hsplit, ⟨hevent, hrequest⟩, hopen⟩ :=
      (mem_waiting_run_iff _ _ _).1 hmem
    refine ⟨before, event, after, hsplit, ⟨hevent, ?_⟩, hopen⟩
    rw [hrequest]
    simp only [Session.ask, htoken]

theorem exchange_eq_turns (request : Request) (text : String) :
    exchange request text =
      Exchange.turns ⟨request.token, request.prompt, request.image, text⟩ := by
  by_cases h : request.image.getD "" = ""
  · simp [exchange, Exchange.turns, h, Prompt.userRole, Prompt.modelRole]
  · simp [exchange, Exchange.turns, h, Prompt.userRole, Prompt.modelRole, Prompt.imageSuffix]

/-- A reply completes the exchange of the call that waits for it, provided that it has a text. -/
theorem exists_kept_reply {p : Pipeline} {spare : LayoutEngine} {calls : Nat} {s : Session}
    (hsound : Sound p spare calls s) {events : List Event} {kept : List (Nat × Exchange)}
    (hasked : ∀ token prompt image, Asked events token prompt image ↔
      ∃ request, .generator request ∈ s.waiting ∧
        request.token = token ∧ request.prompt = prompt ∧ request.image = image)
    (hkept : AreCompleted events kept)
    (hhistory : s.pipeline.history = kept.flatMap fun k => k.2.turns)
    (token : Nat) (reply : Reply) :
    ∃ kept', AreCompleted (events ++ [.reply token reply]) kept' ∧
      (s.step (.reply token reply)).pipeline.history = kept'.flatMap fun k => k.2.turns := by
  have hclear : Event.reply token reply ≠ .clearHistory := fun h => by cases h
  by_cases hwaits : ∃ request, .generator request ∈ s.waiting ∧ request.token = token
  · obtain ⟨request, hmem, rfl⟩ := hwaits
    have hfound : s.waiting.find? (·.token = request.token) = some (.generator request) :=
      hsound.find?_eq_of_mem hmem
    rw [history_reply hfound reply, hhistory]
    cases htext : reply.text? with
    | none =>
      -- A reply without a text completes nothing.
      refine ⟨kept, hkept.keep hclear fun _ _ _ _ heq _ => ?_, List.append_nil _⟩
      rw [← (Event.reply.inj heq).2, htext]
    | some text =>
      let e : Exchange := ⟨request.token, request.prompt, request.image, text⟩
      have hopen : Asked events e.token e.prompt e.image :=
        (hasked _ _ _).2 ⟨request, hmem, rfl, rfl, rfl⟩
      refine ⟨kept ++ [(events.length, e)], hkept.complete hopen htext, ?_⟩
      rw [List.flatMap_append, List.flatMap_singleton, ← exchange_eq_turns]
      rfl
  · rw [step_reply_of_not_waiting fun request hmem htoken => hwaits ⟨request, hmem, htoken⟩]
    refine ⟨kept, hkept.keep hclear fun _ _ _ _ heq hopen => ?_, hhistory⟩
    obtain ⟨request, hmem, htoken, -⟩ := (hasked _ _ _).1 hopen
    exact absurd ⟨request, hmem, htoken.trans (Event.reply.inj heq).1.symm⟩ hwaits

/-- The conversation follows the completed exchanges, event by event. -/
theorem exists_kept :
    ∃ kept, AreCompleted events kept ∧
      ((Session.start (ofStore store settings)).run events).pipeline.history =
        kept.flatMap fun k => k.2.turns := by
  induction events using List.reverseRecOn with
  | nil =>
    refine ⟨[], ⟨.nil, .nil, fun i e => ?_⟩, rfl⟩
    exact iff_of_false List.not_mem_nil not_since_nil
  | append_singleton events event ih =>
    obtain ⟨kept, hkept, hhistory⟩ := ih
    have hsound := (Sound.start (ofStore store settings) fun _ _ _ => .ok []).run events
    rw [Session.run_concat]
    by_cases hclear : event = .clearHistory
    · subst hclear
      exact ⟨[], .clear, rfl⟩
    by_cases hreply : ∃ token reply, event = .reply token reply
    · obtain ⟨token, reply, rfl⟩ := hreply
      exact exists_kept_reply hsound (asked_iff store settings events) hkept hhistory token reply
    · push Not at hreply
      refine ⟨kept, hkept.keep hclear fun token _ _ reply heq => ?_, ?_⟩
      · exact absurd heq (hreply token reply)
      · rw [history_step_of_ne hclear hreply, hhistory]

theorem roles_flatMap_turns (kept : List (Nat × Exchange)) :
    (kept.flatMap fun k => k.2.turns).map (·.role) =
      (List.replicate kept.length ["user", "model"]).flatten := by
  induction kept with
  | nil => rfl
  | cons k r ih =>
    rw [List.flatMap_cons, List.map_append, ih, List.length_cons, List.replicate_succ,
      List.flatten_cons]
    rfl

end Fresh

/-- Whatever calls overlap and whatever becomes of their diagrams, the conversation is at all times
the turns of the exchanges that were completed since it was last cleared, in the order in which the
generator answered, so that the roles alternate. Every call asks the generator with the conversation
as it stands when the call starts. -/
theorem conversation_is_completed_exchanges (store : Store) (settings : Settings)
    (events : List Event) :
    let s := (Session.start (ofStore store settings)).run events
    (∃ kept, AreCompleted events kept ∧
      s.pipeline.history = kept.flatMap (fun k => k.2.turns) ∧
      s.pipeline.history.map (·.role) = (List.replicate kept.length ["user", "model"]).flatten) ∧
    ∀ request, .generator request ∈ s.waiting ↔
      Since
        (fun before event => event = .regenerate true request.prompt request.image ∧
          request = ((Session.start (ofStore store settings)).run before).ask request.prompt
            request.image)
        (Event.Replies request.token) events := by
  intro s
  obtain ⟨kept, hkept, hhistory⟩ := exists_kept store settings events
  refine ⟨⟨kept, hkept, hhistory, ?_⟩, mem_waiting_run_iff _ _⟩
  rw [hhistory, roles_flatMap_turns]

/-- Two calls overlap. The first is answered after the conversation is cleared and then gives way;
the second fails. -/
example : ((Session.start (ofStore .empty {})).run
    [.regenerate true "a" (some "x"), .regenerate true "b" none, .clearHistory,
      .reply 2 (.refused "no"), .reply 1 (.text (some "[start] A"))]).pipeline.history =
    [⟨"user", "a [Image Attached]"⟩, ⟨"model", "[start] A"⟩] := by
  decide +kernel

end FlowCanvas.Pipeline
