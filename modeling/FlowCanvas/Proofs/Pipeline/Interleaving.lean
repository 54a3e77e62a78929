import Mathlib.Data.List.Range
import FlowCanvas.Proofs.Pipeline.LastStep

namespace FlowCanvas.Pipeline

section Record
variable {record : List Entry}

theorem started_concat_started (record : List Entry) (token : Nat) :
    (record ++ [Entry.started token]).filterMap Entry.started? =
      record.filterMap Entry.started? ++ [token] := by
  simp [Entry.started?]

theorem started_concat_ended (record : List Entry) (c : Ending) :
    (record ++ [Entry.ended c]).filterMap Entry.started? = record.filterMap Entry.started? := by
  simp [Entry.started?]

theorem ended_concat_started (record : List Entry) (token : Nat) :
    (record ++ [Entry.started token]).filterMap Entry.ended? = record.filterMap Entry.ended? := by
  simp [Entry.ended?]

theorem ended_concat_ended (record : List Entry) (c : Ending) :
    (record ++ [Entry.ended c]).filterMap Entry.ended? = record.filterMap Entry.ended? ++ [c] := by
  simp [Entry.ended?]

theorem filterMap_started?_split (earlier later : List Entry) (token : Nat) :
    (earlier ++ .started token :: later).filterMap Entry.started? =
      earlier.filterMap Entry.started? ++ token :: later.filterMap Entry.started? := by
  simp [Entry.started?]

/-- Where tokens increase and the latest has been started, a call is overtaken unless it has the
latest token. -/
theorem overtaken_iff {token latest : Nat}
    (hincreasing : (record.filterMap Entry.started?).Pairwise (· < ·))
    (hlatest : latest ∈ record.filterMap Entry.started?)
    (hle : ∀ t ∈ record.filterMap Entry.started?, t ≤ latest)
    (htoken : token ∈ record.filterMap Entry.started?) :
    Overtaken record token ↔ token ≠ latest := by
  constructor
  · rintro ⟨earlier, later, other, rfl, hother⟩ rfl
    have hmem : other ∈ later.filterMap Entry.started? :=
      List.mem_filterMap.2 ⟨_, hother, rfl⟩
    rw [filterMap_started?_split] at hincreasing hle
    have hlt := (List.pairwise_cons.1 (List.pairwise_append.1 hincreasing).2.1).1 other hmem
    have hge := hle other (List.mem_append_right _ (List.mem_cons_of_mem _ hmem))
    omega
  · intro hne
    obtain ⟨entry, hentry, hstarted⟩ := List.mem_filterMap.1 htoken
    obtain ⟨earlier, later, rfl⟩ := List.append_of_mem hentry
    cases entry with
    | ended c => cases hstarted
    | started t =>
      obtain rfl := Option.some.inj hstarted
      rw [filterMap_started?_split] at hincreasing hlatest hle
      -- Tokens increase, so the latest one can only come after another.
      rcases List.mem_append.1 hlatest with hmem | hmem
      · have hlt := (List.pairwise_append.1 hincreasing).2.2 latest hmem t List.mem_cons_self
        have hge := hle t (List.mem_append_right _ List.mem_cons_self)
        omega
      · rcases List.mem_cons.1 hmem with heq | hmem
        · exact absurd heq.symm hne
        · obtain ⟨entry, hentry, hstarted⟩ := List.mem_filterMap.1 hmem
          cases entry with
          | ended c => cases hstarted
          | started other => exact ⟨earlier, later, other, rfl, hentry⟩

theorem forall_ended_concat {P : List Entry → Ending → Prop} {entry : Entry}
    (h : ∀ past c future, record = past ++ .ended c :: future → P past c)
    (hentry : ∀ c, entry = .ended c → P record c) :
    ∀ past c future, record ++ [entry] = past ++ .ended c :: future → P past c := by
  intro past c future heq
  rcases concat_eq_append_cons_iff.1 heq with ⟨rfl, hlast, -⟩ | ⟨r, -, hsplit⟩
  · exact hentry c hlast.symm
  · exact h past c r hsplit

end Record

/-- How a call ends, given the record up to then. It commits, or the canvas refuses because it is
locked, if no call started after it; otherwise it gives way. Nothing is written unless it commits,
and then the canvas is the one that it was reconciled with. -/
structure Ending.IsSettled (past : List Entry) (c : Ending) : Prop where
  unchecked : ¬ c.IsChecked → c.FailedEarly
  current : c.IsChecked → ((c.result.status = .committed ∨
    ∃ reason, c.result.status = .failed (.rejected reason)) ↔ ¬ Overtaken past c.token)
  superseded : c.IsChecked → (c.result.status = .superseded ↔ Overtaken past c.token)
  rejected : ∀ reason, c.result.status = .failed (.rejected reason) → c.before.lock = some reason
  unwritten : c.result.status ≠ .committed → c.after = c.before
  fresh : c.result.status = .committed → c.before.lock = none ∧ c.before.snapshot = c.base

section Settled
variable {past : List Entry} {c : Ending}

theorem Ending.isSettled_of_failed (hunchecked : ¬ c.IsChecked) (hstatus : c.FailedEarly)
    (hsame : c.after = c.before) : c.IsSettled past := by
  refine ⟨fun _ => hstatus, ?_, ?_, ?_, fun _ => hsame, ?_⟩
  · intro hchecked
    exact absurd hchecked hunchecked
  · intro hchecked
    exact absurd hchecked hunchecked
  · intro reason hrejected
    obtain ⟨error, he⟩ | ⟨message, he⟩ := hstatus <;> cases he.symm.trans hrejected
  · intro hcommitted
    obtain ⟨error, he⟩ | ⟨message, he⟩ := hstatus <;> cases he.symm.trans hcommitted

theorem Ending.isSettled_of_superseded (hchecked : c.IsChecked) (hlate : Overtaken past c.token)
    (hstatus : c.result.status = .superseded) (hsame : c.after = c.before) :
    c.IsSettled past := by
  refine ⟨?_, ?_, ?_, ?_, fun _ => hsame, ?_⟩
  · intro hunchecked
    exact absurd hchecked hunchecked
  · simp [hstatus, hlate]
  · simp [hstatus, hlate]
  · intro reason hrejected
    cases hstatus.symm.trans hrejected
  · intro hcommitted
    cases hstatus.symm.trans hcommitted

theorem Ending.isSettled_of_rejected (hchecked : c.IsChecked) (hfree : ¬ Overtaken past c.token)
    {reason : String} (hstatus : c.result.status = .failed (.rejected reason))
    (hlock : c.before.lock = some reason) (hsame : c.after = c.before) : c.IsSettled past := by
  refine ⟨?_, ?_, ?_, ?_, fun _ => hsame, ?_⟩
  · intro hunchecked
    exact absurd hchecked hunchecked
  · simp [hstatus, hfree]
  · simp [hstatus, hfree]
  · intro other hrejected
    cases hstatus.symm.trans hrejected
    exact hlock
  · intro hcommitted
    cases hstatus.symm.trans hcommitted

theorem Ending.isSettled_of_committed (hchecked : c.IsChecked) (hfree : ¬ Overtaken past c.token)
    (hstatus : c.result.status = .committed) (hlock : c.before.lock = none)
    (hfresh : c.before.snapshot = c.base) : c.IsSettled past := by
  refine ⟨?_, ?_, ?_, ?_, ?_, fun _ => ⟨hlock, hfresh⟩⟩
  · intro hunchecked
    exact absurd hchecked hunchecked
  · simp [hstatus, hfree]
  · simp [hstatus, hfree]
  · intro reason hrejected
    cases hstatus.symm.trans hrejected
  · intro hne
    exact absurd hstatus hne

end Settled

theorem replay_concat (spare : LayoutEngine) (p : Pipeline) (calls : List Ending) (c : Ending) :
    replay spare p (calls ++ [c]) =
      ((replay spare p calls).runWith (c.engine spare) (c.text.getD "")).1 := by
  rw [replay, List.foldl_concat, replay]

/-- A waiting call with the latest token has the current canvas as its base. -/
structure Waiting.IsReady (q : Pipeline) (w : Waiting) : Prop where
  fresh : w.token = q.latest → w.base = q.store.snapshot
  planned : w.IsPlanned q.settings

structure Sound (p : Pipeline) (spare : LayoutEngine) (calls : Nat) (s : Session) : Prop where
  settings : s.pipeline.settings = p.settings
  latest : s.pipeline.latest = p.latest + calls
  started : s.started = List.range' (p.latest + 1) calls
  tokens : (s.ended.map (·.token) ++ s.waiting.map (·.token)).Perm s.started
  waiting : ∀ w ∈ s.waiting, w.IsReady s.pipeline
  ended : ∀ past c future, s.record = past ++ .ended c :: future → c.IsSettled past
  increasing : (s.committed.map (·.token)).Pairwise (· < ·)
  replaySettings : (replay spare (unlocked p) s.committed).settings = p.settings
  replayed : (replay spare (unlocked p) s.committed).store = (unlocked s.pipeline).store

namespace Sound
variable {p : Pipeline} {spare : LayoutEngine} {calls : Nat} {s : Session} {q q' : Pipeline}
  {waiting : List Waiting} {record : List Entry} {w : Waiting}

theorem nodup (h : Sound p spare calls s) :
    (s.ended.map (·.token) ++ s.waiting.map (·.token)).Nodup := by
  rw [h.tokens.nodup_iff, h.started]
  exact List.nodup_range'

theorem le_latest (h : Sound p spare calls s) {token : Nat} (htoken : token ∈ s.started) :
    token ≤ s.pipeline.latest := by
  rw [h.started, List.mem_range'_1] at htoken
  rw [h.latest]
  omega

theorem mem_started_of_waiting (h : Sound p spare calls s) (hw : w ∈ s.waiting) :
    w.token ∈ s.started :=
  h.tokens.subset (List.mem_append_right _ (List.mem_map_of_mem hw))

theorem mem_started_of_ended (h : Sound p spare calls s) {c : Ending} (hc : c ∈ s.ended) :
    c.token ∈ s.started :=
  h.tokens.subset (List.mem_append_left _ (List.mem_map_of_mem hc))

/-- A waiting call is overtaken unless it has the latest token. -/
theorem overtaken_iff_of_waiting (h : Sound p spare calls s) (hw : w ∈ s.waiting) :
    Overtaken s.record w.token ↔ w.token ≠ s.pipeline.latest := by
  have htoken := h.mem_started_of_waiting hw
  refine overtaken_iff ?_ ?_ (fun t ht => h.le_latest ht) htoken
  · show s.started.Pairwise (· < ·)
    rw [h.started]
    exact List.pairwise_lt_range'
  · -- Some call has started, namely the waiting one, so the latest token has been given out.
    show s.pipeline.latest ∈ s.started
    have hmem := htoken
    rw [h.started, List.mem_range'_1] at hmem
    rw [h.started, List.mem_range'_1, h.latest]
    omega

theorem perm {waiting' : List Waiting} (h : Sound p spare calls ⟨q, waiting, record⟩)
    (hperm : waiting.Perm waiting') : Sound p spare calls ⟨q, waiting', record⟩ := by
  refine ⟨h.settings, h.latest, h.started, ?_, ?_, h.ended, h.increasing, h.replaySettings,
    h.replayed⟩
  · exact ((hperm.symm.map _).append_left _).trans h.tokens
  · exact fun v hv => h.waiting v (hperm.symm.subset hv)

theorem steady (h : Sound p spare calls ⟨q, waiting, record⟩) (hsteady : Steady q q') :
    Sound p spare calls ⟨q', waiting, record⟩ := by
  refine ⟨hsteady.settings.trans h.settings, hsteady.latest.trans h.latest, h.started, h.tokens, ?_,
    h.ended, h.increasing, h.replaySettings, h.replayed.trans hsteady.store.symm⟩
  intro v hv
  obtain ⟨hfresh, hplanned⟩ := h.waiting v hv
  refine ⟨fun htoken => ?_, ?_⟩
  · rw [hsteady.snapshot]
    exact hfresh (htoken.trans hsteady.latest)
  · rw [hsteady.settings]
    exact hplanned

/-- A call that starts takes the next token and sees the current canvas. -/
theorem begins (h : Sound p spare calls ⟨q, waiting, record⟩) (q' : Pipeline) (w : Waiting)
    (hsettings : q'.settings = q.settings)
    (hlatest : q'.latest = q.latest + 1) (hstore : q'.store = q.store)
    (htoken : w.token = q.latest + 1) (hbase : w.base = q.store.snapshot)
    (hplanned : w.IsPlanned q.settings) :
    Sound p spare (calls + 1) ⟨q', w :: waiting, record ++ [.started (q.latest + 1)]⟩ := by
  have hnext : q.latest = p.latest + calls := h.latest
  have hstarted := h.started
  have htokens := h.tokens
  have hreplayed := h.replayed
  simp only [Session.started, Session.ended] at hstarted htokens
  -- Nothing that has ended changes; only the new call has to be accounted for.
  refine ⟨hsettings.trans h.settings, ?_, ?_, ?_, ?_, ?_, ?_, ?_, ?_⟩
  · show q'.latest = p.latest + (calls + 1)
    omega
  · rw [Session.started, started_concat_started, hstarted, hnext, List.range'_1_concat]
    congr 2
    omega
  · rw [Session.started, Session.ended, started_concat_started, ended_concat_started,
      List.map_cons, htoken]
    apply List.perm_middle.trans
    exact (htokens.cons _).trans (List.perm_append_singleton _ _).symm
  · intro v hv
    rcases List.mem_cons.1 hv with rfl | hv
    · refine ⟨fun _ => ?_, ?_⟩
      · rw [hbase, hstore]
      · rw [hsettings]
        exact hplanned
    · -- The calls that waited before are all overtaken now.
      obtain ⟨-, hv'⟩ := h.waiting v hv
      refine ⟨fun hlatest' => ?_, ?_⟩
      · have hle := h.le_latest (h.mem_started_of_waiting hv)
        have hsame : v.token = q'.latest := hlatest'
        have hbelow : v.token ≤ q.latest := hle
        omega
      · rw [hsettings]
        exact hv'
  · apply forall_ended_concat h.ended
    intro c hc
    cases hc
  · rw [Session.committed, Session.ended, ended_concat_started]
    exact h.increasing
  · rw [Session.committed, Session.ended, ended_concat_started]
    exact h.replaySettings
  · rw [Session.committed, Session.ended, ended_concat_started]
    apply hreplayed.trans
    rw [unlocked, unlocked, hstore]

/-- A waiting call may go on to wait with the same token and base. -/
theorem exchange {v : Waiting} (h : Sound p spare calls ⟨q, w :: waiting, record⟩)
    (htoken : v.token = w.token) (hbase : v.base = w.base) (hplanned : v.IsPlanned q.settings) :
    Sound p spare calls ⟨q, v :: waiting, record⟩ := by
  refine ⟨h.settings, h.latest, h.started, ?_, ?_, h.ended, h.increasing, h.replaySettings,
    h.replayed⟩
  · have htokens := h.tokens
    rw [List.map_cons] at htokens ⊢
    rw [htoken]
    exact htokens
  · intro u hu
    rcases List.mem_cons.1 hu with rfl | hu
    · refine ⟨fun hlatest => ?_, hplanned⟩
      rw [hbase]
      exact (h.waiting w List.mem_cons_self).fresh (htoken ▸ hlatest)
    · exact h.waiting u (List.mem_cons_of_mem _ hu)

section Ends
variable {c : Ending} (h : Sound p spare calls ⟨q, w :: waiting, record⟩)
  (hends : Ends spare q w.token w.base q' c)
include h hends

theorem isSettled_of_ends : c.IsSettled record := by
  have hovertaken : Overtaken record c.token ↔ c.token ≠ q.latest := by
    rw [hends.token]
    exact h.overtaken_iff_of_waiting List.mem_cons_self
  have hsame (hne : c.result.status ≠ .committed) : c.after = c.before := by
    rw [hends.after, hends.before, hends.store_eq hne]
  have houtcome := hends.outcome
  generalize q'.store = store at houtcome
  -- How a call ends says whether it had the latest token, and so whether it was overtaken.
  cases houtcome with
  | failed hunchecked hstatus =>
    refine Ending.isSettled_of_failed hunchecked hstatus (hsame ?_)
    obtain ⟨error, he⟩ | ⟨message, he⟩ := hstatus <;> simp [he]
  | superseded hchecked hstale hstatus =>
    refine Ending.isSettled_of_superseded hchecked (hovertaken.2 hstale) hstatus (hsame ?_)
    simp [hstatus]
  | rejected hchecked hcurrent reason hstatus hlock =>
    have hfree : ¬ Overtaken record c.token := fun hlate => hovertaken.1 hlate hcurrent
    refine Ending.isSettled_of_rejected hchecked hfree hstatus ?_ (hsame ?_)
    · rw [hends.before, hlock]
    · simp [hstatus]
  | committed text document htext hparse hcurrent hstatus hlock =>
    have hfree : ¬ Overtaken record c.token := fun hlate => hovertaken.1 hlate hcurrent
    refine Ending.isSettled_of_committed ⟨text, document, htext, hparse⟩ hfree hstatus ?_ ?_
    · rw [hends.before, hlock]
    · -- Only a call that has the latest token commits, and its base is the canvas as it is.
      have hready := h.waiting w List.mem_cons_self
      rw [hends.before, hends.base, hready.fresh (hends.eq_latest hstatus)]

/-- A call that commits does so with a later token than all that have committed. -/
theorem lt_of_committed (hcommitted : c.result.status = .committed) {d : Ending}
    (hd : d ∈ Session.committed ⟨q, w :: waiting, record⟩) : d.token < c.token := by
  have hended := (List.mem_filter.1 hd).1
  have hle : d.token ≤ q.latest := h.le_latest (h.mem_started_of_ended hended)
  have hne : d.token ≠ w.token :=
    (List.nodup_append.1 h.nodup).2.2 _ (List.mem_map_of_mem hended) _
      (List.mem_map_of_mem List.mem_cons_self)
  have hcurrent := hends.eq_latest hcommitted
  rw [hends.token]
  omega

/-- Run again after the other calls that have committed, a call that commits does the same to the
canvas. -/
theorem replayed_of_committed (hcommitted : c.result.status = .committed) :
    (replay spare (unlocked p)
        (Session.committed ⟨q, w :: waiting, record⟩ ++ [c])).settings = p.settings ∧
      (replay spare (unlocked p)
        (Session.committed ⟨q, w :: waiting, record⟩ ++ [c])).store = (unlocked q').store := by
  have hready := h.waiting w List.mem_cons_self
  have hreplaySettings := h.replaySettings
  have hreplayed := h.replayed
  rw [replay_concat]
  generalize replay spare (unlocked p) (Session.committed ⟨q, w :: waiting, record⟩) = earlier
    at hreplaySettings hreplayed ⊢
  have hsettings : earlier.settings = q.settings := hreplaySettings.trans h.settings.symm
  have hstore : earlier.store = { q.store with lock := none } := hreplayed
  have hbase := hends.base
  have hcurrent := hends.eq_latest hcommitted
  have houtcome := hends.outcome
  generalize hleft : q'.store = store at houtcome
  cases houtcome with
  | failed _ hstatus =>
    obtain ⟨error, he⟩ | ⟨message, he⟩ := hstatus <;> cases hcommitted.symm.trans he
  | superseded _ _ hstatus => cases hcommitted.symm.trans hstatus
  | rejected _ _ _ hstatus _ => cases hcommitted.symm.trans hstatus
  | committed text document htext hparse _ _ _ run hrun =>
    have hunlocked : earlier.store.lock = none := by rw [hstore]
    obtain ⟨-, hdrawn⟩ := runWith_of_unlocked (c.engine spare) hparse hunlocked
    -- The replayed run differs from the one that waited in its token only.
    have hsnapshot : c.base = earlier.store.snapshot := by
      rw [hstore, hbase, hready.fresh hcurrent]
      rfl
    have hsame : run = { planned earlier document with token := c.token } := by
      rw [hrun, hsnapshot, ← hsettings]
      rfl
    rw [htext, Option.getD_some, hdrawn]
    refine ⟨hreplaySettings, ?_⟩
    rw [unlocked, hleft, hsame, drawn, hstore]

theorem committed_of_ends :
    ((Session.committed ⟨q', waiting, record ++ [.ended c]⟩).map (·.token)).Pairwise (· < ·) ∧
      (replay spare (unlocked p)
        (Session.committed ⟨q', waiting, record ++ [.ended c]⟩)).settings = p.settings ∧
      (replay spare (unlocked p)
        (Session.committed ⟨q', waiting, record ++ [.ended c]⟩)).store = (unlocked q').store := by
  -- A call that does not commit leaves the list of commits and the canvas as they are.
  by_cases hcommitted : c.result.status = .committed
  · have hmore : Session.committed ⟨q', waiting, record ++ [.ended c]⟩ =
        Session.committed ⟨q, w :: waiting, record⟩ ++ [c] := by
      simp [Session.committed, Session.ended, Entry.ended?, Result.isCommitted, hcommitted]
    rw [hmore]
    refine ⟨?_, h.replayed_of_committed hends hcommitted⟩
    rw [List.map_append, List.pairwise_append]
    refine ⟨h.increasing, List.pairwise_singleton _ _, ?_⟩
    intro token htoken token' htoken'
    obtain ⟨d, hd, rfl⟩ := List.mem_map.1 htoken
    obtain rfl := List.mem_singleton.1 htoken'
    exact h.lt_of_committed hends hcommitted hd
  · have hsame : Session.committed ⟨q', waiting, record ++ [.ended c]⟩ =
        Session.committed ⟨q, w :: waiting, record⟩ := by
      simp [Session.committed, Session.ended, Entry.ended?, Result.isCommitted, hcommitted]
    rw [hsame]
    refine ⟨h.increasing, h.replaySettings, h.replayed.trans ?_⟩
    rw [unlocked, unlocked, hends.store_eq hcommitted]

/-- No other waiting call has the token of one that commits, so all stay ready. -/
theorem isReady_of_ends {v : Waiting} (hv : v ∈ waiting) : v.IsReady q' := by
  obtain ⟨hfresh, hplanned⟩ := h.waiting v (List.mem_cons_of_mem _ hv)
  refine ⟨fun hcurrent => ?_, ?_⟩
  · have hv' : v.token = q.latest := hcurrent.trans hends.latest
    have hne : c.result.status ≠ .committed := by
      intro hcommitted
      have hnodup := (List.nodup_append.1 h.nodup).2.1
      rw [List.map_cons, hends.eq_latest hcommitted, ← hv'] at hnodup
      exact (List.nodup_cons.1 hnodup).1 (List.mem_map_of_mem hv)
    rw [hends.store_eq hne]
    exact hfresh hv'
  · rw [hends.settings]
    exact hplanned

/-- A waiting call may end. -/
theorem ends : Sound p spare calls ⟨q', waiting, record ++ [.ended c]⟩ := by
  have htokens := h.tokens
  simp only [Session.started, Session.ended, List.map_cons] at htokens
  obtain ⟨hincreasing, hreplaySettings, hreplayed⟩ := h.committed_of_ends hends
  refine ⟨hends.settings.trans h.settings, hends.latest.trans h.latest, ?_, ?_,
    fun v hv => h.isReady_of_ends hends hv, ?_, hincreasing, hreplaySettings, hreplayed⟩
  · rw [Session.started, started_concat_ended]
    exact h.started
  · rw [Session.started, Session.ended, started_concat_ended, ended_concat_ended,
      List.map_append, List.append_assoc, List.map_singleton, hends.token]
    exact htokens
  · apply forall_ended_concat h.ended
    intro d hd
    obtain rfl := Entry.ended.inj hd
    exact h.isSettled_of_ends hends

end Ends

theorem proceeds (h : Sound p spare calls ⟨q, w :: waiting, record⟩) {text : Option String}
    {progress : Pipeline × Progress} (hgoes : GoesOn spare q w.token w.base text progress) :
    Sound p spare calls (Session.proceed ⟨q, waiting, record⟩ w.base text progress) := by
  cases hgoes with
  | ends hends => exact h.ends hends
  | @waits q' run hsteady htoken hbase hplanned =>
    have hwaits := (h.exchange (v := .engine text run) htoken hbase hplanned).steady hsteady
    exact hwaits.perm (List.perm_append_singleton _ _).symm

theorem perm_cons_drop {token : Nat} (hw : s.waiting.find? (·.token = token) = some w) :
    s.waiting.Perm (w :: (s.drop token).waiting) := by
  obtain ⟨htoken, front, back, hsplit, hfront⟩ := List.find?_eq_some_iff_append.1 hw
  have hdrop : s.waiting.eraseP (·.token = token) = front ++ back := by
    rw [hsplit, List.eraseP_append_right _ (by simpa using hfront),
      List.eraseP_cons, htoken, cond_true]
  rw [Session.drop, hdrop, hsplit]
  exact List.perm_middle

theorem starts (h : Sound p spare calls s) {text : Option String}
    {progress : Pipeline × Progress}
    (hgoes : GoesOn spare s.pipeline.issue.1 (s.pipeline.latest + 1) s.pipeline.store.snapshot text
      progress) :
    Sound p spare (calls + 1) (s.call.proceed s.pipeline.store.snapshot text progress) := by
  obtain ⟨q, waiting, record⟩ := s
  -- Until it goes on, it is as good as a call that waits for the generator.
  have hbegins := h.begins q.issue.1
    (.generator ⟨q.latest + 1, q.store.snapshot, [], "", "", none⟩) rfl rfl rfl rfl rfl trivial
  have hproceeds := hbegins.proceeds hgoes
  cases hgoes with
  | ends hends => exact hproceeds
  | waits hsteady htoken hbase hplanned => exact hproceeds

/-- Every step keeps a session sound. -/
theorem step (h : Sound p spare calls s) (event : Event) :
    Sound p spare (calls + if event.isCall then 1 else 0) (s.step event) := by
  cases event with
  | run text =>
    rw [Session.step, run_eq]
    exact h.starts (goesOn_execute spare ⟨rfl, rfl, rfl⟩ text _ _)
  | regenerate hasGenerator prompt image =>
    cases hasGenerator with
    | true =>
      -- The order of the calls that wait does not matter, so the new one may stand in front.
      obtain ⟨q, waiting, record⟩ := s
      have hbegins := h.begins q.issue.1 (.generator ⟨q.latest + 1, q.store.snapshot, q.history,
        prompt, q.store.snapshot.summary, image⟩) rfl rfl rfl rfl rfl trivial
      exact hbegins.perm (List.perm_append_singleton _ _).symm
    | false =>
      obtain ⟨q', result, hregenerate, hgoes⟩ := regenerate_false spare s.pipeline prompt image
      rw [Session.step, hregenerate]
      exact h.starts hgoes
  | reply token reply =>
    rw [Session.step]
    cases hfound : s.waiting.find? (·.token = token) with
    | none => exact h
    | some w =>
      cases w with
      | engine text run => exact h
      | generator request =>
        obtain ⟨q, waiting, record⟩ := s
        exact (h.perm (perm_cons_drop hfound)).proceeds (goesOn_receive spare q request reply)
  | answer token outcome =>
    rw [Session.step]
    cases hfound : s.waiting.find? (·.token = token) with
    | none => exact h
    | some w =>
      cases w with
      | generator request => exact h
      | engine text run =>
        obtain ⟨q, waiting, record⟩ := s
        have hwaits := h.perm (perm_cons_drop hfound)
        have hready := hwaits.waiting _ List.mem_cons_self
        exact hwaits.ends (ends_resume spare hready.planned outcome)
  | clearHistory =>
    obtain ⟨q, waiting, record⟩ := s
    exact h.steady ⟨rfl, rfl, rfl⟩
  | lock reason =>
    obtain ⟨q, waiting, record⟩ := s
    exact h.steady ⟨rfl, rfl, rfl⟩

theorem start (p : Pipeline) (spare : LayoutEngine) : Sound p spare 0 (Session.start p) := by
  refine ⟨rfl, rfl, rfl, .refl _, ?_, ?_, .nil, rfl, rfl⟩
  · intro w hw
    cases hw
  · intro past c future hsplit
    have hlength := congrArg List.length hsplit
    simp [Session.start] at hlength

theorem run (h : Sound p spare calls s) (events : List Event) :
    Sound p spare (calls + events.countP Event.isCall) (s.run events) := by
  induction events generalizing calls s with
  | nil => exact h
  | cons event r ih =>
    have hrest := ih (h.step event)
    rw [List.countP_cons, Nat.add_comm (r.countP Event.isCall), ← Nat.add_assoc]
    exact hrest

end Sound

/-- Calls that overlap, in any order of events, commit one after another. Each takes its own token,
larger than all before it, and ends once or still waits. Those that come as far as the check commit
or are refused just if no call has started after them, with the canvas as they saw it, and give way
without writing otherwise. Tokens increase from one commit to the next, and the canvas is the one
that the committed calls alone leave, run one by one. -/
theorem interleaved_calls_commit_serially (p : Pipeline) (events : List Event)
    (spare : LayoutEngine) :
    let s := (Session.start p).run events
    s.started = List.range' (p.latest + 1) (events.countP Event.isCall) ∧
    (s.ended.map (·.token) ++ s.waiting.map (·.token)).Perm s.started ∧
    (∀ past c future, s.record = past ++ .ended c :: future → c.IsSettled past) ∧
    (s.committed.map (·.token)).Pairwise (· < ·) ∧
    (replay spare (unlocked p) s.committed).store = (unlocked s.pipeline).store := by
  have h := (Sound.start p spare).run events
  rw [Nat.zero_add] at h
  exact ⟨h.started, h.tokens, h.ended, h.increasing, h.replayed⟩

/-- Of two runs that wait for the engine, the first gives way though it is answered first. -/
example : ((Session.start (ofStore .empty {})).run
    [.run "[start] A", .run "[end] B", .answer 1 (.ok [("A", ⟨0, 0⟩)]),
      .answer 2 (.ok [("B", ⟨0, 0⟩)])]).ended.map (fun c => (c.token, c.result.status)) =
    [(1, .superseded), (2, .committed)] := by
  decide +kernel

end FlowCanvas.Pipeline
