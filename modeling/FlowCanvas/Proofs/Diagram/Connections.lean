import FlowCanvas.Diagram.Parser
import FlowCanvas.Proofs.Fallible
import FlowCanvas.Proofs.Text.Cuts
import FlowCanvas.Proofs.Text.Spacing

namespace FlowCanvas.Diagram
open Text

section Arrows
variable {cs : List Char}

theorem hasArrow_iff : hasArrow cs = true ↔ arrow <:+: cs := by
  induction cs with
  | nil => decide
  | cons c r ih =>
    rw [hasArrow, occurs, Bool.or_eq_true, List.isPrefixOf_iff_prefix, List.infix_cons_iff]
    exact or_congr_right ih

theorem arrow_infix_of_classify (h : classify cs = .edge) : arrow <:+: cs := by
  rw [← hasArrow_iff]
  unfold classify at h
  split at h
  · cases h
  · cases h
  · split at h
    · assumption
    · split at h
      · cases h
      · split at h <;> cases h

theorem splitArrows_nil : splitArrows [] = ([], []) := by
  rw [splitArrows]

theorem splitArrows_arrow (r : List Char) :
    splitArrows ('-' :: '>' :: r) =
      ([], ((arrowLabel r).1, (splitArrows (arrowLabel r).2).1) ::
        (splitArrows (arrowLabel r).2).2) := by
  rw [splitArrows]

theorem splitArrows_cons {c : Char} {r : List Char} (h : ¬ arrow <+: c :: r) :
    splitArrows (c :: r) = (c :: (splitArrows r).1, (splitArrows r).2) := by
  rw [splitArrows]
  rintro s rfl rfl
  exact h ⟨s, rfl⟩

theorem fst_splitArrows_isPrefix (cs : List Char) : (splitArrows cs).1 <+: cs := by
  induction cs with
  | nil => simp [splitArrows_nil]
  | cons c r ih =>
    by_cases harrow : arrow <+: c :: r
    · obtain ⟨s, hs⟩ := harrow
      rw [← hs]
      show (splitArrows ('-' :: '>' :: s)).1 <+: _
      simp [splitArrows_arrow]
    · rw [splitArrows_cons harrow]
      exact List.cons_prefix_cons.2 ⟨rfl, ih⟩

theorem not_arrow_infix_splitArrows (cs : List Char) :
    ¬ arrow <:+: (splitArrows cs).1 ∧ ∀ hop ∈ (splitArrows cs).2, ¬ arrow <:+: hop.2 := by
  fun_induction splitArrows cs with
  | case1 => simp [arrow]
  | case2 r next ih =>
    obtain ⟨hfirst, hhops⟩ := ih
    refine ⟨by simp [arrow], fun hop hhop => ?_⟩
    rcases List.mem_cons.1 hhop with rfl | hhop
    · exact hfirst
    · exact hhops hop hhop
  | case3 c r hnext next ih =>
    obtain ⟨hfirst, hhops⟩ := ih
    refine ⟨fun hoccurs => ?_, hhops⟩
    -- An arrow at the start would be one of the whole text too.
    rcases List.infix_cons_iff.1 hoccurs with hstart | hoccurs
    · obtain ⟨s, hs⟩ := hstart.trans
        (List.cons_prefix_cons.2 ⟨rfl, fst_splitArrows_isPrefix r⟩)
      obtain ⟨rfl, rfl⟩ := List.cons.inj hs
      exact hnext s rfl rfl
    · exact hfirst hoccurs

theorem head?_splitArrows {c : Char} (hc : c ≠ '-') (h : cs.head? = some c) :
    (splitArrows cs).1.head? = some c := by
  cases cs with
  | nil => cases h
  | cons d r =>
    obtain rfl : d = c := Option.some.inj h
    rw [splitArrows_cons fun harrow => hc (List.cons_prefix_cons.1 harrow).1.symm]
    rfl

theorem splitArrows_snd_eq_nil_iff : (splitArrows cs).2 = [] ↔ ¬ arrow <:+: cs := by
  fun_induction splitArrows cs with
  | case1 => simp [arrow]
  | case2 r next ih =>
    have harrow : arrow <:+: '-' :: '>' :: r := (List.prefix_append arrow r).isInfix
    simp [harrow]
  | case3 c r hnext next ih =>
    have hstart : ¬ arrow <+: c :: r := by
      rintro ⟨s, hs⟩
      obtain ⟨rfl, rfl⟩ := List.cons.inj hs
      exact hnext s rfl rfl
    rw [ih, List.infix_cons_iff, or_iff_right hstart]

theorem splitArrows_of_no_arrow (h : ¬ arrow <:+: cs) : splitArrows cs = (cs, []) := by
  induction cs with
  | nil => exact splitArrows_nil
  | cons c r ih =>
    rw [List.infix_cons_iff, not_or] at h
    rw [splitArrows_cons h.1, ih h.2]

/-- What stands before a space and has no arrow in it belongs to the first segment. -/
theorem splitArrows_append_space {u : List Char} (h : ¬ arrow <:+: u) (r : List Char) :
    splitArrows (u ++ ' ' :: r) = (u ++ ' ' :: (splitArrows r).1, (splitArrows r).2) := by
  induction u with
  | nil =>
    apply splitArrows_cons
    exact fun hstart => absurd (List.cons_prefix_cons.1 hstart).1 (by decide)
  | cons c u ih =>
    rw [List.infix_cons_iff, not_or] at h
    -- The second character of an arrow here would be the space or stand in the text before it.
    have harrow : ¬ arrow <+: c :: (u ++ ' ' :: r) := by
      intro hstart
      obtain ⟨rfl, hnext⟩ := List.cons_prefix_cons.1 hstart
      cases u with
      | nil => exact absurd (List.cons_prefix_cons.1 hnext).1 (by decide)
      | cons d u =>
        obtain rfl : '>' = d := (List.cons_prefix_cons.1 hnext).1
        exact h.1 (List.prefix_append arrow u)
    rw [List.cons_append, splitArrows_cons harrow, ih h.2]
    rfl

/-- A line with an arrow in it that is no comment and does not start with a kind is a connection. -/
theorem classify_eq_edge {c : Char} {r : List Char} (h : arrow <:+: c :: r) (hcomment : c ≠ '#')
    (hbracket : c ≠ '[') : classify (c :: r) = .edge := by
  have hstarts : startsWithKind (c :: r) = false := by
    unfold startsWithKind
    split
    · next heq => exact absurd (List.cons.inj heq).1 hbracket
    · rfl
  unfold classify
  split
  · next heq => cases heq
  · next heq => exact absurd (List.cons.inj heq).1 hcomment
  · simp [hasArrow_iff.2 h, hstarts]

end Arrows

theorem head?_splitBlock {cs : List Char} {c : Char} (hblank : isBlank c = false)
    (hbrace : c ≠ '\x7b') (h : cs.head? = some c) : (splitBlock cs).1.head? = some c := by
  obtain ⟨r, rfl⟩ : ∃ r, cs = c :: r := by
    cases cs with
    | nil => cases h
    | cons d r => exact ⟨r, by rw [Option.some.inj h]⟩
  have hstripped := trimEnd_cons_of_not_blank hblank r
  simp only [splitBlock, hstripped]
  split
  · next body inside _ hcut =>
    split
    · rfl
    · -- The body before the brace is empty only if the text starts with one.
      obtain ⟨s, hs, heq⟩ := eq_append_of_cutAtLast? hcut
      cases body with
      | nil =>
        obtain rfl : s = '\x7b' := by simpa using hs
        exact absurd (List.cons.inj heq).1 hbrace
      | cons d body =>
        obtain rfl : c = d := (List.cons.inj heq).1
        rw [trimEnd_cons_of_not_blank hblank]
        rfl
  · rfl

theorem readEndpoint_eq_ok_iff {segment : List Char} {name : String} :
    readEndpoint segment = .ok name ↔
      name = String.ofList (Label.clean segment) ∧ name ≠ "" ∧ name.toList.head? ≠ some '[' ∧
        '|' ∉ name.toList := by
  unfold readEndpoint
  simp only
  constructor
  · intro h
    split at h
    · cases h
    · next hempty =>
      split at h
      · cases h
      · next hinline =>
        cases h
        simp only [String.toList_ofList, Ne, String.ofList_eq_empty_iff]
        refine ⟨trivial, by simpa using hempty, ?_, ?_⟩
        · intro hhead
          simp [hhead] at hinline
        · intro hbar
          simp [hbar] at hinline
  · rintro ⟨rfl, hne, hhead, hbar⟩
    simp only [String.toList_ofList, Ne, String.ofList_eq_empty_iff] at hne hhead hbar
    simp [hne, hhead, hbar]

/-- What a connection line that is accepted is read as: endpoints from its segments, connected. -/
theorem readEdges_ok {number : Nat} {cs : List Char} {edges : List EdgeDecl}
    (h : readEdges number cs = .ok edges) :
    ∃ look source targets, readEndpoint (splitArrows (splitBlock cs).1).1 = .ok source ∧
      (∀ target ∈ targets, ∃ hop ∈ (splitArrows (splitBlock cs).1).2,
        readEndpoint hop.2 = .ok target.2) ∧
      edges = connect look number source targets := by
  unfold readEdges at h
  simp only [bind_eq_ok_iff] at h
  obtain ⟨look, -, source, hsource, targets, htargets, hedges⟩ := h
  refine ⟨look, source, targets, hsource, fun target htarget => ?_, (Except.ok.inj hedges).symm⟩
  obtain ⟨hop, hhop, hread⟩ := exists_mem_of_mapM htargets target htarget
  obtain ⟨name, hname, hpair⟩ := bind_eq_ok_iff.1 hread
  obtain rfl := Except.ok.inj hpair
  exact ⟨hop, hhop, hname⟩

theorem length_connect (look : Look) (number : Nat) (source : String)
    (targets : List (List Char × String)) :
    (connect look number source targets).length = targets.length := by
  induction targets generalizing source with
  | nil => rfl
  | cons hop r ih => rw [connect, List.length_cons, List.length_cons, ih]

theorem length_of_readEdges {edges : List EdgeDecl} (h : readEdges number cs = .ok edges) :
    edges.length = (splitArrows (splitBlock cs).1).2.length := by
  unfold readEdges at h
  simp only [bind_eq_ok_iff] at h
  obtain ⟨look, -, source, -, targets, htargets, hedges⟩ := h
  rw [← Except.ok.inj hedges, length_connect, length_eq_of_mapM htargets]

theorem mem_connect {look : Look} {number : Nat} {source : String}
    {targets : List (List Char × String)} {e : EdgeDecl}
    (h : e ∈ connect look number source targets) :
    e.line = number ∧ e.style = look.style ∧
      (e.source = source ∨ e.source ∈ targets.map (·.2)) ∧ e.target ∈ targets.map (·.2) ∧
      ∀ label, e.label = some label →
        label ≠ "" ∧ ∃ labelText, label = String.ofList (Label.clean labelText) := by
  induction targets generalizing source with
  | nil => cases h
  | cons first r ih =>
    obtain ⟨labelText, target⟩ := first
    rw [connect] at h
    rcases List.mem_cons.1 h with rfl | h
    · refine ⟨rfl, rfl, .inl rfl, List.mem_cons_self, fun label hlabel => ?_⟩
      simp only [Option.ite_none_left_eq_some, Option.some.injEq] at hlabel
      obtain ⟨hne, rfl⟩ := hlabel
      exact ⟨by simpa [String.isEmpty_iff] using hne, labelText, rfl⟩
    · obtain ⟨hline, hstyle, hsource, htarget, hlabel⟩ := ih h
      refine ⟨hline, hstyle, .inr ?_, List.mem_cons_of_mem _ htarget, hlabel⟩
      rcases hsource with rfl | hsource
      · exact List.mem_cons_self
      · exact List.mem_cons_of_mem _ hsource

/-- A line that starts with a square bracket has no connection in it that would be accepted. -/
theorem exists_readEdges_eq_error {cs : List Char} (h : cs.head? = some '[') (number : Nat) :
    ∃ fault, readEdges number cs = .error fault := by
  have hhead : (splitArrows (splitBlock cs).1).1.head? = some '[' :=
    head?_splitArrows (by decide) (head?_splitBlock (by decide) (by decide) h)
  cases hread : readEdges number cs with
  | error fault => exact ⟨fault, rfl⟩
  | ok edges =>
    obtain ⟨-, source, -, hsource, -⟩ := readEdges_ok hread
    obtain ⟨rfl, -, hbracket, -⟩ := readEndpoint_eq_ok_iff.1 hsource
    generalize (splitArrows (splitBlock cs).1).1 = first at hhead hbracket
    cases first with
    | nil => cases hhead
    | cons c r =>
      obtain rfl : c = '[' := Option.some.inj hhead
      rw [String.toList_ofList, Label.head?_clean_cons (by decide) (by decide) (by decide)]
        at hbracket
      exact absurd rfl hbracket

end FlowCanvas.Diagram
