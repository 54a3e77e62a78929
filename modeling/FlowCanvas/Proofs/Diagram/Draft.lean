import Mathlib.Data.List.Nodup
import FlowCanvas.Diagram.Parser
import FlowCanvas.Proofs.Text.Words

namespace FlowCanvas.Diagram

/-- Reading a line that is accepted: what it was and what it added. -/
theorem Draft.add_cases {draft draft' : Draft} {line : Line} (h : draft.add line = .ok draft') :
    ((line.kind = .blank ∨ line.kind = .comment) ∧ draft' = draft) ∨
    (line.kind = .header ∧ draft.phase = .headers ∧ ∃ header,
      readHeader line.text.toList draft.header = .ok header ∧
        draft' = { draft with header }) ∨
    (line.kind = .node ∧ draft.phase ≠ .edges ∧ ∃ node,
      readNode line.number line.text.toList = .ok node ∧
        (∀ n ∈ draft.nodes, n.id ≠ node.id) ∧
        draft' = { draft with phase := .nodes, nodes := draft.nodes ++ [node] }) ∨
    (line.kind = .edge ∧ ∃ edges, readEdges line.number line.text.toList = .ok edges ∧
      draft' = { draft with phase := .edges, edges := draft.edges ++ edges }) := by
  -- Each check that fails contradicts `h`; what is left is what the line adds.
  unfold Draft.add at h
  split at h
  · next hk => exact .inl ⟨.inl hk, (Except.ok.inj h).symm⟩
  · next hk => exact .inl ⟨.inr hk, (Except.ok.inj h).symm⟩
  · next hk =>
    split at h
    · cases h
    · next hphase =>
      cases hr : readHeader line.text.toList draft.header with
      | error fault => simp [Line.check, hr, Except.mapError, Except.map] at h
      | ok header =>
        simp only [Line.check, hr, Except.mapError, Except.map, Except.ok.injEq] at h
        exact .inr (.inl ⟨hk, by simpa using hphase, header, rfl, h.symm⟩)
  · next hk =>
    split at h
    · cases h
    · next hphase =>
      cases hr : readNode line.number line.text.toList with
      | error fault => simp [Line.check, hr, Except.mapError, bind, Except.bind] at h
      | ok node =>
        simp only [Line.check, hr, Except.mapError, bind, Except.bind] at h
        split at h
        · cases h
        · next hnew =>
          refine .inr (.inr (.inl ⟨hk, hphase, node, rfl, ?_, (Except.ok.inj h).symm⟩))
          simpa using hnew
  · next hk =>
    cases hr : readEdges line.number line.text.toList with
    | error fault => simp [Line.check, hr, Except.mapError, bind, Except.bind] at h
    | ok edges =>
      simp only [Line.check, hr, Except.mapError, bind, Except.bind, pure, Except.pure,
        Except.ok.injEq] at h
      exact .inr (.inr (.inr ⟨hk, edges, rfl, h.symm⟩))
  · cases h

theorem readNode_ok {line : Nat} {cs : List Char} {node : NodeDecl}
    (h : readNode line cs = .ok node) :
    node.line = line ∧ node.label ≠ "" ∧ ∃ text, node.label = String.ofList (Label.clean text) := by
  unfold readNode at h
  split at h
  · cases h
  · next kindText rest hsplit =>
    simp only at h
    split at h
    · cases h
    · next hlabel =>
      cases h
      exact ⟨rfl, by simpa [String.isEmpty_iff] using hlabel, _, rfl⟩

theorem matchKey_ne_empty_of_readNode {line : Nat} {cs : List Char} {node : NodeDecl}
    (h : readNode line cs = .ok node) : Label.matchKey node.label ≠ "" := by
  obtain ⟨-, hne, text, hlabel⟩ := readNode_ok h
  rw [hlabel] at hne ⊢
  rw [Ne, Label.matchKey_eq_empty_iff, String.toList_ofList, Label.squeeze_clean]
  rwa [Ne, String.ofList_eq_empty_iff] at hne

/-- What holds of the empty draft and is kept by every line holds of the draft that is read. -/
theorem parse_invariant {P : Draft → Prop} (hempty : P {})
    (hadd : ∀ draft line draft', P draft → draft.add line = .ok draft' → P draft')
    {text : String} {document : Document} (h : parse text = .ok document) :
    ∃ draft, P draft ∧ draft.document = document := by
  unfold parse at h
  generalize linesOf text = lines at h
  -- The induction is on the lines that are left, from any draft that has the property.
  generalize ({} : Draft) = start at h hempty
  induction lines generalizing start with
  | nil =>
    cases h
    exact ⟨start, hempty, rfl⟩
  | cons line r ih =>
    rw [List.foldlM_cons] at h
    cases hl : start.add line with
    | error e => simp [hl, bind, Except.bind, Except.map] at h
    | ok next =>
      rw [hl] at h
      exact ih next h (hadd start line next hempty hl)

structure Draft.WellDeclared (draft : Draft) : Prop where
  distinct : (draft.nodes.map (·.id)).Nodup
  named : ∀ d ∈ draft.nodes, Label.matchKey d.label ≠ ""

theorem Draft.WellDeclared.add {draft draft' : Draft} {line : Line} (h : draft.WellDeclared)
    (hadd : draft.add line = .ok draft') : draft'.WellDeclared := by
  obtain ⟨-, rfl⟩ | ⟨-, -, header, -, rfl⟩ | ⟨-, -, node, hread, hnew, rfl⟩ | ⟨-, edges, -, rfl⟩ :=
    Draft.add_cases hadd
  · exact h
  · exact ⟨h.distinct, h.named⟩
  · constructor
    · rw [List.map_append, List.nodup_append]
      refine ⟨h.distinct, by simp, ?_⟩
      intro id hid other hother
      obtain ⟨n, hn, rfl⟩ := List.mem_map.1 hid
      have hnode : other = node.id := by simpa using hother
      rw [hnode]
      exact hnew n hn
    · intro d hd
      rcases List.mem_append.1 hd with hd | hd
      · exact h.named d hd
      · rw [List.mem_singleton.1 hd]
        exact matchKey_ne_empty_of_readNode hread
  · exact ⟨h.distinct, h.named⟩

theorem wellDeclared_of_parse {text : String} {document : Document}
    (h : parse text = .ok document) :
    document.ids.Nodup ∧ ∀ d ∈ document.nodes, Label.matchKey d.label ≠ "" := by
  obtain ⟨draft, hdraft, rfl⟩ := parse_invariant (P := Draft.WellDeclared) ⟨by simp, by simp⟩
    (fun _ _ _ hP hadd => hP.add hadd) h
  exact ⟨hdraft.distinct, hdraft.named⟩

end FlowCanvas.Diagram
