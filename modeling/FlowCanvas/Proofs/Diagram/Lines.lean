import FlowCanvas.Proofs.Diagram.Draft

namespace FlowCanvas.Diagram
open Text

section Numbering
variable {n : Nat} {raws : List (List Char)}

theorem mem_numberFrom {line : Line} (h : line ∈ numberFrom n raws) :
    ∃ number, ∃ raw ∈ raws, line = Line.of number raw := by
  induction raws generalizing n with
  | nil => cases h
  | cons raw r ih =>
    rcases List.mem_cons.1 h with rfl | h
    · exact ⟨n, raw, List.mem_cons_self, rfl⟩
    · obtain ⟨number, raw', hraw', heq⟩ := ih h
      exact ⟨number, raw', List.mem_cons_of_mem _ hraw', heq⟩

theorem numbers_numberFrom (n : Nat) (raws : List (List Char)) :
    (numberFrom n raws).map (·.number) = List.range' n raws.length := by
  induction raws generalizing n with
  | nil => rfl
  | cons raw r ih =>
    have hhead : (Line.of n raw).number = n := rfl
    rw [numberFrom, List.map_cons, ih, hhead, List.length_cons, List.range'_succ]

theorem map_toList_numberFrom (n : Nat) (raws : List (List Char)) :
    (numberFrom n raws).map (·.text.toList) = raws.map trim := by
  induction raws generalizing n with
  | nil => rfl
  | cons raw r ih =>
    have hhead : (Line.of n raw).text.toList = trim raw := String.toList_ofList
    rw [numberFrom, List.map_cons, ih, hhead, List.map_cons]

variable {text : String} {line : Line}

theorem number_eq_of_split {before after : List Line}
    (h : linesOf text = before ++ line :: after) : line.number = before.length + 1 := by
  have hnumbers := numbers_numberFrom 1 (tidyLines text.toList)
  rw [← linesOf, h] at hnumbers
  -- Both lists of numbers are compared at the place of the line.
  have hat := congrArg (fun ns : List Nat => ns[before.length]?) hnumbers
  have hlength : before.length < (tidyLines text.toList).length := by
    have hcount := congrArg List.length hnumbers
    simp only [List.length_map, List.length_append, List.length_cons, List.length_range'] at hcount
    omega
  simp only [List.map_append, List.map_cons, List.getElem?_range', hlength] at hat
  rw [List.getElem?_append_right (by simp)] at hat
  simp at hat
  omega

theorem numbers_increase (text : String) :
    ((linesOf text).map (·.number)).Pairwise (· < ·) := by
  rw [linesOf, numbers_numberFrom]
  exact List.pairwise_lt_range'

theorem numbers_of_split {before after : List Line}
    (h : linesOf text = before ++ line :: after) :
    (∀ l ∈ before, l.number < line.number) ∧ (∀ l ∈ after, line.number < l.number) := by
  have hincrease := numbers_increase text
  rw [h, List.map_append, List.map_cons, List.pairwise_append, List.pairwise_cons] at hincrease
  obtain ⟨-, ⟨hafter, -⟩, hbefore⟩ := hincrease
  exact ⟨fun l hl => hbefore _ (List.mem_map_of_mem hl) _ List.mem_cons_self,
    fun l hl => hafter _ (List.mem_map_of_mem hl)⟩

theorem kind_eq_classify (h : line ∈ linesOf text) : line.kind = classify line.text.toList := by
  obtain ⟨number, raw, -, rfl⟩ := mem_numberFrom h
  rw [Line.of, String.toList_ofList]

end Numbering

section Classes
variable {cs : List Char}

/-- Only a text that starts with a kind in square brackets is classified as a node. -/
theorem startsWithKind_of_classify (h : classify cs = .node) : startsWithKind cs = true := by
  unfold classify at h
  split at h
  · cases h
  · cases h
  · split at h
    · split at h
      · next hnode => exact (Bool.and_eq_true_iff.1 hnode).1
      · cases h
    · split at h
      · cases h
      · split at h
        · assumption
        · cases h

theorem splitKind?_isSome_of_startsWithKind (h : startsWithKind cs = true) :
    (splitKind? cs).isSome := by
  unfold startsWithKind at h
  split at h
  · next r =>
    rw [splitKind?, Option.isSome_map, Option.isSome_iff_ne_none, Ne, cutAt?_eq_none_iff]
    intro hnone
    have hbracket : ']' ∈ r := by simpa using h
    simpa using hnone ']' hbracket
  · cases h

theorem readNode_ne_noKind {number : Nat} (h : classify cs = .node) :
    readNode number cs ≠ .error .noKind := by
  obtain ⟨⟨kindText, rest⟩, hsplit⟩ := Option.isSome_iff_exists.1
    (splitKind?_isSome_of_startsWithKind (startsWithKind_of_classify h))
  simp only [readNode, hsplit]
  split <;> simp

end Classes

namespace Line

/-- What a header line makes of the header. Other lines leave it alone. -/
def header (line : Line) (header : Header) : Header :=
  if line.kind = .header then (readHeader line.text.toList header).toOption.getD header else header

def node? (line : Line) : Option NodeDecl :=
  if line.kind = .node then (readNode line.number line.text.toList).toOption else none

def edges (line : Line) : List EdgeDecl :=
  if line.kind = .edge then (readEdges line.number line.text.toList).toOption.getD [] else []

/-- The reader for the kind of a line accepts it. -/
def IsAccepted (line : Line) : Prop :=
  match line.kind with
  | .header => ∃ header, readHeader line.text.toList {} = .ok header
  | .node => ∃ node, readNode line.number line.text.toList = .ok node
  | .edge => ∃ edges, readEdges line.number line.text.toList = .ok edges
  | .blank | .comment | .unknown => True

def IsBody (line : Line) : Prop :=
  line.kind = .node ∨ line.kind = .edge

variable {line : Line}

theorem node?_eq_some_iff {node : NodeDecl} :
    line.node? = some node ↔
      line.kind = .node ∧ readNode line.number line.text.toList = .ok node := by
  unfold node?
  cases readNode line.number line.text.toList <;> simp [Except.toOption]

theorem node?_of_ne (h : line.kind ≠ .node) : line.node? = none := if_neg h

theorem edges_of_ne (h : line.kind ≠ .edge) : line.edges = [] := if_neg h

theorem edges_of_read (hkind : line.kind = .edge) {edges : List EdgeDecl}
    (hread : readEdges line.number line.text.toList = .ok edges) : line.edges = edges := by
  simp [Line.edges, hkind, hread, Except.toOption]

theorem header_of_ne (h : line.kind ≠ .header) (before : Header) : line.header before = before :=
  if_neg h

theorem header_of_read (hkind : line.kind = .header) {before after : Header}
    (hread : readHeader line.text.toList before = .ok after) : line.header before = after := by
  simp [Line.header, hkind, hread, Except.toOption]

theorem mem_edges {edge : EdgeDecl} (h : edge ∈ line.edges) :
    line.kind = .edge ∧ ∃ edges, readEdges line.number line.text.toList = .ok edges ∧
      edge ∈ edges := by
  unfold edges at h
  split at h
  · next hkind =>
    cases hread : readEdges line.number line.text.toList with
    | error fault => simp [hread, Except.toOption] at h
    | ok edges => exact ⟨hkind, edges, rfl, by simpa [hread, Except.toOption] using h⟩
  · cases h

end Line

theorem readHeader_eq_error_iff {cs : List Char} (header header' : Header) {fault : Fault} :
    readHeader cs header = .error fault ↔ readHeader cs header' = .error fault := by
  simp only [readHeader]
  split
  · split <;> simp
  · split <;> simp

end FlowCanvas.Diagram
