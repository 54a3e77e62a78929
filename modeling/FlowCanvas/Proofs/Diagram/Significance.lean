import FlowCanvas.Proofs.Diagram.Acceptance
import FlowCanvas.Proofs.Text.Lines

namespace FlowCanvas

def NodeDecl.renumber (f : Nat → Nat) (d : NodeDecl) : NodeDecl :=
  { d with line := f d.line }

def EdgeDecl.renumber (f : Nat → Nat) (d : EdgeDecl) : EdgeDecl :=
  { d with line := f d.line }

def Document.renumber (f : Nat → Nat) (d : Document) : Document :=
  { d with nodes := d.nodes.map (·.renumber f), edges := d.edges.map (·.renumber f) }

namespace Diagram
open Text

def Error.renumber (f : Nat → Nat) : Error → Error
  | malformed fault line text => malformed fault (f line) text
  | misplacedNode line text => misplacedNode (f line) text
  | repeatedId id line firstLine => repeatedId id (f line) (f firstLine)

def Line.renumber (f : Nat → Nat) (line : Line) : Line :=
  { line with number := f line.number }

def Draft.renumber (f : Nat → Nat) (draft : Draft) : Draft :=
  { draft with
    nodes := draft.nodes.map (·.renumber f)
    edges := draft.edges.map (·.renumber f) }

/-- What reading gives where lines have other numbers. -/
def renumbered {α : Type} (f : Nat → Nat) (move : α → α) (read : Except Error α) :
    Except Error α :=
  (read.map move).mapError (Error.renumber f)

section Renumbering
variable (f : Nat → Nat)

theorem readNode_renumber (n : Nat) (cs : List Char) :
    readNode (f n) cs = (readNode n cs).map (NodeDecl.renumber f) := by
  unfold readNode
  split
  · rfl
  · simp only
    split <;> rfl

theorem connect_renumber (look : Look) (n : Nat) (source : String)
    (targets : List (List Char × String)) :
    connect look (f n) source targets =
      (connect look n source targets).map (EdgeDecl.renumber f) := by
  induction targets generalizing source with
  | nil => rfl
  | cons hop r ih =>
    rw [connect, ih, connect, List.map_cons]
    rfl

theorem readEdges_renumber (n : Nat) (cs : List Char) :
    readEdges (f n) cs = (readEdges n cs).map (List.map (EdgeDecl.renumber f)) := by
  unfold readEdges
  simp only [bind, Except.bind, pure, Except.pure]
  split
  · rfl
  · split
    · rfl
    · split
      · rfl
      · rw [connect_renumber]
        rfl

/-- Adding a line to a draft only passes the numbers of lines on. -/
theorem add_renumber (draft : Draft) (line : Line) :
    (draft.renumber f).add (line.renumber f) =
      renumbered f (Draft.renumber f) (draft.add line) := by
  obtain ⟨kind, number, text⟩ := line
  have hphase : (draft.renumber f).phase = draft.phase := rfl
  -- The checks look at kinds, ids and texts only, so the same ones fail.
  cases kind with
  | blank => rfl
  | comment => rfl
  | unknown => rfl
  | header =>
    by_cases hlate : draft.phase ≠ .headers
    · simp [Draft.add, Line.renumber, hphase, hlate, renumbered, Except.map, Except.mapError,
        Error.renumber]
    · simp only [Draft.add, Line.renumber, hphase, if_neg hlate]
      have hheader : (draft.renumber f).header = draft.header := rfl
      rw [hheader]
      cases readHeader text.toList draft.header <;> rfl
  | node =>
    by_cases hlate : draft.phase = .edges
    · simp [Draft.add, Line.renumber, hphase, hlate, renumbered, Except.map, Except.mapError,
        Error.renumber]
    · simp only [Draft.add, Line.renumber, hphase, if_neg hlate, readNode_renumber]
      cases readNode number text.toList with
      | error fault => rfl
      | ok node =>
        have hfind : (draft.renumber f).nodes.find? (·.id = (node.renumber f).id) =
            (draft.nodes.find? (·.id = node.id)).map (NodeDecl.renumber f) := List.find?_map
        simp only [Line.check, Except.map, Except.mapError, bind, Except.bind, hfind]
        cases draft.nodes.find? (·.id = node.id) with
        | some first => rfl
        | none => simp [renumbered, Draft.renumber, Except.map, Except.mapError]
  | edge =>
    simp only [Draft.add, Line.renumber, readEdges_renumber]
    cases readEdges number text.toList with
    | error fault => rfl
    | ok edges =>
      simp [Line.check, renumbered, Draft.renumber, Except.map, Except.mapError, bind, Except.bind,
        pure, Except.pure]

theorem foldlM_renumber (draft : Draft) (lines : List Line) :
    (lines.map (Line.renumber f)).foldlM Draft.add (draft.renumber f) =
      renumbered f (Draft.renumber f) (lines.foldlM Draft.add draft) := by
  induction lines generalizing draft with
  | nil => rfl
  | cons line r ih =>
    rw [List.map_cons, List.foldlM_cons, List.foldlM_cons, add_renumber]
    cases hadd : draft.add line with
    | error error => rfl
    | ok next => exact ih next

end Renumbering

section Significant

/-- A trimmed line that is neither empty nor a comment. -/
def isSignificant (cs : List Char) : Bool :=
  !cs.isEmpty && cs.head? != some '#'

/-- The significant lines of a text, trimmed, with their numbers counted from one. -/
def significantLines (text : String) : List (List Char × Nat) :=
  (((lines text.toList).map trim).zipIdx 1).filter (isSignificant ·.1)

def significantTexts (text : String) : List (List Char) :=
  (significantLines text).map (·.1)

def significantNumbers (text : String) : List Nat :=
  (significantLines text).map (·.2)

def lineAt (l : List Char × Nat) : Line :=
  ⟨classify l.1, l.2, String.ofList l.1⟩

theorem numberFrom_eq (n : Nat) (raws : List (List Char)) :
    numberFrom n raws = ((raws.map trim).zipIdx n).map lineAt := by
  induction raws generalizing n with
  | nil => rfl
  | cons raw r ih =>
    rw [numberFrom, ih, List.map_cons, List.zipIdx_cons, List.map_cons]
    rfl

theorem linesOf_eq {text : String} (h : text.toList.head? ≠ some byteOrderMark) :
    linesOf text = (((lines text.toList).map trim).zipIdx 1).map lineAt := by
  have htrim : trim ∘ trimEnd = trim := funext trim_trimEnd
  rw [linesOf, tidyLines, dropMark_of_head h, numberFrom_eq, List.map_map, htrim]

theorem isSignificant_iff {cs : List Char} :
    isSignificant cs = true ↔ classify cs ≠ .blank ∧ classify cs ≠ .comment := by
  unfold classify
  split
  · simp [isSignificant]
  · simp [isSignificant]
  · next hne hcomment =>
    have hsignificant : isSignificant cs = true := by
      cases cs with
      | nil => exact absurd rfl hne
      | cons c r =>
        have hc : c ≠ '#' := by
          rintro rfl
          exact hcomment r rfl
        simp [isSignificant, hc]
    simp only [hsignificant, true_iff]
    grind

theorem foldlM_significant (ls : List (List Char × Nat)) (draft : Draft) :
    (ls.map lineAt).foldlM Draft.add draft =
      ((ls.filter (isSignificant ·.1)).map lineAt).foldlM Draft.add draft := by
  induction ls generalizing draft with
  | nil => rfl
  | cons l r ih =>
    by_cases hl : isSignificant l.1 = true
    · rw [List.filter_cons, if_pos hl, List.map_cons, List.map_cons, List.foldlM_cons,
        List.foldlM_cons]
      exact congrArg (draft.add (lineAt l) >>= ·) (funext ih)
    · have hadd : draft.add (lineAt l) = .ok draft := by
        rw [isSignificant_iff, not_and_or, not_not, not_not] at hl
        rcases hl with hk | hk <;> simp [Draft.add, lineAt, hk]
      rw [List.filter_cons, if_neg hl, List.map_cons, List.foldlM_cons, hadd]
      exact ih draft

theorem parse_eq_significant {text : String} (h : text.toList.head? ≠ some byteOrderMark) :
    parse text =
      (((significantLines text).map lineAt).foldlM Draft.add {}).map Draft.document := by
  rw [parse, linesOf_eq h, foldlM_significant, significantLines]


theorem nodup_significantNumbers (text : String) : (significantNumbers text).Nodup := by
  have hsublist : (significantNumbers text).Sublist
      ((((lines text.toList).map trim).zipIdx 1).map (·.2)) := List.filter_sublist.map _
  refine hsublist.nodup ?_
  rw [List.zipIdx_map_snd]
  exact List.nodup_range'

theorem exists_map_eq {xs ys : List Nat} (hnodup : xs.Nodup) (hlength : xs.length = ys.length) :
    ∃ f : Nat → Nat, xs.map f = ys := by
  refine ⟨fun n => ys.getD (xs.idxOf n) 0, List.ext_getElem (by simpa using hlength) ?_⟩
  intro i hi hi'
  simp [hnodup.idxOf_getElem, hi']

theorem exists_significantLines_eq {a b : String} (h : significantTexts a = significantTexts b) :
    ∃ f : Nat → Nat, (significantNumbers a).map f = significantNumbers b ∧
      (significantLines b).map lineAt =
        ((significantLines a).map lineAt).map (Line.renumber f) := by
  have hlength : (significantNumbers a).length = (significantNumbers b).length := by
    simpa [significantTexts, significantNumbers] using congrArg List.length h
  obtain ⟨f, hf⟩ := exists_map_eq (nodup_significantNumbers a) hlength
  refine ⟨f, hf, ?_⟩
  have hlines : significantLines b = (significantLines a).map fun l => (l.1, f l.2) := by
    rw [List.zip_of_prod h.symm hf.symm, significantTexts, significantNumbers, List.map_map,
      List.zip_map', Function.comp_def]
  rw [hlines, List.map_map, List.map_map]
  rfl

end Significant

def Error.numbers : Error → List Nat
  | malformed _ line _ | misplacedNode line _ => [line]
  | repeatedId _ line firstLine => [line, firstLine]

theorem Offends.kind_ne {before : List Line} {line : Line} {error : Error}
    (h : Offends before line error) : line.kind ≠ .blank ∧ line.kind ≠ .comment := by
  cases h <;> simp [*]

theorem Offends.mem_numbers {before : List Line} {line : Line} {error : Error}
    (h : Offends before line error) : ∀ n ∈ error.numbers,
      n = line.number ∨ ∃ first ∈ before, first.number = n ∧ first.kind = .node := by
  cases h with
  | repeatedId hkind hplace node hread first hfirst declared hdeclared hid =>
    intro n hn
    have hn' : n = line.number ∨ n = first.number := by simpa [Error.numbers] using hn
    rcases hn' with rfl | rfl
    · exact .inl rfl
    · exact .inr ⟨first, hfirst, rfl, (Line.node?_eq_some_iff.1 hdeclared).1⟩
  | _ => simp [Error.numbers]

theorem number_mem_significantNumbers {text : String}
    (h : text.toList.head? ≠ some byteOrderMark) {line : Line} (hline : line ∈ linesOf text)
    (hkind : line.kind ≠ .blank ∧ line.kind ≠ .comment) :
    line.number ∈ significantNumbers text := by
  rw [linesOf_eq h] at hline
  obtain ⟨l, hl, rfl⟩ := List.mem_map.1 hline
  exact List.mem_map_of_mem (List.mem_filter.2 ⟨hl, isSignificant_iff.2 hkind⟩)

theorem numbers_subset_of_parse {text : String} (h : text.toList.head? ≠ some byteOrderMark)
    {error : Error} (herror : parse text = .error error) :
    ∀ n ∈ error.numbers, n ∈ significantNumbers text := by
  obtain ⟨before, line, after, hsplit, -, hoffends⟩ := parse_eq_error_iff.1 herror
  intro n hn
  rcases hoffends.mem_numbers n hn with rfl | ⟨first, hfirst, rfl, hkind⟩
  · exact number_mem_significantNumbers h (by simp [hsplit]) hoffends.kind_ne
  · exact number_mem_significantNumbers h (by simp [hsplit, hfirst]) (by simp [hkind])

/-- Two texts without a byte order mark whose significant lines say the same are read alike. Where
one is read the other is, as the same document but for line numbers; where one is refused so is the
other, for the same reason, and each line that the error names is the same significant line in
both. -/
theorem parse_depends_on_significant_lines (a b : String)
    (ha : a.toList.head? ≠ some byteOrderMark) (hb : b.toList.head? ≠ some byteOrderMark)
    (h : significantTexts a = significantTexts b) :
    ∃ f : Nat → Nat, (significantNumbers a).map f = significantNumbers b ∧
      (∀ document, parse a = .ok document → parse b = .ok (document.renumber f)) ∧
      (∀ error, parse a = .error error →
        parse b = .error (error.renumber f) ∧ ∀ n ∈ error.numbers, n ∈ significantNumbers a) := by
  obtain ⟨f, hnumbers, hlines⟩ := exists_significantLines_eq h
  have hread : parse b = renumbered f (Document.renumber f) (parse a) := by
    have hfold := foldlM_renumber f {} ((significantLines a).map lineAt)
    rw [← hlines] at hfold
    have hempty : ({} : Draft).renumber f = {} := rfl
    rw [hempty] at hfold
    rw [parse_eq_significant ha, parse_eq_significant hb, hfold]
    cases ((significantLines a).map lineAt).foldlM Draft.add {} <;> rfl
  refine ⟨f, hnumbers, fun document hok => ?_, fun error herror => ⟨?_, ?_⟩⟩
  · rw [hread, hok]
    rfl
  · rw [hread, herror]
    rfl
  · exact numbers_subset_of_parse ha herror

def spacedText : String :=
  "flow\n\n# nodes\n[start] A\r\n\t[end] A\n"

def closeText : String :=
  "  flow\r[start] A \r\r#[end] B\n[end] A"

theorem close_text_refused_alike :
    parse spacedText = .error (.repeatedId "A" 5 4) ∧
      parse closeText = .error (.repeatedId "A" 5 2) := by
  have hspaced : parse spacedText = .error (.repeatedId "A" 5 4) := by
    have hmap : (parse spacedText).map (fun _ => ()) = .error (.repeatedId "A" 5 4) := by
      decide +kernel
    cases h : parse spacedText with
    | ok document => simp [h, Except.map] at hmap
    | error error => simpa [h, Except.map] using hmap
  obtain ⟨f, hnumbers, -, herror⟩ := parse_depends_on_significant_lines spacedText closeText
    (by decide +kernel) (by decide +kernel) (by decide +kernel)
  have hspacedNumbers : significantNumbers spacedText = [1, 4, 5] := by decide +kernel
  have hcloseNumbers : significantNumbers closeText = [1, 2, 5] := by decide +kernel
  rw [hspacedNumbers, hcloseNumbers] at hnumbers
  have hf : f 4 = 2 ∧ f 5 = 5 := by simpa using (List.cons.inj hnumbers).2
  refine ⟨hspaced, ?_⟩
  rw [(herror _ hspaced).1, Error.renumber, hf.1, hf.2]

end Diagram
end FlowCanvas
