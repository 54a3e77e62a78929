import FlowCanvas.Proofs.Diagram.Chains

namespace FlowCanvas.Diagram
open Text

section Classes
variable {cs r : List Char}

theorem opensNode_eq_false (h : '[' ∉ r) : opensNode r = false := by
  have htrim : '[' ∉ trimStart r := fun hmem => h (mem_of_mem_trimStart hmem)
  have hhead {cs : List Char} (hcs : '[' ∉ cs) : (cs.head? = some '[') = False :=
    eq_false fun hc => hcs (List.mem_of_mem_head? hc)
  unfold opensNode
  simp only
  split
  · next s hs =>
    -- What follows a label is a part of the text too.
    have hrest : '[' ∉ trimStart s := by
      intro hmem
      apply htrim
      unfold afterLabel? at hs
      split at hs
      · next t ht =>
        obtain ⟨⟨b, a⟩, hcut, rfl⟩ := Option.map_eq_some_iff.1 hs
        obtain ⟨c, -, rfl⟩ := eq_append_of_cutAt? hcut
        rw [ht]
        have := mem_of_mem_trimStart hmem
        simp [this]
      · cases hs
    simp [hhead hrest]
  · simp [hhead htrim]

theorem hasInlineNode_eq_false (h : '[' ∉ cs) : hasInlineNode cs = false := by
  fun_induction hasInlineNode cs with
  | case1 r ih =>
    have hr : '[' ∉ r := fun hmem => h (by simp [hmem])
    rw [opensNode_eq_false hr, ih fun hmem => h (List.mem_cons_of_mem _ hmem), Bool.or_false]
  | case2 c r _ ih => exact ih fun hmem => h (List.mem_cons_of_mem _ hmem)
  | case3 => rfl

theorem classify_eq_node (hkind : ']' ∈ r) (hbracket : '[' ∉ r) : classify ('[' :: r) = .node := by
  have hstarts : startsWithKind ('[' :: r) = true := by simpa [startsWithKind] using hkind
  have hinline : hasInlineNode ('[' :: r) = false := by
    rw [hasInlineNode]
    · exact hasInlineNode_eq_false hbracket
    · simp
  have hheader : startsHeader ('[' :: r) = false := by simp [startsHeader, headerWords]
  simp [classify, hstarts, hinline, hheader]

end Classes

/-- A node as it is written, with an id of its own. -/
structure NodeText where
  kind : NodeKind
  id : String
  label : String
  subLabel : Option String

namespace NodeText

structure IsCanonical (n : NodeText) : Prop where
  id : isId n.id.toList = true
  label : IsPlain ['[', '\x7b', '\x7d'] n.label
  subLabel : ∀ s, n.subLabel = some s → IsValue s

instance (n : NodeText) : Decidable n.IsCanonical :=
  decidable_of_iff (isId n.id.toList = true ∧ IsPlain ['[', '\x7b', '\x7d'] n.label ∧
      ∀ s ∈ n.subLabel, IsValue s)
    ⟨fun ⟨hi, hl, hs⟩ => ⟨hi, hl, hs⟩, fun h => ⟨h.id, h.label, h.subLabel⟩⟩

def line (n : NodeText) : String :=
  "[" ++ n.kind.name ++ "] " ++ n.id ++ ": " ++ n.label ++
    match n.subLabel with
    | some s => " \x7b sub: " ++ s ++ " \x7d"
    | none => ""

def decl (n : NodeText) (line : Nat) : NodeDecl where
  id := n.id
  label := n.label
  kind := n.kind
  subLabel := n.subLabel
  word := n.kind.name
  explicitId := true
  line := line

def body (n : NodeText) : List Char :=
  keyed n.id.toList n.label.toList

def block (n : NodeText) : List Char :=
  optionalBlock "sub" n.subLabel

variable {n : NodeText}

theorem toList_line (n : NodeText) :
    n.line.toList = '[' :: (n.kind.name.toList ++ ']' :: ' ' :: (n.body ++ n.block)) := by
  cases hs : n.subLabel <;>
    simp [line, body, keyed, block, optionalBlock, hs, writtenBlock, writtenEntry,
      String.toList_append]

theorem IsCanonical.isSpaced_body (h : n.IsCanonical) : IsSpaced n.body :=
  isSpaced_keyed h.id h.label.isSpaced h.label.ne_nil

theorem IsCanonical.splitBlock_body (h : n.IsCanonical) :
    splitBlock (n.body ++ n.block) = (n.body, n.subLabel.map (writtenEntry "sub")) := by
  have hc := List.getLast?_eq_some_getLast h.label.ne_nil
  generalize n.label.toList.getLast h.label.ne_nil = c at hc
  have hlast : n.body.getLast? = some c := by simp [body, keyed, List.getLast?_cons, hc]
  apply splitBlock_append_optionalBlock (by decide) h.subLabel hlast
  · exact h.isSpaced_body.finish c hlast
  · rintro rfl
    exact h.label.free '\x7d' (by decide) (List.mem_of_getLast? hc)

theorem IsCanonical.splitId_body (h : n.IsCanonical) :
    splitId n.body = (some n.id, ' ' :: n.label.toList) := by
  have hcut : cutAt? (· = ':') n.body = some (n.id.toList, ' ' :: n.label.toList) :=
    cutAt?_keyed h.id _
  have hid : trim n.id.toList = n.id.toList := (isSpaced_of_isId h.id).trim_eq
  have hlabel : trim (' ' :: n.label.toList) = n.label.toList := by
    rw [trim_cons_space, h.label.isSpaced.trim_eq]
  -- The text before the first colon is an id, so it is not taken for a part of the label.
  simp [splitId, hcut, hid, h.id, hlabel, h.label.nonempty]

theorem splitKind?_line (h : n.IsCanonical) :
    splitKind? n.line.toList = some (n.kind.name.toList, n.body ++ n.block) := by
  have hcut : cutAt? (· = ']') (n.kind.name.toList ++ ']' :: ' ' :: (n.body ++ n.block)) =
      some (n.kind.name.toList, ' ' :: (n.body ++ n.block)) := by
    have hkind : ']' ∉ n.kind.name.toList := by
      generalize n.kind = kind
      cases kind <;> decide
    apply cutAt?_append_cons _ (by simp)
    intro c hc
    have hne : c ≠ ']' := fun h' => hkind (h' ▸ hc)
    simp [hne]
  have hspace : trimStart (' ' :: (n.body ++ n.block)) = n.body ++ n.block := by
    have hskip : trimStart (' ' :: (n.body ++ n.block)) = trimStart (n.body ++ n.block) := by
      simp [trimStart, isBlank_space]
    rw [hskip, h.isSpaced_body.trimStart_append (keyed_ne_nil _ _)]
  simp [toList_line, splitKind?, hcut, hspace]

/-- A written node is read back. -/
theorem readNode_line (h : n.IsCanonical) (number : Nat) :
    readNode number n.line.toList = .ok (n.decl number) := by
  have hlabel : Label.clean (' ' :: n.label.toList) = n.label.toList := h.label.clean_cons_space
  have hword : trim n.kind.name.toList = n.kind.name.toList ∧ n.kind.name.toList ≠ [] ∧
      NodeKind.ofWord n.kind.name.toList = n.kind := by
    generalize n.kind = kind
    cases kind <;> decide +kernel
  have hsub : subLabelKeys.findSome? (filled? (attributesOf
      ((n.subLabel.map (writtenEntry "sub")).getD []))) = n.subLabel := by
    rw [attributesOf_optional (by decide) h.subLabel]
    cases hs : n.subLabel with
    | some s =>
      have hnonempty : s.isEmpty = false := by simpa using (h.subLabel s hs).nonempty
      simp [subLabelKeys, filled?, Table.get?_cons, hnonempty]
    | none => rfl
  simp [readNode, splitKind?_line h, h.splitBlock_body, h.splitId_body, hlabel, hword, hsub,
    h.label.nonempty, decl]

theorem classify_line (h : n.IsCanonical) : classify n.line.toList = .node := by
  rw [toList_line]
  apply classify_eq_node
  · simp
  · have hkind : '[' ∉ n.kind.name.toList := by
      generalize n.kind = kind
      cases kind <;> decide
    have hid : '[' ∉ n.id.toList := not_mem_of_isId h.id (by decide)
    have hlabel : '[' ∉ n.label.toList := h.label.free '[' (by decide)
    have hblock : '[' ∉ n.block := not_mem_optionalBlock (by decide) h.subLabel
    simp [body, keyed, hkind, hid, hlabel, hblock]

end NodeText

structure EdgeText where
  source : String
  target : String
  label : Option String
  style : Option LineStyle

namespace EdgeText

structure IsCanonical (e : EdgeText) : Prop where
  source : isId e.source.toList = true
  target : isId e.target.toList = true
  label : ∀ m, e.label = some m → IsPlain ['|'] m

def line (e : EdgeText) : String :=
  let hop := match e.label with
    | some m => " ->|" ++ m ++ "| "
    | none => " -> "
  let block := match e.style with
    | some style => " \x7b style: " ++ style.name ++ " \x7d"
    | none => ""
  e.source ++ hop ++ e.target ++ block

def decl (e : EdgeText) (line : Nat) : EdgeDecl where
  source := e.source
  target := e.target
  label := e.label
  style := e.style
  animated := none
  color := none
  width := none
  line := line

def chain (e : EdgeText) : ChainText where
  first := e.source
  hops := [⟨e.label, e.target⟩]
  style := e.style

variable {e : EdgeText}

theorem line_chain (e : EdgeText) : e.chain.line = e.line := by
  rw [← String.toList_inj]
  cases hm : e.label <;> cases hs : e.style <;>
    simp [chain, ChainText.line, HopText.text, line, hm, hs, String.toList_append]

theorem IsCanonical.chain (h : e.IsCanonical) : e.chain.IsCanonical where
  nonempty := List.cons_ne_nil _ _
  first := isStop_of_isId h.source
  hops := List.forall_mem_singleton.2 ⟨h.label, isStop_of_isId h.target⟩
  start := fun hhead => not_mem_of_isId h.source (by decide) (List.mem_of_mem_head? hhead)
  finish := by
    rintro _ ⟨⟩ hlast
    exact not_mem_of_isId h.target (by decide) (List.mem_of_getLast? hlast)

/-- A written connection is read back. -/
theorem readEdges_line (h : e.IsCanonical) (number : Nat) :
    readEdges number e.line.toList = .ok [e.decl number] := by
  rw [← line_chain]
  exact h.chain.readEdges_line number

theorem classify_line (h : e.IsCanonical) : classify e.line.toList = .edge := by
  rw [← line_chain]
  exact h.chain.classify_line

theorem IsCanonical.isRow (h : e.IsCanonical) : IsRow e.line.toList := by
  rw [← line_chain]
  exact h.chain.isRow

end EdgeText

end FlowCanvas.Diagram
