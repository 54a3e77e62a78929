import FlowCanvas.Proofs.Diagram.Blocks
import FlowCanvas.Proofs.Diagram.Connections

namespace FlowCanvas.Diagram
open Text

/-- A text that is read as an endpoint wherever it stands in a chain. -/
structure IsStop (s : String) : Prop where
  plain : IsPlain ['|'] s
  noArrow : ¬ arrow <:+: s.toList
  noBracket : s.toList.head? ≠ some '['

instance (s : String) : Decidable (IsStop s) :=
  decidable_of_iff (IsPlain ['|'] s ∧ ¬ hasArrow s.toList = true ∧ '[' ∉ s.toList.head?)
    ⟨fun ⟨hp, ha, hb⟩ => ⟨hp, mt hasArrow_iff.2 ha, hb⟩,
      fun h => ⟨h.plain, mt hasArrow_iff.1 h.noArrow, h.noBracket⟩⟩

theorem readEndpoint_trim (segment : List Char) :
    readEndpoint (trim segment) = readEndpoint segment := by
  rw [readEndpoint, Label.clean_eq_of_trim_eq (trim_trim segment), readEndpoint]

theorem IsStop.readEndpoint_eq {s : String} (h : IsStop s) : readEndpoint s.toList = .ok s := by
  refine readEndpoint_eq_ok_iff.2 ⟨?_, h.plain.nonempty, h.noBracket, h.plain.free '|' (by decide)⟩
  rw [h.plain.clean, String.ofList_toList]

theorem isStop_of_isId {s : String} (h : isId s.toList = true) : IsStop s := by
  obtain ⟨hne, -⟩ := isIdChar_of_isId h
  refine ⟨⟨by simpa using hne, clean_of_isId h, ?_⟩, ?_, ?_⟩
  · exact List.forall_mem_singleton.2 (not_mem_of_isId h (by decide))
  · exact fun harrow => not_mem_of_isId h (c := '>') (by decide) (harrow.subset (by decide))
  · exact fun hhead => not_mem_of_isId h (c := '[') (by decide) (List.mem_of_mem_head? hhead)

/-- An arrow with the label on it, if it has one, and the endpoint that it leads to. -/
structure HopText where
  label : Option String
  target : String

namespace HopText

structure IsCanonical (hop : HopText) : Prop where
  label : ∀ m, hop.label = some m → IsPlain ['|'] m
  target : IsStop hop.target

instance (hop : HopText) : Decidable hop.IsCanonical :=
  decidable_of_iff ((∀ m ∈ hop.label, IsPlain ['|'] m) ∧ IsStop hop.target)
    ⟨fun ⟨hl, ht⟩ => ⟨hl, ht⟩, fun h => ⟨h.label, h.target⟩⟩

def text (hop : HopText) : String :=
  match hop.label with
  | some m => " ->|" ++ m ++ "| " ++ hop.target
  | none => " -> " ++ hop.target

def bars (hop : HopText) : List Char :=
  hop.label.elim [] fun m => '|' :: (m.toList ++ ['|'])

def labelText (hop : HopText) : List Char :=
  (hop.label.getD "").toList

variable {hop : HopText}

theorem toList_text (hop : HopText) :
    hop.text.toList = ' ' :: '-' :: '>' :: (hop.bars ++ ' ' :: hop.target.toList) := by
  cases hm : hop.label <;> simp [text, bars, hm, String.toList_append]

/-- The label between bars is passed over, whatever it holds. -/
theorem IsCanonical.arrowLabel_append (h : hop.IsCanonical) (r : List Char) :
    arrowLabel (hop.bars ++ ' ' :: (hop.target.toList ++ r)) =
      (hop.labelText, ' ' :: (hop.target.toList ++ r)) := by
  cases hm : hop.label with
  | some m =>
    have hplain := h.label m hm
    have hstart : trimStart ('|' :: (m.toList ++ '|' :: ' ' :: (hop.target.toList ++ r))) =
        '|' :: (m.toList ++ '|' :: ' ' :: (hop.target.toList ++ r)) :=
      trimStart_of_head fun c hc => by
        obtain rfl : '|' = c := Option.some.inj hc
        decide
    have hcut : cutAt? (· = '|') (m.toList ++ '|' :: ' ' :: (hop.target.toList ++ r)) =
        some (m.toList, ' ' :: (hop.target.toList ++ r)) := by
      apply cutAt?_append_cons _ (by simp)
      intro c hc
      have hne : c ≠ '|' := fun h' => hplain.free '|' (by decide) (h' ▸ hc)
      simp [hne]
    simp [arrowLabel, bars, labelText, hm, hstart, hcut]
  | none =>
    -- The first character after the arrow that is not blank is that of the endpoint.
    have hspaced := h.target.plain.isSpaced
    have hstart : trimStart (' ' :: (hop.target.toList ++ r)) = hop.target.toList ++ r := by
      have hskip : trimStart (' ' :: (hop.target.toList ++ r)) =
          trimStart (hop.target.toList ++ r) := by simp [trimStart, isBlank_space]
      rw [hskip, hspaced.trimStart_append h.target.plain.ne_nil]
    have hbar : (hop.target.toList ++ r).head? ≠ some '|' := by
      obtain ⟨c, t, hcons⟩ := List.exists_cons_of_ne_nil h.target.plain.ne_nil
      have hfree := h.target.plain.free '|' (by decide)
      rw [hcons] at hfree ⊢
      simpa using fun h' : c = '|' => hfree (h' ▸ List.mem_cons_self)
    simp only [arrowLabel, bars, labelText, hm, Option.elim_none, List.nil_append, hstart]
    split
    · next heq => exact absurd (by rw [heq, List.head?_cons]) hbar
    · rfl

theorem IsCanonical.isLine_text (h : hop.IsCanonical) : IsLine hop.text.toList := by
  have htarget := h.target.plain.isSpaced.isLine
  cases hm : hop.label with
  | some m =>
    have hlabel := (h.label m hm).isSpaced.isLine
    simp [toList_text, bars, hm, isLine_append_iff, isLine_cons_iff, hlabel, htarget]
  | none => simp [toList_text, bars, hm, isLine_cons_iff, htarget]

/-- A segment without an arrow and the hops after it are cut at the arrows of the hops. -/
theorem splitArrows_append_hops {u : List Char} (hu : ¬ arrow <:+: u) {hops : List HopText}
    (h : ∀ hop ∈ hops, hop.IsCanonical) :
    trim (splitArrows (u ++ hops.flatMap (·.text.toList))).1 = trim u ∧
      (splitArrows (u ++ hops.flatMap (·.text.toList))).2.map (fun cut => (cut.1, trim cut.2)) =
        hops.map fun hop => (hop.labelText, hop.target.toList) := by
  -- Each hop is the segment before the next one.
  induction hops generalizing u with
  | nil => simp [splitArrows_of_no_arrow hu]
  | cons hop r ih =>
    obtain ⟨hhop, hr⟩ := List.forall_mem_cons.1 h
    have hnext : ¬ arrow <:+: ' ' :: hop.target.toList := by
      rw [List.infix_cons_iff, not_or]
      exact ⟨fun hstart => absurd (List.cons_prefix_cons.1 hstart).1 (by decide),
        hhop.target.noArrow⟩
    obtain ⟨hfirst, hrest⟩ := ih hnext hr
    have hline : u ++ (hop :: r).flatMap (·.text.toList) =
        u ++ ' ' :: '-' :: '>' ::
          (hop.bars ++ ' ' :: (hop.target.toList ++ r.flatMap (·.text.toList))) := by
      simp [toList_text]
    rw [hline, splitArrows_append_space hu, splitArrows_arrow, hhop.arrowLabel_append]
    rw [List.cons_append] at hfirst hrest
    constructor
    · have hspace : AreBlank [' '] := List.forall_mem_singleton.2 isBlank_space
      exact hspace.trim_append u
    · rw [List.map_cons, List.map_cons, hrest, hfirst, trim_cons_space,
        hhop.target.plain.isSpaced.trim_eq]

end HopText

section Style
variable (style : Option LineStyle)

theorem isValue_styleName : ∀ name, style.map (·.name) = some name → IsValue name := by
  intro name hname
  obtain ⟨style, -, rfl⟩ := Option.map_eq_some_iff.1 hname
  cases style <;> decide

theorem lookOf_styleBlock :
    lookOf (attributesOf (((style.map (·.name)).map (writtenEntry "style")).getD [])) =
      .ok ⟨style, none, none, none⟩ := by
  rw [attributesOf_optional (by decide) (isValue_styleName style)]
  rcases style with _ | style
  · rfl
  · cases style <;> rfl

end Style

/-- A chain as it is written, with the style that all of its connections share. -/
structure ChainText where
  first : String
  hops : List HopText
  style : Option LineStyle

namespace ChainText

def endpoints (c : ChainText) : List String :=
  c.first :: c.hops.map (·.target)

structure IsCanonical (c : ChainText) : Prop where
  nonempty : c.hops ≠ []
  first : IsStop c.first
  hops : ∀ hop ∈ c.hops, hop.IsCanonical
  start : c.first.toList.head? ≠ some '#'
  finish : ∀ last, c.endpoints.getLast? = some last → last.toList.getLast? ≠ some '\x7d'

instance (c : ChainText) : Decidable c.IsCanonical :=
  decidable_of_iff
    (c.hops ≠ [] ∧ IsStop c.first ∧ (∀ hop ∈ c.hops, hop.IsCanonical) ∧
      '#' ∉ c.first.toList.head? ∧
      ∀ last ∈ c.endpoints.getLast?, last.toList.getLast? ≠ some '\x7d')
    ⟨fun ⟨hn, hf, hh, hs, he⟩ => ⟨hn, hf, hh, hs, he⟩,
      fun h => ⟨h.nonempty, h.first, h.hops, h.start, h.finish⟩⟩

def line (c : ChainText) : String :=
  let block := match c.style with
    | some style => " \x7b style: " ++ style.name ++ " \x7d"
    | none => ""
  c.first ++ String.join (c.hops.map HopText.text) ++ block

/-- What the line declares, a connection for each hop from the endpoint before it. -/
def decls (c : ChainText) (line : Nat) : List EdgeDecl :=
  List.zipWith (fun source hop => {
    source
    target := hop.target
    label := hop.label
    style := c.style
    animated := none
    color := none
    width := none
    line }) c.endpoints c.hops

section Decls
variable (number : Nat)

theorem decls_cons (first : String) (hop : HopText) (r : List HopText)
    (style : Option LineStyle) :
    decls ⟨first, hop :: r, style⟩ number =
      ⟨first, hop.target, hop.label, style, none, none, none, number⟩ ::
        decls ⟨hop.target, r, style⟩ number :=
  rfl

theorem columns_decls (c : ChainText) :
    (c.decls number).length = c.hops.length ∧
      (c.decls number).map (·.source) = c.endpoints.dropLast ∧
      (c.decls number).map (·.target) = c.endpoints.tail ∧
      (c.decls number).map (·.label) = c.hops.map (·.label) := by
  obtain ⟨first, hops, style⟩ := c
  induction hops generalizing first with
  | nil => exact ⟨rfl, rfl, rfl, rfl⟩
  | cons hop r ih =>
    obtain ⟨hlength, hsources, htargets, hlabels⟩ := ih hop.target
    rw [decls_cons]
    refine ⟨congrArg (· + 1) hlength, congrArg (first :: ·) hsources, ?_,
      congrArg (hop.label :: ·) hlabels⟩
    simpa [endpoints] using htargets

theorem of_mem_decls {c : ChainText} {e : EdgeDecl} (h : e ∈ c.decls number) :
    e.style = c.style ∧ e.line = number ∧ e.animated = none ∧ e.color = none ∧ e.width = none := by
  obtain ⟨first, hops, style⟩ := c
  induction hops generalizing first with
  | nil => cases h
  | cons hop r ih =>
    rw [decls_cons] at h
    rcases List.mem_cons.1 h with rfl | h
    · exact ⟨rfl, rfl, rfl, rfl, rfl⟩
    · exact ih hop.target h

end Decls

def body (c : ChainText) : List Char :=
  c.first.toList ++ c.hops.flatMap (·.text.toList)

variable {c : ChainText}

theorem toList_line (c : ChainText) :
    c.line.toList = c.body ++ optionalBlock "style" (c.style.map (·.name)) := by
  cases hs : c.style <;>
    simp [line, body, optionalBlock, hs, writtenBlock, writtenEntry, keyed, String.toList_append,
      String.toList_join, List.flatMap_def, Function.comp_def]

theorem IsCanonical.exists_last (h : c.IsCanonical) :
    ∃ last, c.endpoints.getLast? = some last ∧ IsStop last ∧
      c.body.getLast? = last.toList.getLast? := by
  obtain ⟨r, hop, hops⟩ := (List.eq_nil_or_concat c.hops).resolve_left h.nonempty
  have hstop : IsStop hop.target := (h.hops hop (by simp [hops])).target
  rw [List.concat_eq_append] at hops
  refine ⟨hop.target, by simp [endpoints, hops, List.getLast?_cons], hstop, ?_⟩
  obtain ⟨d, hd⟩ := Option.ne_none_iff_exists'.1 (mt List.getLast?_eq_none_iff.1 hstop.plain.ne_nil)
  simp [body, hops, HopText.toList_text, List.getLast?_append, List.getLast?_cons, hd]

theorem IsCanonical.splitBlock_body (h : c.IsCanonical) :
    splitBlock (c.body ++ optionalBlock "style" (c.style.map (·.name))) =
      (c.body, (c.style.map (·.name)).map (writtenEntry "style")) := by
  obtain ⟨last, hlast, hstop, hbody⟩ := h.exists_last
  have hd := List.getLast?_eq_some_getLast hstop.plain.ne_nil
  apply splitBlock_append_optionalBlock (by decide) (isValue_styleName c.style) (hbody.trans hd)
  · exact hstop.plain.isSpaced.finish _ hd
  · exact fun hbrace => h.finish last hlast (hbrace ▸ hd)

/-- The connections of a chain go from each endpoint to the next. -/
theorem connect_hops (style : Option LineStyle) (number : Nat) (source : String)
    {hops : List HopText} (h : ∀ hop ∈ hops, hop.IsCanonical) :
    connect ⟨style, none, none, none⟩ number source
        (hops.map fun hop => (hop.labelText, hop.target)) =
      decls ⟨source, hops, style⟩ number := by
  induction hops generalizing source with
  | nil => rfl
  | cons hop r ih =>
    obtain ⟨hhop, hr⟩ := List.forall_mem_cons.1 h
    have hlabel : (if (String.ofList (Label.clean hop.labelText)).isEmpty then none
        else some (String.ofList (Label.clean hop.labelText))) = hop.label := by
      cases hm : hop.label with
      | some m =>
        have hplain := hhop.label m hm
        simp [HopText.labelText, hm, hplain.clean, hplain.nonempty]
      | none =>
        have hempty : Label.clean [] = [] := by decide
        simp [HopText.labelText, hm, hempty]
    rw [List.map_cons, connect, ih _ hr, decls_cons]
    simp only [hlabel]

theorem IsCanonical.readEdges_line (h : c.IsCanonical) (number : Nat) :
    readEdges number c.line.toList = .ok (c.decls number) := by
  obtain ⟨hfirst, hcuts⟩ := HopText.splitArrows_append_hops h.first.noArrow h.hops
  have hsource : readEndpoint (splitArrows c.body).1 = .ok c.first := by
    rw [← readEndpoint_trim, body, hfirst, readEndpoint_trim, h.first.readEndpoint_eq]
  -- The cuts are known but for blanks around them, which an endpoint is read without.
  have htargets : ((splitArrows c.body).2.mapM fun cut => do
      return (cut.1, ← readEndpoint cut.2)) =
        .ok (c.hops.map fun hop => (hop.labelText, hop.target)) :=
    calc ((splitArrows c.body).2.mapM fun cut => do return (cut.1, ← readEndpoint cut.2))
      _ = ((splitArrows c.body).2.map fun cut => (cut.1, trim cut.2)).mapM
            fun cut => do return (cut.1, ← readEndpoint cut.2) := by
        simp only [List.mapM_map, Function.comp_def, readEndpoint_trim]
      _ = c.hops.mapM fun hop => do
            return (hop.labelText, ← readEndpoint hop.target.toList) := by
        rw [body, hcuts, List.mapM_map]
        rfl
      _ = .ok (c.hops.map fun hop => (hop.labelText, hop.target)) :=
        mapM_eq_ok fun hop hhop => by
          rw [(h.hops hop hhop).target.readEndpoint_eq]
          rfl
  simp only [readEdges, toList_line, h.splitBlock_body, lookOf_styleBlock, hsource, bind,
    Except.bind] at htargets ⊢
  rw [htargets]
  exact congrArg Except.ok (connect_hops c.style number c.first h.hops)

theorem IsCanonical.isRow (h : c.IsCanonical) : IsRow c.line.toList := by
  rw [toList_line]
  apply isRow_of_ends
  · have hhops : IsLine (c.hops.flatMap (·.text.toList)) := by
      intro d hd
      obtain ⟨hop, hmem, hd⟩ := List.mem_flatMap.1 hd
      exact (h.hops hop hmem).isLine_text d hd
    have hblock : IsLine (optionalBlock "style" (c.style.map (·.name))) :=
      isLine_optionalBlock (by decide) (isValue_styleName c.style)
    simp [body, isLine_append_iff, h.first.plain.isSpaced.isLine, hhops, hblock]
  · intro d hd
    obtain ⟨f, r, hcons⟩ := List.exists_cons_of_ne_nil h.first.plain.ne_nil
    obtain rfl : f = d := by simpa [body, hcons] using hd
    exact h.first.plain.isSpaced.start f (by rw [hcons, List.head?_cons])
  · apply getLast?_append_optionalBlock
    obtain ⟨last, -, hstop, hbody⟩ := h.exists_last
    rw [hbody]
    exact hstop.plain.isSpaced.finish

theorem IsCanonical.classify_line (h : c.IsCanonical) : classify c.line.toList = .edge := by
  obtain ⟨d, r, hcons⟩ := List.exists_cons_of_ne_nil h.first.plain.ne_nil
  have hhead : c.first.toList.head? = some d := by rw [hcons, List.head?_cons]
  have hcomment : d ≠ '#' := fun hd => h.start (hd ▸ hhead)
  have hbracket : d ≠ '[' := fun hd => h.first.noBracket (hd ▸ hhead)
  obtain ⟨hop, hops, heq⟩ := List.exists_cons_of_ne_nil h.nonempty
  have harrow : arrow <:+: c.line.toList := by
    rw [toList_line, body, heq, List.flatMap_cons, HopText.toList_text]
    exact ⟨c.first.toList ++ [' '], hop.bars ++ ' ' :: hop.target.toList ++
      hops.flatMap (·.text.toList) ++ optionalBlock "style" (c.style.map (·.name)),
      by simp [arrow]⟩
  rw [toList_line, body, hcons, List.cons_append, List.cons_append] at harrow ⊢
  exact classify_eq_edge harrow hcomment hbracket

end ChainText

/-- A chain is one connection line, and each of its arrows is read as a connection: from the
endpoint before it to the one after it, with its own label and the style of the line, and with
nothing else that a block could give. -/
theorem chain_is_read_hop_by_hop (c : ChainText) (h : c.IsCanonical) (number : Nat) :
    Line.of number c.line.toList = ⟨.edge, number, c.line⟩ ∧
      ∃ edges, readEdges number c.line.toList = .ok edges ∧ edges.length = c.hops.length ∧
        edges.map (·.source) = c.endpoints.dropLast ∧
        edges.map (·.target) = c.endpoints.tail ∧
        edges.map (·.label) = c.hops.map (·.label) ∧
        ∀ e ∈ edges, e.style = c.style ∧ e.line = number ∧
          e.animated = none ∧ e.color = none ∧ e.width = none := by
  have hline : Line.of number c.line.toList = ⟨.edge, number, c.line⟩ := by
    rw [h.isRow.of, h.classify_line]
  obtain ⟨hlength, hsources, htargets, hlabels⟩ := ChainText.columns_decls number c
  exact ⟨hline, c.decls number, h.readEdges_line number, hlength, hsources, htargets, hlabels,
    fun _ => ChainText.of_mem_decls number⟩

/-- A chain of two hops: the label between bars holds an arrow, braces and brackets, and endpoints
hold a quote and a brace, or end with a dash. -/
theorem crowded_chain_is_read_hop_by_hop :
    let c : ChainText := ⟨"it's \x7b", [⟨some "a -> b \x7bx\x7d [p] q", ">c -"⟩, ⟨none, "d"⟩],
      some .dashed⟩
    c.IsCanonical ∧
      c.line = "it's \x7b ->|a -> b \x7bx\x7d [p] q| >c - -> d \x7b style: dashed \x7d" ∧
      ∃ edges, readEdges 7 c.line.toList = .ok edges ∧ edges.length = 2 ∧
        edges.map (·.source) = ["it's \x7b", ">c -"] ∧ edges.map (·.target) = [">c -", "d"] ∧
        edges.map (·.label) = [some "a -> b \x7bx\x7d [p] q", none] := by
  intro c
  have h : c.IsCanonical := by decide +kernel
  obtain ⟨-, edges, hread, hlength, hsources, htargets, hlabels, -⟩ :=
    chain_is_read_hop_by_hop c h 7
  exact ⟨h, by decide +kernel, edges, hread, hlength, hsources, htargets, hlabels⟩

end FlowCanvas.Diagram
