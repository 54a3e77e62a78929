import FlowCanvas.Proofs.Diagram.Unwrapping

namespace FlowCanvas.Diagram
open Text

section Bodies
variable {α : Type} {fence : α → Bool} {xs before body after : List α} {x opening closing : α}

theorem eq_false_of_mem_bodyBy (h : x ∈ bodyBy fence xs) : fence x = false := by
  unfold bodyBy at h
  simp only at h
  split at h
  · next hnone => simpa using List.dropWhile_eq_nil_iff.1 hnone x h
  · split at h
    · simpa using List.mem_takeWhile_imp h
    · next hany =>
      rcases List.mem_append.1 h with h | h
      · simpa using List.mem_takeWhile_imp h
      · simpa using fun hx => hany (List.any_eq_true.2 ⟨x, h, hx⟩)

/-- The body is what stands between the first two fences. -/
theorem bodyBy_of_fenced (hbefore : ∀ x ∈ before, fence x = false) (hopening : fence opening = true)
    (hbody : ∀ x ∈ body, fence x = false) (hclosing : fence closing = true) :
    bodyBy fence (before ++ opening :: (body ++ closing :: after)) = body := by
  have hstart : ∀ x ∈ before, (!fence x) = true := fun x hx => by simp [hbefore x hx]
  have hinside : ∀ x ∈ body, (!fence x) = true := fun x hx => by simp [hbody x hx]
  have hsecond : (body ++ closing :: after).any fence = true := by simp [hclosing]
  simp only [bodyBy, List.dropWhile_append_of_pos hstart, List.takeWhile_append_of_pos hstart,
    List.dropWhile_cons, hopening, Bool.not_true, Bool.false_eq_true, if_false, hsecond, if_true,
    List.takeWhile_append_of_pos hinside, List.takeWhile_cons, hclosing, List.append_nil]

end Bodies

section Stable
variable {text : String}

/-- What unwrapping leaves is made of lines without blanks at their ends, and none of them is a
fence. -/
theorem exists_lines_unwrap (text : String) :
    ∃ ls, ls ≠ [] ∧ (unwrap text).toList = List.intercalate ['\n'] ls ∧
      ∀ l ∈ ls, IsLine l ∧ trimEnd l = l ∧ isFence l = false := by
  cases hkept : withoutEnds isBlankLine (bodyLines (tidyLines text.toList)) with
  | nil =>
    refine ⟨[[]], by simp, ?_, List.forall_mem_singleton.2 ⟨isLine_nil, rfl, rfl⟩⟩
    rw [unwrap, ← trim_intercalate_withoutEnds, hkept]
    rfl
  | cons first rest =>
    obtain ⟨hjoined, hmem⟩ := toList_unwrap hkept
    have hkeep : ∀ l ∈ first :: rest, IsLine l ∧ trimEnd l = l ∧ isFence l = false := by
      intro l hl
      have hbody := hmem l hl
      obtain ⟨hline, htidy⟩ := mem_bodyLines hbody
      rw [bodyLines_eq] at hbody
      exact ⟨hline, htidy, eq_false_of_mem_bodyBy hbody⟩
    obtain ⟨⟨hline, htidy, hfence⟩, hrest⟩ := List.forall_mem_cons.1 hkeep
    -- Only the first line is changed, and a fence is one with indentation or without.
    refine ⟨trim first :: rest, by simp, hjoined, List.forall_mem_cons.2 ⟨⟨?_, ?_, ?_⟩, hrest⟩⟩
    · exact fun c hc => hline c (mem_of_mem_trim hc)
    · exact trimEnd_trimEnd _
    · rw [isFence_trim, htidy, hfence]

theorem mem_of_mem_unwrap {c : Char} (h : c ∈ (unwrap text).toList) (hc : c ≠ '\n') :
    c ∈ text.toList := by
  rw [unwrap, String.toList_ofList] at h
  rcases mem_of_mem_intercalate (mem_of_mem_trim h) with h | ⟨l, hl, h⟩
  · exact absurd (List.mem_singleton.1 h) hc
  · rw [bodyLines_eq] at hl
    obtain ⟨raw, hraw, rfl⟩ := List.mem_map.1 ((bodyBy_sublist _ _).mem hl)
    exact mem_of_mem_dropMark (subset_of_mem_lines hraw (mem_of_mem_trimEnd h))

/-- Unwrapping leaves no fence, and it is done once: a text that it has left stays as it is. A byte
order mark would be ignored the second time if it had come to stand at the head. -/
theorem unwrapped_text_is_stable (text : String) :
    (∀ l ∈ lines (unwrap text).toList, isFence l = false) ∧
      (byteOrderMark ∉ text.toList → unwrap (unwrap text) = unwrap text) := by
  obtain ⟨ls, hne, hjoined, hls⟩ := exists_lines_unwrap text
  have hlines : lines (unwrap text).toList = ls := by
    rw [hjoined, lines_intercalate hne fun l hl => (hls l hl).1]
  refine ⟨fun l hl => (hls l (hlines ▸ hl)).2.2, fun hmark => ?_⟩
  have hhead : (unwrap text).toList.head? ≠ some byteOrderMark := fun hhead =>
    hmark (mem_of_mem_unwrap (List.mem_of_mem_head? hhead) (by decide))
  have htidy : tidyLines (unwrap text).toList = ls := by
    rw [tidyLines, dropMark_of_head hhead, hlines]
    exact (List.map_congr_left fun l hl => (hls l hl).2.1).trans (List.map_id ls)
  have hbody : bodyLines ls = ls := by
    rw [bodyLines_eq, bodyBy_of_none fun l hl => (hls l hl).2.2]
  rw [unwrap, htidy, hbody, ← hjoined]
  conv_rhs => rw [unwrap]
  rw [unwrap, String.toList_ofList, trim_trim]

/-- Three fences, and line ends of all kinds. -/
theorem twice_unwrapped_fences :
    let text := "Here:\r\x60\x60\x60flow\r\n  [start] A \n\r\x60\x60\x60\n\x60\x60\x60\r\nDone."
    byteOrderMark ∉ text.toList ∧ unwrap text = "[start] A" ∧
      unwrap (unwrap text) = unwrap text := by
  intro text
  have hmark : byteOrderMark ∉ text.toList := by decide +kernel
  exact ⟨hmark, by decide +kernel, (unwrapped_text_is_stable text).2 hmark⟩

example : unwrap "\ufeff\ufeffflow" = "\ufeffflow" ∧ unwrap "\ufeffflow" = "flow" := by
  decide +kernel

end Stable

section Marks
variable {tag : List Char}

theorem isBlank_backquote : isBlank (Char.ofNat 0x60) = false := by decide

theorem isFence_append_tag (h : ∀ c ∈ tag, isTagChar c = true) :
    isFence (fenceMark ++ tag) = true := by
  have hstart : trimStart (fenceMark ++ tag) = fenceMark ++ tag :=
    trimStart_of_head fun c hc => by
      obtain rfl : Char.ofNat 0x60 = c := Option.some.inj hc
      exact isBlank_backquote
  have htag : (trimStart tag).dropWhile isTagChar = [] :=
    List.dropWhile_eq_nil_iff.2 fun c hc => h c (mem_of_mem_trimStart hc)
  have hmark : fenceMark.isPrefixOf (fenceMark ++ tag) = true :=
    List.isPrefixOf_iff_prefix.2 (List.prefix_append _ _)
  simp only [isFence, hstart, hmark, List.drop_left, htag]
  rfl

theorem isFence_trimEnd_append_tag (h : ∀ c ∈ tag, isTagChar c = true) :
    isFence (trimEnd (fenceMark ++ tag)) = true := by
  have htrim : trimEnd (fenceMark ++ tag) = fenceMark ++ trimEnd tag :=
    trimEnd_append_cons isBlank_backquote (List.replicate 2 (Char.ofNat 0x60)) tag
  rw [htrim]
  exact isFence_append_tag fun c hc => h c (mem_of_mem_trimEnd hc)

theorem isLine_fence (h : ∀ c ∈ tag, isTagChar c = true) : IsLine (fenceMark ++ tag) := by
  refine isLine_append_iff.2 ⟨by decide, fun c hc => ⟨?_, ?_⟩⟩
  · rintro rfl
    exact absurd (h _ hc) (by decide)
  · rintro rfl
    exact absurd (h _ hc) (by decide)

end Marks

/-- A text without a line that is a fence, a byte order mark at its head aside. -/
def IsUnfenced (text : String) : Prop :=
  ∀ l ∈ tidyLines text.toList, isFence l = false

instance (text : String) : Decidable (IsUnfenced text) :=
  inferInstanceAs (Decidable (∀ l ∈ tidyLines text.toList, isFence l = false))

/-- A text with a fence around its body. There may be some text before the fence, and anything
after it. -/
structure FencedText where
  before : Option String
  tag : String
  body : String
  after : Option String

namespace FencedText

structure IsCanonical (f : FencedText) : Prop where
  before : ∀ prose, f.before = some prose → IsUnfenced prose
  tag : ∀ c ∈ f.tag.toList, isTagChar c = true
  body : IsUnfenced f.body
  unmarked : f.body.toList.head? ≠ some byteOrderMark

instance (f : FencedText) : Decidable f.IsCanonical :=
  decidable_of_iff
    ((∀ prose ∈ f.before, IsUnfenced prose) ∧ f.tag.toList.all isTagChar = true ∧
      IsUnfenced f.body ∧ byteOrderMark ∉ f.body.toList.head?)
    ⟨fun ⟨hp, ht, hb, hm⟩ => ⟨hp, List.all_eq_true.1 ht, hb, hm⟩,
      fun h => ⟨h.before, List.all_eq_true.2 h.tag, h.body, h.unmarked⟩⟩

def text (f : FencedText) : String :=
  f.before.elim "" (· ++ "\n") ++ "\x60\x60\x60" ++ f.tag ++ "\n" ++ f.body ++
    "\n\x60\x60\x60" ++ f.after.elim "" ("\n" ++ ·)

def block (f : FencedText) : List Char :=
  fenceMark ++ f.tag.toList ++ '\n' :: (f.body.toList ++ '\n' ::
    (fenceMark ++ (f.after.elim "" ("\n" ++ ·)).toList))

variable {f : FencedText}

theorem toList_text (f : FencedText) :
    f.text.toList = (f.before.elim "" (· ++ "\n")).toList ++ f.block := by
  simp [text, block, fenceMark, List.replicate, String.toList_append]

theorem trim_text_ne_nil (f : FencedText) : trim f.text.toList ≠ [] := by
  have hmem : Char.ofNat 0x60 ∈ f.text.toList := by
    simp [toList_text, block, fenceMark, List.replicate]
  exact List.ne_nil_of_mem ((mem_trim_iff isBlank_backquote).2 hmem)

/-- The lines from the fence on. Those of the body are as they are by themselves, but that an empty
one may be missing at the end. -/
theorem IsCanonical.exists_lines_block (h : f.IsCanonical) :
    ∃ ls more, lines f.block = (fenceMark ++ f.tag.toList) :: (ls ++ fenceMark :: more) ∧
      (lines f.body.toList = ls ∨ lines f.body.toList = ls ++ [[]]) := by
  obtain ⟨ls, -, hlines, hls⟩ := exists_lines_append_newline f.body.toList
    (fenceMark ++ (f.after.elim "" ("\n" ++ ·)).toList)
  have hclosing : ∃ more, lines (fenceMark ++ (f.after.elim "" ("\n" ++ ·)).toList) =
      fenceMark :: more := by
    have hline : IsLine fenceMark := by decide
    cases f.after with
    | none => exact ⟨[], lines_of_isLine hline⟩
    | some after =>
      refine ⟨lines after.toList, ?_⟩
      simpa [String.toList_append] using lines_append_newline hline after.toList
  obtain ⟨more, hmore⟩ := hclosing
  exact ⟨ls, more, by rw [block, lines_append_newline (isLine_fence h.tag), hlines, hmore], hls⟩

/-- The lines before the fence, none of which is one, and those from the fence on. -/
theorem IsCanonical.exists_tidyLines_text (h : f.IsCanonical) :
    ∃ before, tidyLines f.text.toList = before ++ (lines f.block).map trimEnd ∧
      ∀ l ∈ before, isFence l = false := by
  cases hbefore : f.before with
  | none =>
    have hhead : f.block.head? ≠ some byteOrderMark := by
      simp [block, fenceMark, List.replicate, byteOrderMark]
    refine ⟨[], ?_, List.forall_mem_nil _⟩
    rw [toList_text, hbefore, tidyLines]
    simp [dropMark_of_head hhead]
  | some prose =>
    have hmark : dropMark (prose.toList ++ '\n' :: f.block) =
        dropMark prose.toList ++ '\n' :: f.block := by
      by_cases hempty : prose.toList = []
      · rw [hempty]
        rfl
      · exact dropMark_append hempty _
    obtain ⟨ls, -, hlines, hls⟩ := exists_lines_append_newline (dropMark prose.toList) f.block
    refine ⟨ls.map trimEnd, ?_, fun l hl => h.before prose hbefore l ?_⟩
    · rw [toList_text, hbefore, tidyLines]
      simp [String.toList_append, hmark, hlines]
    · rw [tidyLines]
      rcases hls with hls | hls <;> simp [hls, hl]

/-- A text in a fence is unwrapped to what its body is unwrapped to. -/
theorem IsCanonical.unwrap_text (h : f.IsCanonical) : unwrap f.text = unwrap f.body := by
  obtain ⟨before, htext, hbefore⟩ := h.exists_tidyLines_text
  obtain ⟨ls, more, hblock, hls⟩ := h.exists_lines_block
  have hbody : tidyLines f.body.toList = ls.map trimEnd ∨
      tidyLines f.body.toList = ls.map trimEnd ++ [[]] := by
    rw [tidyLines, dropMark_of_head h.unmarked]
    rcases hls with hls | hls
    · exact .inl (by rw [hls])
    · exact .inr (by rw [hls, List.map_append]; rfl)
  have hinside : ∀ l ∈ ls.map trimEnd, isFence l = false := by
    intro l hl
    apply h.body
    rcases hbody with hbody | hbody <;> simp [hbody, hl]
  have hfenced : bodyLines (tidyLines f.text.toList) = ls.map trimEnd := by
    rw [htext, hblock, bodyLines_eq, List.map_cons, List.map_append, List.map_cons]
    exact bodyBy_of_fenced hbefore (isFence_trimEnd_append_tag h.tag) hinside rfl
  have hbare : bodyLines (tidyLines f.body.toList) = tidyLines f.body.toList := by
    rw [bodyLines_eq, bodyBy_of_none h.body]
  rw [unwrap, unwrap, hfenced, hbare]
  -- A carriage return at the end of the body takes the line feed before the fence, and an empty
  -- line goes with it; but it would be trimmed.
  rcases hbody with hbody | hbody
  · rw [hbody]
  · have hempty : AreBlank [] := List.forall_mem_nil _
    rw [hbody, hempty.trim_intercalate_concat]

end FencedText

end FlowCanvas.Diagram
