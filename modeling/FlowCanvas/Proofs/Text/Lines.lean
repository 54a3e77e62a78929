import FlowCanvas.Proofs.Text.Spacing
import FlowCanvas.Text.Lines

namespace FlowCanvas.Text

variable {w r : List Char}

def IsLine (w : List Char) : Prop :=
  ∀ c ∈ w, c ≠ '\n' ∧ c ≠ '\r'

instance (w : List Char) : Decidable (IsLine w) :=
  decidable_of_iff (w.all (fun c => c != '\n' && c != '\r') = true) (by simp [IsLine])

theorem isLine_append_iff {u v : List Char} : IsLine (u ++ v) ↔ IsLine u ∧ IsLine v :=
  List.forall_mem_append

theorem isLine_cons_iff {c : Char} : IsLine (c :: r) ↔ (c ≠ '\n' ∧ c ≠ '\r') ∧ IsLine r :=
  List.forall_mem_cons

theorem isLine_nil : IsLine [] :=
  List.forall_mem_nil _

theorem IsSpaced.isLine (h : IsSpaced w) : IsLine w := by
  intro c hc
  refine ⟨?_, ?_⟩
  · rintro rfl
    exact absurd (h.spaces _ hc (by decide)) (by decide)
  · rintro rfl
    exact absurd (h.spaces _ hc (by decide)) (by decide)

theorem lines_cons {c : Char} (hn : c ≠ '\n') (hr : c ≠ '\r') {l : List Char}
    {ls : List (List Char)} (h : lines r = l :: ls) : lines (c :: r) = (c :: l) :: ls := by
  rw [lines]
  · simp [hn, hr, h]
  · rintro s rfl
    exact absurd rfl hr

theorem lines_of_isLine (h : IsLine w) : lines w = [w] := by
  induction w with
  | nil => rfl
  | cons c w ih =>
    obtain ⟨hn, hr⟩ := h c List.mem_cons_self
    exact lines_cons hn hr (ih fun d hd => h d (List.mem_cons_of_mem _ hd))

theorem lines_append_newline (h : IsLine w) (r : List Char) :
    lines (w ++ '\n' :: r) = w :: lines r := by
  induction w with
  | nil =>
    rw [List.nil_append, lines]
    · simp
    · simp
  | cons c w ih =>
    obtain ⟨hn, hr⟩ := h c List.mem_cons_self
    exact lines_cons hn hr (ih fun d hd => h d (List.mem_cons_of_mem _ hd))

theorem lines_intercalate {ls : List (List Char)} (hne : ls ≠ []) (h : ∀ l ∈ ls, IsLine l) :
    lines (List.intercalate ['\n'] ls) = ls := by
  induction ls with
  | nil => exact absurd rfl hne
  | cons l ls ih =>
    have hl := h l List.mem_cons_self
    cases ls with
    | nil =>
      rw [List.intercalate_singleton]
      exact lines_of_isLine hl
    | cons m ls =>
      rw [List.intercalate_cons_of_ne_nil (List.cons_ne_nil m ls), List.append_assoc,
        List.singleton_append, lines_append_newline hl,
        ih (List.cons_ne_nil m ls) fun x hx => h x (List.mem_cons_of_mem _ hx)]

theorem isLine_of_mem_lines {l : List Char} (h : l ∈ lines r) : IsLine l := by
  fun_induction lines r generalizing l with
  | case1 =>
    rw [List.mem_singleton.1 h]
    exact isLine_nil
  | case2 r ih =>
    rcases List.mem_cons.1 h with rfl | h
    · exact isLine_nil
    · exact ih h
  | case3 c r _ hbreak ih =>
    rcases List.mem_cons.1 h with rfl | h
    · exact isLine_nil
    · exact ih h
  | case4 c r hpair hc hlines ih => simp at hlines
  | case5 c r hpair hc m ms hlines ih =>
    rw [not_or] at hc
    rcases List.mem_cons.1 h with rfl | h
    · exact isLine_cons_iff.2 ⟨hc, ih (by simp [hlines])⟩
    · exact ih (by simp [hlines, h])

/-- A line has its characters from the text. -/
theorem subset_of_mem_lines {l : List Char} (h : l ∈ lines r) : l ⊆ r := by
  fun_induction lines r generalizing l with
  | case1 => simpa using h
  | case2 r ih =>
    rcases List.mem_cons.1 h with rfl | h
    · exact List.nil_subset _
    · exact fun c hc => List.mem_cons_of_mem _ (List.mem_cons_of_mem _ (ih h hc))
  | case3 c r _ hbreak ih =>
    rcases List.mem_cons.1 h with rfl | h
    · exact List.nil_subset _
    · exact fun d hd => List.mem_cons_of_mem _ (ih h hd)
  | case4 c r hpair hc hlines ih => simp at hlines
  | case5 c r hpair hc m ms hlines ih =>
    rcases List.mem_cons.1 h with rfl | h
    · exact List.cons_subset_cons c (ih (by simp [hlines]))
    · exact fun d hd => List.mem_cons_of_mem _ (ih (by simp [hlines, h]) hd)

/-- A line feed after a text ends the last line of it, or it makes a pair with a carriage return
there, which had ended that line before. -/
theorem exists_lines_append_newline (u v : List Char) :
    ∃ ls, ls ≠ [] ∧ lines (u ++ '\n' :: v) = ls ++ lines v ∧
      (lines u = ls ∨ lines u = ls ++ [[]]) := by
  fun_induction lines u with
  | case1 => exact ⟨[[]], by simp, lines_append_newline isLine_nil v, .inl rfl⟩
  | case2 r ih =>
    obtain ⟨ls, -, heq, hls⟩ := ih
    refine ⟨[] :: ls, by simp, by simp [lines, heq], ?_⟩
    exact hls.imp (congrArg ([] :: ·)) (congrArg ([] :: ·))
  | case3 c r hpair hbreak ih =>
    by_cases hfused : c = '\r' ∧ r = []
    · obtain ⟨rfl, rfl⟩ := hfused
      exact ⟨[[]], by simp, by simp [lines], .inr rfl⟩
    · obtain ⟨ls, -, heq, hls⟩ := ih
      -- The text after the terminator starts with a line feed only if the line feed is its own.
      have hcons : lines (c :: (r ++ '\n' :: v)) = [] :: lines (r ++ '\n' :: v) := by
        rw [lines]
        · simp [hbreak]
        · rintro s rfl hs
          cases r with
          | nil => exact hfused ⟨rfl, rfl⟩
          | cons d r =>
            obtain ⟨rfl, -⟩ := List.cons.inj hs
            exact hpair r rfl rfl
      refine ⟨[] :: ls, by simp, by simp [hcons, heq], ?_⟩
      exact hls.imp (congrArg ([] :: ·)) (congrArg ([] :: ·))
  | case4 c r hpair hc hlines ih => simp at hlines
  | case5 c r hpair hc m ms hlines ih =>
    rw [not_or] at hc
    obtain ⟨ls, hne, heq, hls⟩ := ih
    obtain ⟨l, ls, rfl⟩ := List.exists_cons_of_ne_nil hne
    refine ⟨(c :: l) :: ls, by simp, lines_cons hc.1 hc.2 heq, ?_⟩
    rw [hlines, List.cons_append, List.cons.injEq, List.cons.injEq] at hls
    rcases hls with ⟨rfl, rfl⟩ | ⟨rfl, rfl⟩
    · exact .inl rfl
    · exact .inr rfl

theorem mem_tidyLines {l : List Char} (h : l ∈ tidyLines r) : IsLine l ∧ trimEnd l = l := by
  obtain ⟨raw, hraw, rfl⟩ := List.mem_map.1 h
  exact ⟨fun c hc => isLine_of_mem_lines hraw c (mem_of_mem_trimEnd hc), trimEnd_trimEnd raw⟩

section Joined
variable {l : List Char} {ls : List (List Char)}

theorem areBlank_newline : AreBlank ['\n'] :=
  List.forall_mem_singleton.2 (by decide)

theorem AreBlank.trim_intercalate_cons (h : AreBlank l) (ls : List (List Char)) :
    trim (List.intercalate ['\n'] (l :: ls)) = trim (List.intercalate ['\n'] ls) := by
  cases ls with
  | nil =>
    rw [List.intercalate_singleton, areBlank_iff.1 h]
    rfl
  | cons m r =>
    rw [List.intercalate_cons_of_ne_nil (List.cons_ne_nil m r), List.append_assoc, h.append_trim,
      areBlank_newline.append_trim]

theorem intercalate_concat (hne : ls ≠ []) (s l : List Char) :
    List.intercalate s (ls ++ [l]) = List.intercalate s ls ++ (s ++ l) := by
  induction ls with
  | nil => exact absurd rfl hne
  | cons m r ih =>
    cases r with
    | nil => simp
    | cons k r =>
      rw [List.cons_append, List.cons_append, List.intercalate_cons_cons, ← List.cons_append,
        ih (List.cons_ne_nil k r), List.intercalate_cons_cons]
      simp only [List.append_assoc]

theorem mem_of_mem_intercalate {c : Char} {s : List Char} (h : c ∈ List.intercalate s ls) :
    c ∈ s ∨ ∃ l ∈ ls, c ∈ l := by
  induction ls with
  | nil => simp at h
  | cons l r ih =>
    cases r with
    | nil => exact .inr ⟨l, by simp, by simpa using h⟩
    | cons m r =>
      rw [List.intercalate_cons_cons, List.append_assoc, List.mem_append, List.mem_append] at h
      rcases h with h | h | h
      · exact .inr ⟨l, by simp, h⟩
      · exact .inl h
      · exact (ih h).imp_right fun ⟨k, hk, hc⟩ => ⟨k, List.mem_cons_of_mem _ hk, hc⟩

theorem AreBlank.trim_intercalate_concat (h : AreBlank l) (ls : List (List Char)) :
    trim (List.intercalate ['\n'] (ls ++ [l])) = trim (List.intercalate ['\n'] ls) := by
  by_cases hne : ls = []
  · rw [hne, List.nil_append, List.intercalate_singleton, areBlank_iff.1 h]
    rfl
  · have hend : AreBlank (['\n'] ++ l) := List.forall_mem_append.2 ⟨areBlank_newline, h⟩
    rw [intercalate_concat hne, hend.trim_append]

theorem exists_intercalate_cons (s : List Char) (rest : List (List Char)) :
    ∃ after, ∀ first, List.intercalate s (first :: rest) = first ++ after := by
  cases rest with
  | nil => exact ⟨[], fun first => by simp⟩
  | cons l r =>
    refine ⟨s ++ List.intercalate s (l :: r), fun first => ?_⟩
    rw [List.intercalate_cons_of_ne_nil (List.cons_ne_nil l r), List.append_assoc]

theorem getLast?_intercalate (hne : ls ≠ []) (hlast : ∀ l, ls.getLast? = some l → l ≠ []) :
    ∃ l, ls.getLast? = some l ∧ (List.intercalate ['\n'] ls).getLast? = l.getLast? := by
  obtain ⟨r, l, rfl⟩ := (List.eq_nil_or_concat ls).resolve_left hne
  have hl := hlast l (by simp)
  refine ⟨l, by simp, ?_⟩
  by_cases hr : r = []
  · simp [hr]
  · rw [List.concat_eq_append, intercalate_concat hr, List.getLast?_append, List.getLast?_append,
      Option.or_assoc, List.getLast?_eq_some_getLast hl, Option.some_or]

end Joined

section Mark
variable {c : Char} {cs u : List Char}

theorem dropMark_of_head (h : cs.head? ≠ some byteOrderMark) : dropMark cs = cs := by
  cases cs with
  | nil => rfl
  | cons c r =>
    have hc : c ≠ byteOrderMark := by simpa using h
    simp [dropMark, hc]

theorem dropMark_append (h : u ≠ []) (v : List Char) : dropMark (u ++ v) = dropMark u ++ v := by
  cases u with
  | nil => exact absurd rfl h
  | cons c r =>
    simp only [dropMark, List.cons_append]
    split <;> rfl

theorem mem_of_mem_dropMark (h : c ∈ dropMark cs) : c ∈ cs := by
  unfold dropMark at h
  split at h
  · split at h
    · exact List.mem_cons_of_mem _ h
    · exact h
  · exact h

end Mark

end FlowCanvas.Text
