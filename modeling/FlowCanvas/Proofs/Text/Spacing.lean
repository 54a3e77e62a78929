import Mathlib.Data.List.DropRight
import FlowCanvas.Proofs.Text.Words

namespace FlowCanvas.Text

/-- A text with no blank at either end, with no blank but spaces, and with no two of them in a
row. -/
structure IsSpaced (cs : List Char) : Prop where
  start : ∀ c, cs.head? = some c → isBlank c = false
  finish : ∀ c, cs.getLast? = some c → isBlank c = false
  spaces : ∀ c ∈ cs, isBlank c = true → c = ' '
  apart : ¬ [' ', ' '] <:+: cs

variable {a b c : Char} {cs u v w : List Char}

/-- Two neighbours in a joined text are neighbours in one of its parts, or they meet where the parts
do. -/
theorem pair_infix_append_iff :
    [a, b] <:+: u ++ v ↔
      [a, b] <:+: u ∨ [a, b] <:+: v ∨ (u.getLast? = some a ∧ v.head? = some b) := by
  induction u with
  | nil => simp
  | cons c u ih =>
    rw [List.cons_append, List.infix_cons_iff, ih, List.infix_cons_iff]
    cases u with
    | nil =>
      -- The pair starts where the first text, a single character, ends.
      have hstart : [a, b] <+: c :: ([] ++ v) ↔ a = c ∧ v.head? = some b := by
        rw [List.cons_prefix_cons, List.nil_append]
        cases v <;> simp [eq_comm]
      have hnot : ¬ [a, b] <:+: [c] := fun h => by simpa using h.length_le
      have hlast : [c].getLast? = some a ↔ a = c := by
        rw [List.getLast?_singleton, Option.some.injEq]
        exact eq_comm
      have hnil : ¬ [a, b] <:+: [] := fun h => by simpa using h.length_le
      rw [hstart, ← List.infix_cons_iff, hlast, or_iff_right hnot, or_iff_right hnil]
      simp only [List.getLast?_nil, reduceCtorEq, false_and, or_false]
      exact or_comm
    | cons d u =>
      rw [List.cons_append, List.cons_prefix_cons, List.cons_prefix_cons, List.cons_prefix_cons,
        List.cons_prefix_cons, List.getLast?_cons_cons]
      simp [or_assoc]

theorem IsSpaced.nil : IsSpaced [] := by
  constructor <;> simp

theorem IsSpaced.of_word (h : ∀ c ∈ w, isBlank c = false) : IsSpaced w := by
  constructor
  · exact fun c hc => h c (List.mem_of_mem_head? hc)
  · exact fun c hc => h c (List.mem_of_getLast? hc)
  · intro c hc hblank
    simp [h c hc] at hblank
  · intro hpair
    have hspace := h ' ' (hpair.subset List.mem_cons_self)
    exact absurd isBlank_space (by simp [hspace])

/-- Two spaced texts may be joined by a space. -/
theorem IsSpaced.append (hu : IsSpaced u) (hv : IsSpaced v) (hu' : u ≠ []) (hv' : v ≠ []) :
    IsSpaced (u ++ ' ' :: v) := by
  have hstart : (u ++ ' ' :: v).head? = u.head? := by
    cases u with
    | nil => exact absurd rfl hu'
    | cons c r => rfl
  have hfinish : (u ++ ' ' :: v).getLast? = v.getLast? := by
    cases v with
    | nil => exact absurd rfl hv'
    | cons c r => simp [List.getLast?_cons]
  constructor
  · rw [hstart]
    exact hu.start
  · rw [hfinish]
    exact hv.finish
  · intro c hc hblank
    rcases List.mem_append.1 hc with hc | hc
    · exact hu.spaces c hc hblank
    · rcases List.mem_cons.1 hc with rfl | hc
      · rfl
      · exact hv.spaces c hc hblank
  · -- A second space could only stand in one of the texts or at an end of one of them.
    intro hpair
    rcases pair_infix_append_iff.1 hpair with hpair | hpair | ⟨hlast, -⟩
    · exact hu.apart hpair
    · rcases List.infix_cons_iff.1 hpair with hpair | hpair
      · have hhead : v.head? = some ' ' := by
          obtain ⟨r, hr⟩ := (List.cons_prefix_cons.1 hpair).2
          simp [← hr]
        simpa [isBlank_space] using hv.start ' ' hhead
      · exact hv.apart hpair
    · simpa [isBlank_space] using hu.finish ' ' hlast

section Words
variable {ws : List (List Char)}

theorem isSpaced_intercalate (h : ∀ w ∈ ws, w ≠ [] ∧ ∀ c ∈ w, isBlank c = false) :
    IsSpaced (List.intercalate [' '] ws) := by
  induction ws with
  | nil => exact IsSpaced.nil
  | cons w ws ih =>
    obtain ⟨hne, hw⟩ := h w List.mem_cons_self
    have hrest : ∀ v ∈ ws, v ≠ [] ∧ ∀ c ∈ v, isBlank c = false :=
      fun v hv => h v (List.mem_cons_of_mem _ hv)
    cases ws with
    | nil => simpa using IsSpaced.of_word hw
    | cons v r =>
      rw [List.intercalate_cons_of_ne_nil (List.cons_ne_nil v r), List.append_assoc,
        List.singleton_append]
      refine (IsSpaced.of_word hw).append (ih hrest) hne ?_
      have hv := (hrest v List.mem_cons_self).1
      cases r with
      | nil => simpa using hv
      | cons x r =>
        rw [List.intercalate_cons_of_ne_nil (List.cons_ne_nil x r)]
        simp [hv]

theorem isSpaced_squeeze (cs : List Char) : IsSpaced (squeeze cs) :=
  isSpaced_intercalate fun _ hw => mem_words hw

/-- Neighbours that are not blank come from one word. -/
theorem exists_word_of_pair_infix (ha : isBlank a = false) (hb : isBlank b = false)
    (h : [a, b] <:+: List.intercalate [' '] ws) : ∃ w ∈ ws, [a, b] <:+: w := by
  have hspace {c : Char} (hc : isBlank c = false) : c ≠ ' ' := by
    rintro rfl
    simp [isBlank_space] at hc
  induction ws with
  | nil => simp at h
  | cons w ws ih =>
    cases ws with
    | nil => exact ⟨w, List.mem_cons_self, by simpa using h⟩
    | cons v r =>
      rw [List.intercalate_cons_of_ne_nil (List.cons_ne_nil v r), List.append_assoc,
        List.singleton_append] at h
      -- The pair does not reach over the space between two words, as neither of the two is one.
      rcases pair_infix_append_iff.1 h with h | h | ⟨-, hhead⟩
      · exact ⟨w, List.mem_cons_self, h⟩
      · rcases List.infix_cons_iff.1 h with h | h
        · exact absurd (List.cons_prefix_cons.1 h).1 (hspace ha)
        · obtain ⟨x, hx, hpair⟩ := ih h
          exact ⟨x, List.mem_cons_of_mem _ hx, hpair⟩
      · exact absurd (Option.some.inj hhead).symm (hspace hb)

theorem prefix_and_infix_of_pieces {p : Char → Bool} (h : pieces p cs = w :: ws) :
    w <+: cs ∧ ∀ v ∈ ws, v <:+: cs := by
  induction cs generalizing w ws with
  | nil =>
    obtain ⟨rfl, rfl⟩ := List.cons.inj (show [[]] = w :: ws from h)
    simp
  | cons c r ih =>
    obtain ⟨x, xs, hr, hcons⟩ := pieces_cons p c r
    obtain ⟨hx, hxs⟩ := ih hr
    rw [hcons] at h
    split at h
    · obtain ⟨rfl, rfl⟩ := List.cons.inj h
      refine ⟨List.nil_prefix, fun v hv => ?_⟩
      rcases List.mem_cons.1 hv with rfl | hv
      · exact hx.isInfix.trans (List.infix_cons (List.infix_refl r))
      · exact (hxs v hv).trans (List.infix_cons (List.infix_refl r))
    · obtain ⟨rfl, rfl⟩ := List.cons.inj h
      exact ⟨List.cons_prefix_cons.2 ⟨rfl, hx⟩,
        fun v hv => (hxs v hv).trans (List.infix_cons (List.infix_refl r))⟩

theorem infix_of_mem_words (h : w ∈ words cs) : w <:+: cs := by
  obtain ⟨hmem, -⟩ := List.mem_filter.1 h
  obtain ⟨x, xs, hpieces⟩ := List.exists_cons_of_ne_nil (pieces_ne_nil isBlank cs)
  obtain ⟨hx, hxs⟩ := prefix_and_infix_of_pieces hpieces
  rw [hpieces] at hmem
  rcases List.mem_cons.1 hmem with rfl | hmem
  · exact hx.isInfix
  · exact hxs w hmem

theorem pair_infix_of_squeeze (ha : isBlank a = false) (hb : isBlank b = false)
    (h : [a, b] <:+: squeeze cs) : [a, b] <:+: cs := by
  obtain ⟨w, hw, hpair⟩ := exists_word_of_pair_infix ha hb h
  exact hpair.trans (infix_of_mem_words hw)

end Words

section Trim

theorem trimStart_of_head (h : ∀ c, cs.head? = some c → isBlank c = false) :
    trimStart cs = cs := by
  cases cs with
  | nil => rfl
  | cons c r => simp [trimStart, h c rfl]

theorem trimEnd_of_last (h : ∀ c, cs.getLast? = some c → isBlank c = false) :
    trimEnd cs = cs := by
  have hreverse : trimStart cs.reverse = cs.reverse := by
    apply trimStart_of_head
    simpa using h
  rw [trimEnd, ← trimStart, hreverse, List.reverse_reverse]

theorem IsSpaced.trim_eq (h : IsSpaced cs) : trim cs = cs := by
  rw [trim, trimStart_of_head h.start, trimEnd_of_last h.finish]

theorem trimEnd_isPrefix (cs : List Char) : trimEnd cs <+: cs := by
  rw [← List.reverse_suffix, trimEnd, List.reverse_reverse]
  exact List.dropWhile_suffix _

theorem trim_isInfix (cs : List Char) : trim cs <:+: cs :=
  (trimEnd_isPrefix _).isInfix.trans (List.dropWhile_suffix _).isInfix

theorem trimEnd_cons_of_not_blank (h : isBlank c = false) (r : List Char) :
    trimEnd (c :: r) = c :: trimEnd r := by
  rw [trimEnd, List.reverse_cons, trimEnd]
  by_cases hr : (r.reverse.dropWhile isBlank) = []
  · rw [List.dropWhile_append, hr]
    simp [h]
  · rw [List.dropWhile_append]
    simp [hr]

theorem trim_cons_of_not_blank (h : isBlank c = false) (r : List Char) :
    trim (c :: r) = c :: trimEnd r := by
  rw [trim, trimStart_of_head (by simp [h]), trimEnd_cons_of_not_blank h]

theorem trimEnd_trimEnd (cs : List Char) : trimEnd (trimEnd cs) = trimEnd cs := by
  rw [trimEnd, trimEnd, List.reverse_reverse, List.dropWhile_idempotent]

theorem trimEnd_cons_of_ne_nil (h : trimEnd cs ≠ []) (c : Char) :
    trimEnd (c :: cs) = c :: trimEnd cs := by
  have hne : cs.reverse.dropWhile isBlank ≠ [] := by simpa [trimEnd] using h
  rw [trimEnd, List.reverse_cons, List.dropWhile_append]
  simp [hne, trimEnd]

theorem trimEnd_cons_of_blank (hc : isBlank c = true) (h : trimEnd cs = []) :
    trimEnd (c :: cs) = [] := by
  have hnil : cs.reverse.dropWhile isBlank = [] := by simpa [trimEnd] using h
  rw [trimEnd, List.reverse_cons, List.dropWhile_append]
  simp [hnil, hc]

/-- Trimming the end beforehand changes nothing. -/
theorem trim_trimEnd (cs : List Char) : trim (trimEnd cs) = trim cs := by
  induction cs with
  | nil => rfl
  | cons c r ih =>
    cases hc : isBlank c with
    | false =>
      rw [trimEnd_cons_of_not_blank hc, trim_cons_of_not_blank hc, trim_cons_of_not_blank hc,
        trimEnd_trimEnd]
    | true =>
      have hcons (s : List Char) : trim (c :: s) = trim s := by
        have hstart : trimStart (c :: s) = trimStart s := by simp [trimStart, hc]
        rw [trim, hstart, trim]
      rw [hcons, ← ih]
      by_cases hr : trimEnd r = []
      · rw [trimEnd_cons_of_blank hc hr, hr]
      · rw [trimEnd_cons_of_ne_nil hr, hcons]

def AreBlank (w : List Char) : Prop :=
  ∀ c ∈ w, isBlank c = true

theorem AreBlank.trimStart_append (h : AreBlank u) (v : List Char) :
    trimStart (u ++ v) = trimStart v := by
  rw [trimStart, List.dropWhile_append_of_pos h, trimStart]

theorem AreBlank.trimEnd_append (h : AreBlank v) (u : List Char) :
    trimEnd (u ++ v) = trimEnd u := by
  have hreverse : ∀ c ∈ v.reverse, isBlank c = true := fun c hc => h c (List.mem_reverse.1 hc)
  rw [trimEnd, List.reverse_append, List.dropWhile_append_of_pos hreverse, trimEnd]

theorem exists_trimStart_eq (cs : List Char) : ∃ lead, AreBlank lead ∧ cs = lead ++ trimStart cs :=
  ⟨cs.takeWhile isBlank, fun _ hc => List.mem_takeWhile_imp hc,
    (List.takeWhile_append_dropWhile).symm⟩

theorem exists_trimEnd_eq (cs : List Char) :
    ∃ trail, AreBlank trail ∧ cs = trimEnd cs ++ trail := by
  obtain ⟨lead, hlead, heq⟩ := exists_trimStart_eq cs.reverse
  refine ⟨lead.reverse, fun c hc => hlead c (List.mem_reverse.1 hc), ?_⟩
  have hreverse := congrArg List.reverse heq
  rwa [List.reverse_reverse, List.reverse_append] at hreverse

theorem exists_trim_eq (cs : List Char) :
    ∃ lead trail, AreBlank lead ∧ AreBlank trail ∧ cs = lead ++ (trim cs ++ trail) := by
  obtain ⟨lead, hlead, heq⟩ := exists_trimStart_eq cs
  obtain ⟨trail, htrail, heq'⟩ := exists_trimEnd_eq (trimStart cs)
  exact ⟨lead, trail, hlead, htrail, by rw [trim, ← heq', ← heq]⟩

theorem AreBlank.trim_append (h : AreBlank v) (u : List Char) : trim (u ++ v) = trim u := by
  rw [← trim_trimEnd, h.trimEnd_append, trim_trimEnd]

theorem AreBlank.append_trim (h : AreBlank u) (v : List Char) : trim (u ++ v) = trim v := by
  rw [trim, h.trimStart_append, trim]

theorem areBlank_iff : AreBlank cs ↔ trim cs = [] := by
  constructor
  · intro h
    have hnil := h.append_trim []
    rwa [List.append_nil] at hnil
  · intro h
    obtain ⟨lead, trail, hlead, htrail, heq⟩ := exists_trim_eq cs
    rw [h, List.nil_append] at heq
    rw [heq]
    exact List.forall_mem_append.2 ⟨hlead, htrail⟩

theorem trimStart_append_of_ne_nil (h : trimStart u ≠ []) (v : List Char) :
    trimStart (u ++ v) = trimStart u ++ v := by
  have hne : ¬ (u.dropWhile isBlank).isEmpty = true := by rwa [List.isEmpty_iff]
  rw [trimStart, List.dropWhile_append, if_neg hne, trimStart]

theorem trimStart_append_cons (h : isBlank c = false) (u v : List Char) :
    trimStart (u ++ c :: v) = trimStart u ++ c :: v := by
  rw [trimStart, List.dropWhile_append, trimStart]
  split
  · next hu =>
    rw [List.isEmpty_iff.1 hu, List.nil_append]
    exact trimStart_of_head (by simp [h])
  · rfl

theorem trimEnd_append_cons (h : isBlank c = false) (u v : List Char) :
    trimEnd (u ++ c :: v) = u ++ c :: trimEnd v := by
  induction u with
  | nil => exact trimEnd_cons_of_not_blank h v
  | cons d u ih =>
    have hne : trimEnd (u ++ c :: v) ≠ [] := by simp [ih]
    rw [List.cons_append, trimEnd_cons_of_ne_nil hne, ih, List.cons_append]

theorem trim_append_cons (h : isBlank c = false) (u v : List Char) :
    trim (u ++ c :: v) = trimStart u ++ c :: trimEnd v := by
  rw [trim, trimStart_append_cons h, trimEnd_append_cons h]

@[simp] theorem trim_trim (cs : List Char) : trim (trim cs) = trim cs := by
  obtain ⟨lead, trail, hlead, htrail, heq⟩ := exists_trim_eq cs
  have h := congrArg trim heq
  rw [hlead.append_trim, htrail.trim_append] at h
  exact h.symm

theorem mem_trim_iff {c : Char} (hblank : isBlank c = false) : c ∈ trim cs ↔ c ∈ cs := by
  refine ⟨mem_of_mem_trim, fun hc => ?_⟩
  obtain ⟨lead, trail, hlead, htrail, heq⟩ := exists_trim_eq cs
  rw [heq] at hc
  simp only [List.mem_append] at hc
  rcases hc with hc | hc | hc
  · rw [hlead c hc] at hblank
    cases hblank
  · exact hc
  · rw [htrail c hc] at hblank
    cases hblank

theorem trim_takeWhile_trim {p : Char → Bool} (hp : ∀ c, isBlank c = true → p c = true)
    (cs : List Char) : trim ((trim cs).takeWhile p) = trim (cs.takeWhile p) := by
  obtain ⟨lead, trail, hlead, htrail, heq⟩ := exists_trim_eq cs
  have hleadp : ∀ c ∈ lead, p c = true := fun c hc => hp c (hlead c hc)
  have htrailp : ∀ c ∈ trail, p c = true := fun c hc => hp c (htrail c hc)
  have hcs : cs.takeWhile p = lead ++ (trim cs ++ trail).takeWhile p := by
    conv_lhs => rw [heq]
    exact List.takeWhile_append_of_pos hleadp
  rw [hcs, hlead.append_trim, List.takeWhile_append]
  split
  · next hall =>
    rw [List.takeWhile_eq_self_iff.2 htrailp, htrail.trim_append,
      (List.takeWhile_prefix p).eq_of_length hall]
  · rfl

theorem eq_false_of_head?_dropWhile {p : Char → Bool} (h : (cs.dropWhile p).head? = some c) :
    p c = false := by
  have hnot := List.head?_dropWhile_not p cs
  rwa [h] at hnot

theorem head?_of_trimEnd (h : (trimEnd cs).head? = some c) : cs.head? = some c := by
  obtain ⟨trail, heq⟩ := trimEnd_isPrefix cs
  rw [← heq, List.head?_append, h, Option.some_or]

theorem isBlank_of_head?_trim (h : (trim cs).head? = some c) : isBlank c = false :=
  eq_false_of_head?_dropWhile (head?_of_trimEnd h)

theorem isBlank_of_getLast?_trimEnd (h : (trimEnd cs).getLast? = some c) : isBlank c = false := by
  rw [trimEnd, List.getLast?_reverse] at h
  exact eq_false_of_head?_dropWhile h

theorem isBlank_of_getLast?_trim (h : (trim cs).getLast? = some c) : isBlank c = false :=
  isBlank_of_getLast?_trimEnd h

theorem trim_of_trimEnd_eq (h : trimEnd cs = cs) : trim cs = trimStart cs := by
  refine trimEnd_of_last fun c hc => ?_
  obtain ⟨lead, -, heq⟩ := exists_trimStart_eq cs
  have hlast := congrArg List.getLast? heq
  rw [List.getLast?_append, hc, Option.some_or, ← h] at hlast
  exact isBlank_of_getLast?_trimEnd hlast

theorem AreBlank.pair_infix_append_iff (h : AreBlank v) (ha : isBlank a = false)
    (hb : isBlank b = false) : [a, b] <:+: u ++ v ↔ [a, b] <:+: u := by
  have hmem : a ∉ v := fun hmem => by simp [h a hmem] at ha
  have hhead : v.head? ≠ some b := fun hhead => by simp [h b (List.mem_of_mem_head? hhead)] at hb
  have hnot : ¬ [a, b] <:+: v := fun hpair => hmem (hpair.subset List.mem_cons_self)
  rw [Text.pair_infix_append_iff]
  simp [hhead, hnot]

theorem AreBlank.append_pair_infix_iff (h : AreBlank u) (ha : isBlank a = false) :
    [a, b] <:+: u ++ v ↔ [a, b] <:+: v := by
  have hmem : a ∉ u := fun hmem => by simp [h a hmem] at ha
  have hlast : u.getLast? ≠ some a := fun hlast => hmem (List.mem_of_getLast? hlast)
  have hnot : ¬ [a, b] <:+: u := fun hpair => hmem (hpair.subset List.mem_cons_self)
  rw [Text.pair_infix_append_iff]
  simp [hlast, hnot]

theorem pair_infix_trimEnd_iff (ha : isBlank a = false) (hb : isBlank b = false) :
    [a, b] <:+: trimEnd cs ↔ [a, b] <:+: cs := by
  obtain ⟨trail, htrail, heq⟩ := exists_trimEnd_eq cs
  conv_rhs => rw [heq]
  exact (htrail.pair_infix_append_iff ha hb).symm

theorem pair_infix_trim_iff (ha : isBlank a = false) (hb : isBlank b = false) :
    [a, b] <:+: trim cs ↔ [a, b] <:+: cs := by
  obtain ⟨lead, trail, hlead, htrail, heq⟩ := exists_trim_eq cs
  conv_rhs => rw [heq]
  rw [hlead.append_pair_infix_iff ha, htrail.pair_infix_append_iff ha hb]

/-- Blanks around a text do not count for its pieces, blanks around those aside. -/
theorem map_trim_pieces_trim {p : Char → Bool} (hp : ∀ c, isBlank c = true → p c = false)
    (cs : List Char) : (pieces p (trim cs)).map trim = (pieces p cs).map trim := by
  obtain ⟨lead, trail, hlead, htrail, heq⟩ := exists_trim_eq cs
  have hleadFree : ∀ c ∈ lead, p c = false := fun c hc => hp c (hlead c hc)
  have htrailFree : ∀ c ∈ trail, p c = false := fun c hc => hp c (htrail c hc)
  obtain ⟨ws, w, hws, hafter⟩ := pieces_append_free (trim cs) htrailFree
  obtain ⟨x, xs, hxs, hbefore⟩ := pieces_free_append hleadFree (trim cs ++ trail)
  have hpieces : (pieces p (trim cs ++ trail)).map trim = (pieces p (trim cs)).map trim := by
    simp only [hws, hafter, List.map_append, List.map_singleton, htrail.trim_append]
  conv_rhs => rw [heq, hbefore, List.map_cons, hlead.append_trim, ← List.map_cons, ← hxs]
  exact hpieces.symm

theorem trim_cons_space (cs : List Char) : trim (' ' :: cs) = trim cs := by
  have hstart : trimStart (' ' :: cs) = trimStart cs := by simp [trimStart, isBlank_space]
  rw [trim, hstart, trim]

theorem trimEnd_append_space (cs : List Char) : trimEnd (cs ++ [' ']) = trimEnd cs := by
  simp [trimEnd, isBlank_space]

theorem IsSpaced.trimStart_append (h : IsSpaced u) (hne : u ≠ []) (v : List Char) :
    trimStart (u ++ v) = u ++ v := by
  obtain ⟨c, r, rfl⟩ := List.exists_cons_of_ne_nil hne
  apply trimStart_of_head
  intro d hd
  exact h.start d (by simpa using hd)

theorem IsSpaced.trim_append_space (h : IsSpaced cs) : trim (cs ++ [' ']) = cs := by
  by_cases hne : cs = []
  · subst hne
    decide
  · rw [trim, h.trimStart_append hne, trimEnd_append_space, trimEnd_of_last h.finish]

theorem squeeze_of_word (hne : w ≠ []) (h : ∀ c ∈ w, isBlank c = false) : squeeze w = w := by
  have hwords : words w = [w] := by simp [words, pieces_of_none h, hne]
  rw [squeeze, hwords, List.intercalate_singleton]

theorem head?_squeeze_cons (h : isBlank c = false) (r : List Char) :
    (squeeze (c :: r)).head? = some c := by
  obtain ⟨w, ws, -, hcons⟩ := pieces_cons isBlank c r
  have hwords : words (c :: r) = (c :: w) :: ws.filter (!·.isEmpty) := by
    rw [words, hcons, if_neg (by simp [h])]
    simp
  rw [squeeze, hwords]
  cases hws : ws.filter (!·.isEmpty) with
  | nil => simp
  | cons v vs => simp [List.intercalate_cons_of_ne_nil]

end Trim
end FlowCanvas.Text

namespace FlowCanvas.Label
open Text

theorem unquote_isInfix (mark : Char) (cs : List Char) : unquote mark cs <:+: cs := by
  cases cs with
  | nil => exact List.infix_refl _
  | cons c r =>
    rw [unquote]
    split
    · exact (List.dropLast_prefix r).isInfix.trans (List.infix_cons (List.infix_refl r))
    · exact List.infix_refl _

theorem clean_eq_of_trim_eq {cs ds : List Char} (h : trim cs = trim ds) : clean cs = clean ds := by
  rw [clean, h, clean]

theorem clean_of_word {cs : List Char} (h : ∀ c ∈ cs, isBlank c = false)
    (hdouble : cs.head? ≠ some '"') (hsingle : cs.head? ≠ some '\'') : clean cs = cs := by
  cases cs with
  | nil => rfl
  | cons c r =>
    have hdouble' : unquote '"' (c :: r) = c :: r := by
      have hc : c ≠ '"' := by simpa using hdouble
      simp [unquote, hc]
    have hsingle' : unquote '\'' (c :: r) = c :: r := by
      have hc : c ≠ '\'' := by simpa using hsingle
      simp [unquote, hc]
    rw [clean, (IsSpaced.of_word h).trim_eq, hdouble', hsingle',
      squeeze_of_word (List.cons_ne_nil c r) h]

theorem isSpaced_clean (cs : List Char) : IsSpaced (clean cs) :=
  isSpaced_squeeze _

/-- Cleaning makes no neighbours of characters that were none. -/
theorem pair_infix_of_clean {a b : Char} {cs : List Char} (ha : isBlank a = false)
    (hb : isBlank b = false) (h : [a, b] <:+: clean cs) : [a, b] <:+: cs := by
  have hquoted := (pair_infix_of_squeeze ha hb h).trans (unquote_isInfix _ _)
  exact (hquoted.trans (unquote_isInfix _ _)).trans (trim_isInfix cs)

theorem head?_clean_cons {c : Char} (hblank : isBlank c = false) (hdouble : c ≠ '"')
    (hsingle : c ≠ '\'') (r : List Char) : (clean (c :: r)).head? = some c := by
  have hdouble' : unquote '"' (c :: trimEnd r) = c :: trimEnd r := by simp [unquote, hdouble]
  have hsingle' : unquote '\'' (c :: trimEnd r) = c :: trimEnd r := by simp [unquote, hsingle]
  rw [clean, trim_cons_of_not_blank hblank, hdouble', hsingle', head?_squeeze_cons hblank]

end FlowCanvas.Label
