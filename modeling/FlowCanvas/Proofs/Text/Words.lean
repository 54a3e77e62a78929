import FlowCanvas.Diagram.Label

namespace FlowCanvas.Text

variable {p : Char → Bool} {cs w : List Char}

theorem pieces_cons (p : Char → Bool) (c : Char) (r : List Char) :
    ∃ w ws, pieces p r = w :: ws ∧
      pieces p (c :: r) = if p c then [] :: w :: ws else (c :: w) :: ws := by
  obtain ⟨w, ws, h⟩ := List.exists_cons_of_ne_nil (pieces_ne_nil p r)
  refine ⟨w, ws, h, ?_⟩
  by_cases hc : p c <;> simp [pieces, h, hc]

theorem eq_false_of_mem_pieces (h : w ∈ pieces p cs) : ∀ c ∈ w, p c = false := by
  induction cs generalizing w with
  | nil =>
    have hw : w = [] := by simpa [pieces] using h
    simp [hw]
  | cons c r ih =>
    obtain ⟨v, vs, hr, hcons⟩ := pieces_cons p c r
    rw [hr] at ih
    rw [hcons] at h
    split at h
    · rcases List.mem_cons.1 h with rfl | h
      · simp
      · exact ih h
    · next hc =>
      rcases List.mem_cons.1 h with rfl | h
      · intro d hd
        rcases List.mem_cons.1 hd with rfl | hd
        · simpa using hc
        · exact ih List.mem_cons_self d hd
      · exact ih (List.mem_cons_of_mem _ h)

theorem pieces_append_mark {s : Char} (hs : p s = true) (u v : List Char) :
    pieces p (u ++ s :: v) = pieces p u ++ pieces p v := by
  induction u with
  | nil => simp [pieces, hs]
  | cons c u ih =>
    obtain ⟨w, ws, hu, hcons⟩ := pieces_cons p c u
    have hrest : pieces p (u ++ s :: v) = w :: (ws ++ pieces p v) := by rw [ih, hu]; rfl
    rw [hcons, List.cons_append, pieces, hrest]
    by_cases hc : p c <;> simp [hc]

theorem pieces_append_cons (hw : ∀ c ∈ w, p c = false) {s : Char} (hs : p s = true)
    (r : List Char) : pieces p (w ++ s :: r) = w :: pieces p r := by
  rw [pieces_append_mark hs, pieces_of_none hw, List.singleton_append]

theorem pieces_append_free (u : List Char) {v : List Char} (hv : ∀ c ∈ v, p c = false) :
    ∃ ws w, pieces p u = ws ++ [w] ∧ pieces p (u ++ v) = ws ++ [w ++ v] := by
  induction u with
  | nil => exact ⟨[], [], rfl, pieces_of_none hv⟩
  | cons c r ih =>
    obtain ⟨ws, w, hr, hrest⟩ := ih
    cases hc : p c with
    | true => exact ⟨[] :: ws, w, by simp [pieces, hc, hr], by simp [pieces, hc, hrest]⟩
    | false =>
      cases ws with
      | nil => exact ⟨[], c :: w, by simp [pieces, hc, hr], by simp [pieces, hc, hrest]⟩
      | cons x xs =>
        exact ⟨(c :: x) :: xs, w, by simp [pieces, hc, hr], by simp [pieces, hc, hrest]⟩

theorem pieces_free_append {u : List Char} (hu : ∀ c ∈ u, p c = false) (v : List Char) :
    ∃ w ws, pieces p v = w :: ws ∧ pieces p (u ++ v) = (u ++ w) :: ws := by
  induction u with
  | nil =>
    obtain ⟨w, ws, h⟩ := List.exists_cons_of_ne_nil (pieces_ne_nil p v)
    exact ⟨w, ws, h, h⟩
  | cons c u ih =>
    obtain ⟨w, ws, h, hrest⟩ := ih fun d hd => hu d (List.mem_cons_of_mem _ hd)
    exact ⟨w, ws, h, by simp [pieces, hu c List.mem_cons_self, hrest]⟩

theorem pieces_intercalate {s : Char} (hs : p s = true) {ws : List (List Char)} (hne : ws ≠ [])
    (hws : ∀ w ∈ ws, ∀ c ∈ w, p c = false) : pieces p (List.intercalate [s] ws) = ws := by
  induction ws with
  | nil => exact absurd rfl hne
  | cons w ws ih =>
    have hw := hws w List.mem_cons_self
    by_cases h : ws = []
    · rw [h, List.intercalate_singleton]
      exact pieces_of_none hw
    · rw [List.intercalate_cons_of_ne_nil h, List.append_assoc, List.singleton_append,
        pieces_append_cons hw hs, ih h fun v hv => hws v (List.mem_cons_of_mem _ hv)]

theorem toNat_lt_of_isAlphanum {c : Char} (h : c.isAlphanum = true) : c.toNat < 128 := by
  rcases Bool.or_eq_true_iff.1 h with hletter | hdigit
  · rcases Bool.or_eq_true_iff.1 hletter with hupper | hlower
    · have : c.toNat ≤ 90 := UInt32.le_iff_toNat_le.1 (of_decide_eq_true hupper).2
      omega
    · have : c.toNat ≤ 122 :=
        UInt32.le_iff_toNat_le.1 (of_decide_eq_true (Bool.and_eq_true_iff.1 hlower).2)
      omega
  · have : c.toNat ≤ 57 := (Char.isDigit_iff_toNat.1 hdigit).2
    omega

/-- What holds of all ASCII characters can be checked one by one. -/
theorem of_ascii {P : Char → Prop} (hall : ∀ n, n < 128 → P (Char.ofNat n)) {c : Char}
    (hc : c.toNat < 128) : P c := by
  have h := hall c.toNat hc
  rwa [Char.ofNat_toNat] at h

theorem isBlank_space : isBlank ' ' = true := by decide

theorem mem_words (h : w ∈ words cs) : w ≠ [] ∧ ∀ c ∈ w, isBlank c = false := by
  obtain ⟨hmem, hne⟩ := List.mem_filter.1 h
  exact ⟨by simpa using hne, eq_false_of_mem_pieces hmem⟩

/-- Squeezing keeps the words of a text. -/
@[simp] theorem words_squeeze (cs : List Char) : words (squeeze cs) = words cs := by
  by_cases h : words cs = []
  · rw [squeeze, h]
    rfl
  · have hpieces : pieces isBlank (squeeze cs) = words cs :=
      pieces_intercalate isBlank_space h fun w hw => (mem_words hw).2
    rw [words, hpieces, List.filter_eq_self]
    intro w hw
    simpa using (mem_words hw).1

@[simp] theorem squeeze_squeeze (cs : List Char) : squeeze (squeeze cs) = squeeze cs := by
  rw [squeeze, words_squeeze, squeeze]

theorem fold_eq_nil_iff : fold cs = [] ↔ cs = [] := by
  have hexpand : ∀ e ∈ Case.foldExpansions, e.2 ≠ [] := by decide
  constructor
  · intro h
    rw [fold, List.flatMap_eq_nil_iff] at h
    apply List.eq_nil_iff_forall_not_mem.2
    intro c hc
    have hchar := h c hc
    split at hchar
    · next folded hfolded =>
      obtain ⟨codes, hcodes, rfl⟩ := Option.map_eq_some_iff.1 hfolded
      obtain ⟨before, after, heq, -⟩ := List.lookup_eq_some_iff.1 hcodes
      have hmem : (c.toNat, codes) ∈ Case.foldExpansions := by simp [heq]
      exact hexpand _ hmem (List.map_eq_nil_iff.1 hchar)
    · unfold lowerChar at hchar
      split at hchar
      · cases hchar
      · split at hchar <;> simp at hchar
  · rintro rfl
    rfl

end FlowCanvas.Text

namespace FlowCanvas.Label
open Text

/-- Labels with a word in them have a key. -/
theorem matchKey_eq_empty_iff {label : String} :
    matchKey label = "" ↔ squeeze label.toList = [] := by
  rw [matchKey, String.ofList_eq_empty_iff, fold_eq_nil_iff]

theorem squeeze_clean (cs : List Char) : squeeze (clean cs) = clean cs :=
  squeeze_squeeze _

end FlowCanvas.Label
