import Mathlib.Data.List.DropRight
import FlowCanvas.Diagram.Fence
import FlowCanvas.Proofs.Diagram.Lines
import FlowCanvas.Proofs.Text.Lines

namespace FlowCanvas.Diagram
open Text

section Cutting
variable {α β : Type} {p : α → Bool} {xs : List α} {x : α}

/-- What is left of a list without the items at its ends that `p` holds of. -/
def withoutEnds (p : α → Bool) (xs : List α) : List α :=
  (xs.dropWhile p).rdropWhile p

theorem map_withoutEnds (f : α → β) (p : β → Bool) (xs : List α) :
    (withoutEnds (p ∘ f) xs).map f = withoutEnds p (xs.map f) := by
  simp only [withoutEnds, List.rdropWhile, List.dropWhile_map, ← List.map_reverse]

theorem withoutEnds_sublist (p : α → Bool) (xs : List α) : (withoutEnds p xs).Sublist xs :=
  (List.rdropWhile_prefix p _).sublist.trans (List.dropWhile_sublist p)

theorem eq_false_of_head?_withoutEnds (h : (withoutEnds p xs).head? = some x) : p x = false := by
  obtain ⟨trail, htrail⟩ := List.rdropWhile_prefix p (xs.dropWhile p)
  have hnot := List.head?_dropWhile_not p xs
  rw [← htrail, List.head?_append, ← withoutEnds, h] at hnot
  exact hnot

theorem eq_false_of_getLast?_withoutEnds (h : (withoutEnds p xs).getLast? = some x) :
    p x = false := by
  have hne : withoutEnds p xs ≠ [] := by
    intro hnil
    rw [hnil] at h
    cases h
  have hnot : ¬ p ((withoutEnds p xs).getLast hne) = true := List.rdropWhile_last_not p _ hne
  rw [List.getLast?_eq_some_getLast hne, Option.some.injEq] at h
  simpa [h] using hnot

/-- The body among lines of any form, given which of them are fences: `bodyLines` for raw lines. -/
def bodyBy (fence : α → Bool) (xs : List α) : List α :=
  let before := xs.takeWhile (!fence ·)
  match xs.dropWhile (!fence ·) with
  | [] => xs
  | _ :: rest => if rest.any fence then rest.takeWhile (!fence ·) else before ++ rest

theorem bodyLines_eq : bodyLines = bodyBy isFence := by
  funext ls
  unfold bodyLines bodyBy
  cases ls.dropWhile (!isFence ·) <;> rfl

theorem map_bodyBy (f : α → β) (fence : β → Bool) (xs : List α) :
    (bodyBy (fence ∘ f) xs).map f = bodyBy fence (xs.map f) := by
  have hneg : (fun x => !(fence ∘ f) x) = (fun y => !fence y) ∘ f := rfl
  simp only [bodyBy, List.dropWhile_map, List.takeWhile_map, hneg]
  cases xs.dropWhile ((fun y => !fence y) ∘ f) with
  | nil => rfl
  | cons x rest =>
    simp only [List.map_cons, List.any_map]
    split
    · rw [List.takeWhile_map]
    · rw [List.map_append]

theorem bodyBy_sublist (fence : α → Bool) (xs : List α) : (bodyBy fence xs).Sublist xs := by
  have hsplit : xs.takeWhile (!fence ·) ++ xs.dropWhile (!fence ·) = xs :=
    List.takeWhile_append_dropWhile
  unfold bodyBy
  simp only
  split
  · exact List.Sublist.refl xs
  · next x rest hrest =>
    rw [hrest] at hsplit
    conv_rhs => rw [← hsplit]
    split
    · exact (List.takeWhile_sublist _).trans
        ((List.sublist_cons_self x rest).trans (List.sublist_append_right _ _))
    · exact (List.sublist_cons_self x rest).append_left _

theorem bodyBy_of_none {fence : α → Bool} (h : ∀ x ∈ xs, fence x = false) :
    bodyBy fence xs = xs := by
  have hnone : xs.dropWhile (!fence ·) = [] :=
    List.dropWhile_eq_nil_iff.2 fun x hx => by simp [h x hx]
  simp only [bodyBy, hnone]

theorem exists_split_of_sublist {before after : List α} (h : (before ++ x :: after).Sublist xs) :
    ∃ earlier later, xs = earlier ++ x :: later ∧ before.Sublist earlier ∧ after.Sublist later := by
  obtain ⟨r, s, rfl, hbefore, hrest⟩ := List.append_sublist_iff.1 h
  obtain ⟨t, v, rfl, hx, hafter⟩ := List.cons_sublist_iff.1 hrest
  obtain ⟨t, u, rfl⟩ := List.append_of_mem hx
  exact ⟨r ++ t, u ++ v, by simp, hbefore.trans (List.sublist_append_left _ _),
    hafter.trans (List.sublist_append_right _ _)⟩

end Cutting

section Body
variable {cs l first : List Char} {ls rest : List (List Char)}

theorem mem_bodyLines (h : l ∈ bodyLines (tidyLines cs)) : IsLine l ∧ trimEnd l = l := by
  rw [bodyLines_eq] at h
  exact mem_tidyLines ((bodyBy_sublist _ _).mem h)

theorem isFence_trim (l : List Char) : isFence (trim l) = isFence (trimEnd l) := by
  have hstart : trimStart (trimStart (trimEnd l)) = trimStart (trimEnd l) :=
    List.dropWhile_idempotent _ _
  rw [← trim_trimEnd, trim_of_trimEnd_eq (trimEnd_trimEnd l), isFence, isFence, hstart]

theorem map_trim_bodyLines (cs : List Char) :
    (bodyLines (tidyLines cs)).map trim = bodyLines ((tidyLines cs).map trim) := by
  have hfence : isFence ∘ trimEnd = isFence ∘ trim := funext fun l => (isFence_trim l).symm
  have htrim : trim ∘ trimEnd = trim := funext trim_trimEnd
  rw [bodyLines_eq, tidyLines, List.map_map, htrim, ← map_bodyBy, ← map_bodyBy, hfence,
    List.map_map, htrim]

def isBlankLine (l : List Char) : Bool :=
  (trim l).isEmpty

theorem isBlankLine_iff : isBlankLine l = true ↔ AreBlank l := by
  rw [isBlankLine, List.isEmpty_iff, areBlank_iff]

theorem trim_ne_nil_of_withoutEnds (h : withoutEnds isBlankLine ls = first :: rest) :
    trim first ≠ [] := by
  have hhead : (withoutEnds isBlankLine ls).head? = some first := by rw [h, List.head?_cons]
  simpa [isBlankLine] using eq_false_of_head?_withoutEnds hhead

theorem trim_intercalate_withoutEnds (ls : List (List Char)) :
    trim (List.intercalate ['\n'] (withoutEnds isBlankLine ls)) =
      trim (List.intercalate ['\n'] ls) := by
  have hend (ls : List (List Char)) : trim (List.intercalate ['\n'] (ls.rdropWhile isBlankLine)) =
      trim (List.intercalate ['\n'] ls) := by
    induction ls using List.reverseRecOn with
    | nil => rfl
    | append_singleton r l ih =>
      rw [List.rdropWhile_concat]
      split
      · next hl => rw [ih, (isBlankLine_iff.1 hl).trim_intercalate_concat]
      · rfl
  have hstart : trim (List.intercalate ['\n'] (ls.dropWhile isBlankLine)) =
      trim (List.intercalate ['\n'] ls) := by
    induction ls with
    | nil => rfl
    | cons l r ih =>
      rw [List.dropWhile_cons]
      split
      · next hl => rw [ih, (isBlankLine_iff.1 hl).trim_intercalate_cons]
      · rfl
  rw [withoutEnds, hend, hstart]

/-- Trimming joined lines takes the blank lines off both ends and the indentation off the first line
that stays. -/
theorem trim_intercalate (htidy : ∀ l ∈ ls, trimEnd l = l)
    (h : withoutEnds isBlankLine ls = first :: rest) :
    trim (List.intercalate ['\n'] ls) = List.intercalate ['\n'] (trim first :: rest) := by
  have hmem : ∀ l ∈ first :: rest, trimEnd l = l := fun l hl =>
    htidy l ((withoutEnds_sublist isBlankLine ls).mem (h ▸ hl))
  have hfirst := trim_ne_nil_of_withoutEnds h
  have hlast : ∀ l, (first :: rest).getLast? = some l → l ≠ [] := by
    rintro l hl rfl
    rw [← h] at hl
    cases eq_false_of_getLast?_withoutEnds hl
  -- The joined lines end as the last of them does, which is not blank.
  have htrimEnd : trimEnd (List.intercalate ['\n'] (first :: rest)) =
      List.intercalate ['\n'] (first :: rest) := by
    refine trimEnd_of_last fun c hc => ?_
    obtain ⟨l, hl, heq⟩ := getLast?_intercalate (List.cons_ne_nil first rest) hlast
    rw [heq, ← hmem l (List.mem_of_getLast? hl)] at hc
    exact isBlank_of_getLast?_trimEnd hc
  rw [← trim_intercalate_withoutEnds, h, trim_of_trimEnd_eq htrimEnd]
  rw [trim_of_trimEnd_eq (hmem first List.mem_cons_self)] at hfirst ⊢
  obtain ⟨after, hafter⟩ := exists_intercalate_cons ['\n'] rest
  rw [hafter, hafter, trimStart_append_of_ne_nil hfirst]

end Body

section Places
variable {text : String}

/-- The lines of a text that its diagram is read from, with their numbers in the text: those of the
body, without the blank ones at its ends. -/
def diagramLines (text : String) : List Line :=
  withoutEnds (·.text.isEmpty) (bodyBy (isFence ·.text.toList) (linesOf text))

theorem diagramLines_sublist (text : String) : (diagramLines text).Sublist (linesOf text) :=
  (withoutEnds_sublist _ _).trans (bodyBy_sublist _ _)

theorem map_toList_diagramLines (text : String) :
    (diagramLines text).map (·.text.toList) =
      (withoutEnds isBlankLine (bodyLines (tidyLines text.toList))).map trim := by
  have hblank : (fun line : Line => line.text.isEmpty) =
      List.isEmpty ∘ fun line : Line => line.text.toList := by
    funext line
    rw [Function.comp_apply, Bool.eq_iff_iff, String.isEmpty_iff, List.isEmpty_iff,
      String.toList_eq_nil_iff]
  have htrim : isBlankLine = List.isEmpty ∘ trim := rfl
  rw [diagramLines, hblank, map_withoutEnds, htrim, map_withoutEnds, map_trim_bodyLines,
    ← map_toList_numberFrom 1, ← linesOf, bodyLines_eq, ← map_bodyBy]
  rfl

theorem unwrap_eq_empty (h : diagramLines text = []) : unwrap text = "" := by
  have hraws := map_toList_diagramLines text
  rw [h, List.map_nil, eq_comm, List.map_eq_nil_iff] at hraws
  rw [unwrap, ← trim_intercalate_withoutEnds, hraws]
  rfl

theorem toList_unwrap {raw : List Char} {raws : List (List Char)}
    (h : withoutEnds isBlankLine (bodyLines (tidyLines text.toList)) = raw :: raws) :
    (unwrap text).toList = List.intercalate ['\n'] (trim raw :: raws) ∧
      ∀ l ∈ raw :: raws, l ∈ bodyLines (tidyLines text.toList) := by
  refine ⟨?_, fun l hl => (withoutEnds_sublist isBlankLine _).mem (h ▸ hl)⟩
  rw [unwrap, String.toList_ofList]
  exact trim_intercalate (fun l hl => (mem_bodyLines hl).2) h

/-- The unwrapped text says line by line what the lines of the diagram do, but for a byte order mark
at its head. -/
theorem map_toList_linesOf_unwrap {first : Line} {rest : List Line}
    (h : diagramLines text = first :: rest) :
    (linesOf (unwrap text)).map (·.text.toList) =
      trim (dropMark first.text.toList) :: rest.map (·.text.toList) := by
  have hraws := map_toList_diagramLines text
  rw [h, List.map_cons] at hraws
  obtain ⟨raw, raws, hcons, hfirst, hrest⟩ := List.map_eq_cons_iff.1 hraws.symm
  obtain ⟨hbody, hmem⟩ := toList_unwrap hcons
  -- The first line is not empty, so the mark is dropped from it or from nothing.
  have hlines : lines (dropMark (unwrap text).toList) = dropMark (trim raw) :: raws := by
    obtain ⟨after, hafter⟩ := exists_intercalate_cons ['\n'] raws
    rw [hbody, hafter, dropMark_append (trim_ne_nil_of_withoutEnds hcons), ← hafter]
    refine lines_intercalate (List.cons_ne_nil _ _) fun l hl => ?_
    rcases List.mem_cons.1 hl with rfl | hl
    · have hraw := (mem_bodyLines (hmem raw List.mem_cons_self)).1
      exact fun c hc => hraw c (mem_of_mem_trim (mem_of_mem_dropMark hc))
    · exact (mem_bodyLines (hmem l (List.mem_cons_of_mem _ hl))).1
  have htrim : trim ∘ trimEnd = trim := funext trim_trimEnd
  rw [linesOf, map_toList_numberFrom, tidyLines, hlines, List.map_map, htrim, List.map_cons, hrest,
    hfirst]

/-- How many lines with a smaller number the diagram is not read from. -/
def leftOut (text : String) (number : Nat) : Nat :=
  (linesOf text).countP fun line => line.number < number && !(diagramLines text).contains line

theorem leftOut_of_split {earlier later : List Line} {place : Line}
    (h : linesOf text = earlier ++ place :: later) :
    leftOut text place.number =
      earlier.countP fun line => !(diagramLines text).contains line := by
  obtain ⟨hearlier, hlater⟩ := numbers_of_split h
  -- From the line on no number is smaller.
  have hnone : (place :: later).countP (fun line => line.number < place.number &&
      !(diagramLines text).contains line) = 0 := by
    rw [List.countP_eq_zero]
    intro l hl
    have hnot : ¬ l.number < place.number := by
      rcases List.mem_cons.1 hl with rfl | hl
      · exact Nat.lt_irrefl _
      · exact Nat.lt_asymm (hlater l hl)
    simp [hnot]
  rw [leftOut, h, List.countP_append, hnone, Nat.add_zero]
  exact List.countP_congr fun l hl => by simp [hearlier l hl]

/-- A line has its place in the diagram, moved by the lines left out before it. -/
theorem number_eq_add_leftOut {before after : List Line} {place : Line}
    (h : diagramLines text = before ++ place :: after) :
    place.number = before.length + 1 + leftOut text place.number := by
  obtain ⟨earlier, later, hsplit, hbefore, hafter⟩ :=
    exists_split_of_sublist (h ▸ diagramLines_sublist text)
  obtain ⟨hearlier, hlater⟩ := numbers_of_split hsplit
  have hnodup : earlier.Nodup := by
    have hnumbers := numbers_increase text
    rw [hsplit, List.map_append, List.pairwise_append] at hnumbers
    exact List.Nodup.of_map _ (hnumbers.1.imp Nat.ne_of_lt)
  -- Of the lines before it the diagram keeps those that are before it there too.
  have hkept : earlier.countP (diagramLines text).contains = before.length := by
    rw [List.countP_eq_length_filter]
    refine List.Perm.length_eq ((List.perm_ext_iff_of_nodup (hnodup.filter _)
      (hbefore.nodup hnodup)).2 fun l => ?_)
    simp only [h, List.mem_filter, List.contains_iff_mem, List.mem_append, List.mem_cons]
    constructor
    · rintro ⟨hl, hl' | rfl | hl'⟩
      · exact hl'
      · exact absurd (hearlier l hl) (Nat.lt_irrefl _)
      · exact absurd (hearlier l hl) (Nat.lt_asymm (hlater l (hafter.mem hl')))
    · exact fun hl => ⟨hbefore.mem hl, .inl hl⟩
  have hall := List.length_eq_countP_add_countP (diagramLines text).contains (l := earlier)
  simp only [Bool.not_eq_true, Bool.decide_eq_false] at hall
  have hnumber := number_eq_of_split hsplit
  have hleft := leftOut_of_split hsplit
  omega

/-- A line of the unwrapped text and the place that it has in the text itself. It is counted without
the lines left out before it, and a byte order mark at the head of the first line is ignored. -/
structure StandsAt (text : String) (line place : Line) : Prop where
  line_mem : line ∈ linesOf (unwrap text)
  place_mem : place ∈ diagramLines text
  same : line.text = place.text ∨
    line.number = 1 ∧ line.text = String.ofList (trim (dropMark place.text.toList))
  number : place.number = line.number + leftOut text place.number

/-- Every line of the unwrapped text that is not blank has a place. -/
theorem exists_standsAt {line : Line} (hline : line ∈ linesOf (unwrap text))
    (hkind : line.kind ≠ .blank) : ∃ place, StandsAt text line place := by
  obtain ⟨before, after, hsplit⟩ := List.append_of_mem hline
  have hnumber := number_eq_of_split hsplit
  cases hplaces : diagramLines text with
  | nil =>
    rw [unwrap_eq_empty hplaces] at hline
    obtain rfl := List.mem_singleton.1 hline
    exact absurd rfl hkind
  | cons first rest =>
    have htexts := map_toList_linesOf_unwrap hplaces
    rw [hsplit, List.map_append, List.map_cons] at htexts
    -- Only the first line can lose a byte order mark.
    cases before with
    | nil =>
      obtain ⟨htext, -⟩ := List.cons.inj htexts
      refine ⟨first, hline, by simp [hplaces],
        .inr ⟨hnumber, by rw [← htext, String.ofList_toList]⟩, ?_⟩
      have hnil : diagramLines text = [] ++ first :: rest := hplaces
      rw [hnumber]
      exact number_eq_add_leftOut hnil
    | cons b before =>
      obtain ⟨-, hrest⟩ := List.cons.inj htexts
      obtain ⟨kept, more, rfl, hkept, hmore⟩ := List.map_eq_append_iff.1 hrest.symm
      obtain ⟨place, later, rfl, htext, -⟩ := List.map_eq_cons_iff.1 hmore
      have hlength : kept.length = before.length := by simpa using congrArg List.length hkept
      rw [← List.cons_append] at hplaces
      refine ⟨place, hline, by simp [hplaces], .inl (String.toList_inj.1 htext.symm), ?_⟩
      rw [hnumber, List.length_cons, ← hlength]
      exact number_eq_add_leftOut hplaces

/-- A text without a fence that does not start with a blank line. -/
structure IsBare (text : String) : Prop where
  unfenced : ∀ line ∈ linesOf text, isFence line.text.toList = false
  start : ∀ line, (linesOf text).head? = some line → line.text.isEmpty = false

theorem IsBare.diagramLines_isPrefix (h : IsBare text) : diagramLines text <+: linesOf text := by
  have hstart : (linesOf text).dropWhile (·.text.isEmpty) = linesOf text := by
    cases hlines : linesOf text with
    | nil => rfl
    | cons line r => simp [h.start line (by rw [hlines, List.head?_cons])]
  rw [diagramLines, bodyBy_of_none h.unfenced, withoutEnds, hstart]
  exact List.rdropWhile_prefix _ _

theorem IsBare.number_eq (h : IsBare text) {line place : Line} (hplace : StandsAt text line place) :
    place.number = line.number := by
  obtain ⟨before, after, hsplit⟩ := List.append_of_mem hplace.place_mem
  obtain ⟨trail, htrail⟩ := h.diagramLines_isPrefix
  rw [hsplit, List.append_assoc, List.cons_append] at htrail
  have hall := number_eq_of_split htrail.symm
  have hmoved := number_eq_add_leftOut hsplit
  have hnumber := hplace.number
  omega

end Places

end FlowCanvas.Diagram
