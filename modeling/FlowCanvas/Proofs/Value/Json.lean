import FlowCanvas.Value.Json.Reader

namespace FlowCanvas.Json

variable {α : Type} {cs r rest : List Char} {levels : Nat}

/-- A part is read off the front of a text, and the rest is left. -/
def Takes (read : Except Fault (α × Rest cs)) (a : α) (rest : List Char) : Prop :=
  ∃ h, read = .ok (a, ⟨rest, h⟩)

theorem takes_text {s : String} (h : Takes (text r) s rest) :
    Takes (value levels ('"' :: r)) (.text s) rest := by
  obtain ⟨_, h⟩ := h
  rw [value, h]
  exact ⟨_, rfl⟩

def isPlain (c : Char) : Bool :=
  c ≠ '"' && c ≠ '\\' && 32 ≤ c.toNat

theorem takes_units {plain : List Char} (hplain : plain.all isPlain = true) (start : Nat) :
    Takes (units start (plain ++ '"' :: rest)) (plain.map .inr) rest := by
  induction plain with
  | nil => exact ⟨by simp, by simp [units]⟩
  | cons c plain ih =>
    simp only [List.all_cons, isPlain, Bool.and_eq_true, decide_eq_true_eq] at hplain
    obtain ⟨⟨⟨hquote, hescape⟩, hcode⟩, hplain⟩ := hplain
    obtain ⟨_, ih⟩ := ih hplain
    rw [List.cons_append, units]
    · simp only [Nat.not_lt.2 hcode, if_false, hescape, ih, bind, Except.bind, pure, Except.pure]
      exact ⟨_, rfl⟩
    · exact hquote
    · rintro a b c d r rfl
      exact absurd rfl hescape
    · rintro e r rfl
      exact absurd rfl hescape

theorem pairUp_plain (plain : List Char) : pairUp (plain.map .inr) = plain := by
  induction plain with
  | nil => rfl
  | cons c plain ih => rw [List.map_cons, pairUp, ih]

theorem takes_plain {s : String} (hplain : s.toList.all isPlain = true) :
    Takes (text (s.toList ++ '"' :: rest)) s rest := by
  obtain ⟨hrest, hunits⟩ := takes_units hplain ((s.toList ++ '"' :: rest).length + 1)
  refine ⟨hrest, ?_⟩
  rw [text, hunits]
  simp [Except.map, pairUp_plain]

theorem takes_scalar {c : Char} {v : Value} (hc : c ∉ ['"', '[', '\x7b'])
    (h : Takes (scalar (c :: r)) v rest) : Takes (value levels (c :: r)) v rest := by
  simp only [List.mem_cons, List.not_mem_nil, or_false, not_or] at hc
  obtain ⟨hquote, hbracket, hbrace⟩ := hc
  obtain ⟨hrest, h⟩ := h
  rw [value, h]
  · exact ⟨hrest, rfl⟩
  · simpa using hquote
  · simpa using hbracket
  · simpa using hbrace

theorem word?_eq_none {word : String} {d c : Char} (hword : word.toList.head? = some d)
    (hne : d ≠ c) : word? word (c :: r) = none := by
  obtain ⟨w, hw⟩ := List.head?_eq_some_iff.1 hword
  simp [word?, hw, List.isPrefixOf_iff_prefix, List.cons_prefix_cons, hne]

theorem scalar_of_digit {c : Char} (hc : Text.isAsciiDigit c = true) :
    scalar (c :: r) = (number (c :: r)).map fun (n, rest) => (.number n, rest) := by
  have hword {word : String} {d : Char} (hhead : word.toList.head? = some d)
      (hd : Text.isAsciiDigit d = false) : word? word (c :: r) = none := by
    refine word?_eq_none hhead ?_
    rintro rfl
    cases hc.symm.trans hd
  simp only [scalar]
  rw [hword (d := 'n') rfl rfl, hword (d := 't') rfl rfl, hword (d := 'f') rfl rfl,
    hword (d := 'N') rfl rfl, hword (d := 'I') rfl rfl, hword (d := '-') rfl rfl]
  rfl

theorem takes_number {numeral : List Char} {whole : Bool} (hempty : numeral ≠ [])
    (hnumeral : numeral? (numeral ++ rest) = some (numeral, whole))
    (hcount : numeral.countP Text.isAsciiDigit ≤ Decimal.mostDigits) :
    Takes (number (numeral ++ rest)) (numberOf numeral whole) rest := by
  have hlength : 0 < numeral.length ∧ numeral.length ≤ (numeral ++ rest).length :=
    ⟨List.length_pos_iff.2 hempty, by simp⟩
  unfold number
  rw [hnumeral]
  simp only [Nat.not_lt.2 hcount, and_false, if_false, dif_pos hlength, List.drop_left]
  exact ⟨_, rfl⟩

theorem takes_unsigned {c : Char} {digits : List Char} {whole : Bool}
    (hc : Text.isAsciiDigit c = true)
    (hnumeral : numeral? (c :: digits ++ rest) = some (c :: digits, whole))
    (hcount : (c :: digits).countP Text.isAsciiDigit ≤ Decimal.mostDigits) :
    Takes (value levels (c :: digits ++ rest)) (.number (numberOf (c :: digits) whole)) rest := by
  obtain ⟨hrest, hnumber⟩ := takes_number (List.cons_ne_nil c digits) hnumeral hcount
  apply takes_scalar
  · have hne {d : Char} (hd : Text.isAsciiDigit d = false) : c ≠ d := by
      rintro rfl
      cases hc.symm.trans hd
    simp [hne (d := '"') rfl, hne (d := '[') rfl, hne (d := '\x7b') rfl]
  · refine ⟨hrest, ?_⟩
    rw [scalar_of_digit hc]
    exact congrArg _ hnumber

theorem head?_skip {c : Char} (hc : isSpace c = false) : (skip (c :: r)).head? = some c := by
  simp [skip, hc]

theorem takes_list {items' : List Value} (hfirst : (skip r).head? ≠ some ']')
    (h : Takes (items levels (skip r)) items' rest) :
    Takes (value (levels + 1) ('[' :: r)) (.list items') rest := by
  obtain ⟨_, h⟩ := h
  rw [value, if_neg (Nat.succ_ne_zero levels)]
  split
  · next s hs => exact absurd (congrArg List.head? hs) hfirst
  · simp only [Nat.add_sub_cancel]
    rw [h]
    exact ⟨_, rfl⟩

theorem takes_object {fields' : Fields} (hfirst : (skip r).head? ≠ some '\x7d')
    (h : Takes (fields levels [] (skip r)) fields' rest) :
    Takes (value (levels + 1) ('\x7b' :: r)) (.object fields') rest := by
  obtain ⟨_, h⟩ := h
  rw [value, if_neg (Nat.succ_ne_zero levels)]
  split
  · next s hs => exact absurd (congrArg List.head? hs) hfirst
  · simp only [Nat.add_sub_cancel]
    rw [h]
    exact ⟨_, rfl⟩

theorem takes_last_item {v : Value} (h : Takes (value levels cs) v r)
    (hend : skip r = ']' :: rest) : Takes (items levels cs) [v] rest := by
  obtain ⟨_, h⟩ := h
  rw [items, h]
  simp only [bind, Except.bind]
  split
  · next s hs =>
    obtain ⟨-, rfl⟩ := List.cons.inj (hend.symm.trans hs)
    exact ⟨_, rfl⟩
  · next s hs => cases hend.symm.trans hs
  · next hother _ => exact absurd hend (hother rest)

/-- A field is the last one of its object, or more fields follow. -/
theorem takes_field {name : String} {v : Value} {r1 r2 r3 : List Char} {before all : Fields}
    (hname : Takes (text r) name r1) (hcolon : skip r1 = ':' :: r2)
    (hvalue : Takes (value levels (skip r2)) v r3)
    (hall : skip r3 = '\x7d' :: rest ∧ all = before.put (.text name) v ∨
      ∃ r4, skip r3 = ',' :: r4 ∧
        Takes (fields levels (before.put (.text name) v) (skip r4)) all rest) :
    Takes (fields levels before ('"' :: r)) all rest := by
  obtain ⟨_, hname⟩ := hname
  obtain ⟨_, hvalue⟩ := hvalue
  rw [fields, hname]
  simp only [bind, Except.bind]
  split
  · next s hs =>
    obtain ⟨-, rfl⟩ := List.cons.inj (hcolon.symm.trans hs)
    rw [hvalue]
    -- After the value comes what `hall` says, so the other branches cannot be taken.
    obtain ⟨hend, rfl⟩ | ⟨r4, hcomma, _, hmore⟩ := hall
    · simp only
      split
      · next s hs =>
        obtain ⟨-, rfl⟩ := List.cons.inj (hend.symm.trans hs)
        exact ⟨_, rfl⟩
      · next s hs => cases hend.symm.trans hs
      · next hother _ => exact absurd hend (hother rest)
    · simp only
      split
      · next s hs => cases hcomma.symm.trans hs
      · next s hs =>
        obtain ⟨-, rfl⟩ := List.cons.inj (hcomma.symm.trans hs)
        rw [hmore]
        exact ⟨_, rfl⟩
      · next hother => exact absurd hcomma (hother r4)
  · next hother => exact absurd hcolon (hother r2)

theorem parse_eq_ok {s : String} {v : Value} (hmark : s.toList.head? ≠ some Text.byteOrderMark)
    (h : Takes (value mostLevels (skip s.toList)) v rest) (hend : skip rest = []) :
    parse s = .ok v := by
  obtain ⟨_, h⟩ := h
  have hdocument : document s.toList = .ok v := by
    rw [document, if_neg hmark, h]
    simp only [bind, Except.bind, pure, Except.pure]
    rw [hend]
    rfl
  rw [parse, hdocument]
  rfl

end FlowCanvas.Json
