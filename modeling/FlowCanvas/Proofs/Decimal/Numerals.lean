import Mathlib.Data.List.TakeWhile
import FlowCanvas.Decimal.Numeral
import FlowCanvas.Proofs.Decimal.Range

namespace FlowCanvas

namespace Text

theorem exists_zero_of_isDigit {c : Char} (h : isDigit c = true) :
    ∃ z ∈ digitZeros, z ≤ c.toNat ∧ c.toNat ≤ z + 9 := by
  simpa [isDigit, digitValue?] using h

theorem isBlank_of_isDigit {c : Char} (h : isDigit c = true) : isBlank c = false := by
  obtain ⟨z, hz, hlow, hhigh⟩ := exists_zero_of_isDigit h
  have hapart : ∀ z ∈ digitZeros, ∀ r ∈ blankRanges, z + 9 < r.1 ∨ r.2 < z := by decide
  by_contra hblank
  simp [isBlank, within] at hblank
  obtain ⟨low, high, hr, hlow', hhigh'⟩ := hblank
  have := hapart z hz _ hr
  simp at this
  omega

theorem toLower_of_isDigit {c : Char} (h : isDigit c = true) : c.toLower = c := by
  obtain ⟨z, hz, hlow, hhigh⟩ := exists_zero_of_isDigit h
  have hapart : ∀ z ∈ digitZeros, z + 9 < 65 ∨ 90 < z := by decide
  rw [Char.toLower, dif_neg]
  rintro ⟨hfirst, hlast⟩
  have hfirst' : 65 ≤ c.toNat := hfirst
  have hlast' : c.toNat ≤ 90 := hlast
  have := hapart z hz
  omega

end Text

namespace Decimal
open Text

def AreDigits (cs : List Char) : Prop :=
  ∀ c ∈ cs, isDigit c = true

inductive IsMark : List Char → Prop
  | none : IsMark []
  | minus : IsMark ['-']
  | plus : IsMark ['+']

inductive IsFraction : List Char → Prop
  | none : IsFraction []
  | point {ds : List Char} (hne : ds ≠ []) (h : AreDigits ds) : IsFraction ('.' :: ds)

inductive IsExponent : List Char → Prop
  | none : IsExponent []
  | power {e : Char} {mark ds : List Char} (he : e = 'e' ∨ e = 'E') (hmark : IsMark mark)
      (hne : ds ≠ []) (h : AreDigits ds) : IsExponent (e :: mark ++ ds)

theorem areDigits_takeWhile (cs : List Char) : AreDigits (cs.takeWhile isDigit) :=
  fun _ h => List.mem_takeWhile_imp h

/-- A numeral without its sign: digits before a point, behind it or both, and an exponent. -/
inductive IsMagnitude : List Char → Prop
  | mk {w f x : List Char} (hw : AreDigits w) (hf : IsFraction f) (hx : IsExponent x)
      (hne : w ≠ [] ∨ f ≠ []) : IsMagnitude (w ++ f ++ x)

theorem isMark_signAt (cs : List Char) : IsMark (signAt cs).1 := by
  unfold signAt
  split
  · exact .minus
  · exact .plus
  · exact .none

theorem isFraction_fractionAt (cs : List Char) : IsFraction (fractionAt cs).1 := by
  unfold fractionAt
  split
  · split
    · exact .none
    · next hne => exact .point hne (areDigits_takeWhile _)
  · exact .none

theorem isExponent_exponentAt (cs : List Char) : IsExponent (exponentAt cs) := by
  cases cs with
  | nil => exact .none
  | cons e r =>
    simp only [exponentAt]
    split
    · next h => exact .power h.1 (isMark_signAt r) h.2 (areDigits_takeWhile _)
    · exact .none

theorem exists_sign_of_numeralAt? {cs numeral : List Char} (h : numeralAt? cs = some numeral) :
    ∃ sign magnitude, IsMark sign ∧ IsMagnitude magnitude ∧ numeral = sign ++ magnitude := by
  simp only [numeralAt?] at h
  split at h
  · contradiction
  · next hne =>
    refine ⟨_, _, isMark_signAt cs, ?_, (Option.some.inj h).symm⟩
    exact .mk (areDigits_takeWhile _) (isFraction_fractionAt _) (isExponent_exponentAt _)
      (not_and_or.1 hne)

theorem exists_sign_of_firstNumeral? {cs numeral : List Char}
    (h : firstNumeral? cs = some numeral) :
    ∃ sign magnitude, IsMark sign ∧ IsMagnitude magnitude ∧ numeral = sign ++ magnitude := by
  induction cs with
  | nil => cases h
  | cons c r ih =>
    rw [firstNumeral?] at h
    split at h
    · next hnumeral =>
      cases h
      exact exists_sign_of_numeralAt? hnumeral
    · exact ih h

theorem takeWhile_append_of_areDigits {w r : List Char} (hw : AreDigits w)
    (hr : ∀ c, r.head? = some c → isDigit c = false) : (w ++ r).takeWhile isDigit = w := by
  rw [List.takeWhile_append_of_pos hw]
  cases r with
  | nil => simp
  | cons c r => simp [hr c rfl]

theorem dropWhile_append_of_areDigits {w r : List Char} (hw : AreDigits w)
    (hr : ∀ c, r.head? = some c → isDigit c = false) : (w ++ r).dropWhile isDigit = r := by
  rw [List.dropWhile_append_of_pos hw]
  cases r with
  | nil => simp
  | cons c r => simp [hr c rfl]

theorem IsExponent.isDigit_of_head? {x : List Char} (h : IsExponent x) {c : Char}
    (hc : x.head? = some c) : isDigit c = false := by
  cases h with
  | none => cases hc
  | power he =>
    cases hc
    rcases he with rfl | rfl <;> decide

theorem signAt_append {mark r : List Char} (hmark : IsMark mark)
    (hr : ∀ c, r.head? = some c → c ≠ '-' ∧ c ≠ '+') : signAt (mark ++ r) = (mark, r) := by
  cases hmark with
  | minus => rfl
  | plus => rfl
  | none =>
    cases r with
    | nil => rfl
    | cons c r =>
      obtain ⟨hminus, hplus⟩ := hr c rfl
      unfold signAt
      split
      · next heq => exact absurd (List.cons.inj heq).1 hminus
      · next heq => exact absurd (List.cons.inj heq).1 hplus
      · rfl

theorem AreDigits.head_ne {ds : List Char} (h : AreDigits ds) {c : Char}
    (hc : isDigit c = false) : ∀ d, ds.head? = some d → d ≠ c := by
  rintro d hd rfl
  exact absurd (h d (List.mem_of_head? hd)) (by simp [hc])

theorem IsExponent.exists_exponent {x : List Char} (h : IsExponent x) :
    ∃ n, exponent? x = some n := by
  cases h with
  | none => exact ⟨0, rfl⟩
  | @power e mark ds he hmark hne hds =>
    have hsign : signAt (mark ++ ds) = (mark, ds) :=
      signAt_append hmark fun d hd => ⟨hds.head_ne (by decide) d hd, hds.head_ne (by decide) d hd⟩
    have hrefused : (ds.isEmpty || !ds.all isDigit) = false := by
      have hall : ds.all isDigit = true := List.all_eq_true.2 hds
      simp [hne, hall]
    have hletter : ¬(e ≠ 'e' ∧ e ≠ 'E') := by
      rwa [not_and_or, not_not, not_not]
    simp only [exponent?, List.cons_append, if_neg hletter, hsign, hrefused]
    exact ⟨_, rfl⟩

theorem exists_unsigned {cs : List Char} (h : IsMagnitude cs) : ∃ d, unsigned? cs = some d := by
  obtain ⟨hw, hf, hx, hne⟩ := h
  obtain ⟨n, hn⟩ := hx.exists_exponent
  cases hf with
  | none =>
    rename_i w x
    have hw' : w ≠ [] := by simpa using hne
    -- An exponent starts with a letter, so the digits end before it.
    rw [List.append_nil, unsigned?, takeWhile_append_of_areDigits hw fun _ => hx.isDigit_of_head?,
      dropWhile_append_of_areDigits hw fun _ => hx.isDigit_of_head?]
    cases hx with
    | none => simp [exponent?, hw']
    | power he =>
      rcases he with rfl | rfl
      · simp [hw', List.cons_append ▸ hn]
      · simp [hw', List.cons_append ▸ hn]
  | point hne' hds =>
    rename_i w x ds
    have htail : ∀ c, ('.' :: ds ++ x).head? = some c → isDigit c = false := by
      rintro c hc
      cases hc
      decide
    rw [List.append_assoc, unsigned?, takeWhile_append_of_areDigits hw htail,
      dropWhile_append_of_areDigits hw htail]
    simp only [List.cons_append]
    rw [takeWhile_append_of_areDigits hds fun _ => hx.isDigit_of_head?,
      dropWhile_append_of_areDigits hds fun _ => hx.isDigit_of_head?]
    simp [hne', hn]

theorem AreDigits.not_mem {ds : List Char} (h : AreDigits ds) {c : Char}
    (hc : isDigit c = false) : c ∉ ds := by
  intro hmem
  exact absurd (h c hmem) (by simp [hc])

theorem IsMagnitude.not_mem_underscore {cs : List Char} (h : IsMagnitude cs) : '_' ∉ cs := by
  obtain ⟨hw, hf, hx, -⟩ := h
  have hdigit : isDigit '_' = false := by decide
  simp only [List.mem_append, not_or]
  refine ⟨⟨hw.not_mem hdigit, ?_⟩, ?_⟩
  · cases hf with
    | none => simp
    | point _ hds => simp [hds.not_mem hdigit]
  · cases hx with
    | none => simp
    | power he hmark _ hds =>
      simp only [List.mem_append, List.mem_cons, not_or]
      refine ⟨⟨?_, ?_⟩, hds.not_mem hdigit⟩
      · rcases he with rfl | rfl <;> decide
      · cases hmark <;> decide

theorem dropUnderscores?_of_not_mem {cs : List Char} (h : '_' ∉ cs) (previous : Char) :
    dropUnderscores? previous cs = some cs := by
  induction cs generalizing previous with
  | nil => rfl
  | cons c r ih =>
    obtain ⟨hc, hr⟩ := not_or.1 (mt List.mem_cons.2 h)
    unfold dropUnderscores?
    split
    · contradiction
    · next heq => exact absurd (List.cons.inj heq).1.symm hc
    · next heq => exact absurd (List.cons.inj heq).1.symm hc
    · next heq =>
      obtain ⟨rfl, rfl⟩ := List.cons.inj heq
      simp [ih hr]

theorem IsMagnitude.exists_head {cs : List Char} (h : IsMagnitude cs) :
    ∃ c r, cs = c :: r ∧ (isDigit c = true ∨ c = '.') := by
  obtain ⟨hw, hf, -, hne⟩ := h
  rename_i w f x
  cases w with
  | cons c w => exact ⟨c, _, rfl, .inl (hw c List.mem_cons_self)⟩
  | nil =>
    cases hf with
    | none => simp at hne
    | point => exact ⟨'.', _, rfl, .inr rfl⟩

theorem AreDigits.exists_last {ds : List Char} (h : AreDigits ds) (hne : ds ≠ []) :
    ∃ r c, ds = r ++ [c] ∧ isDigit c = true :=
  ⟨ds.dropLast, ds.getLast hne, (List.dropLast_concat_getLast hne).symm,
    h _ (List.getLast_mem hne)⟩

theorem IsMagnitude.exists_last {cs : List Char} (h : IsMagnitude cs) :
    ∃ r c, cs = r ++ [c] ∧ isDigit c = true := by
  obtain ⟨hw, hf, hx, hne⟩ := h
  cases hx with
  | power _ _ hne' hds =>
    obtain ⟨r, c, rfl, hc⟩ := hds.exists_last hne'
    exact ⟨_, c, by rw [← List.append_assoc, ← List.append_assoc], hc⟩
  | none =>
    cases hf with
    | point hne' hds =>
      obtain ⟨r, c, rfl, hc⟩ := hds.exists_last hne'
      exact ⟨_, c, by rw [List.append_nil, ← List.cons_append, ← List.append_assoc], hc⟩
    | none =>
      obtain ⟨r, c, rfl, hc⟩ := hw.exists_last (by simpa using hne)
      exact ⟨r, c, by simp, hc⟩

theorem trimMargin_eq {c d : Char} {r r' : List Char} (h : c :: r = r' ++ [d])
    (hc : isMargin c = false) (hd : isMargin d = false) : trimMargin (c :: r) = c :: r := by
  rw [trimMargin, List.dropWhile_cons_of_neg (by simp [hc]), h, List.reverse_append,
    List.reverse_singleton, List.singleton_append, List.dropWhile_cons_of_neg (by simp [hd])]
  simp

theorem isMargin_of_isDigit {c : Char} (h : isDigit c = true) : isMargin c = false := by
  simp [isMargin, isBlank_of_isDigit h]

theorem trimMargin_numeral {sign magnitude : List Char} (hsign : IsMark sign)
    (h : IsMagnitude magnitude) : trimMargin (sign ++ magnitude) = sign ++ magnitude := by
  obtain ⟨r, c, hlast, hc⟩ := h.exists_last
  obtain ⟨d, r', hhead, hd⟩ := h.exists_head
  have hd' : isMargin d = false := by
    rcases hd with hd | rfl
    · exact isMargin_of_isDigit hd
    · decide
  have hlast' : sign ++ magnitude = (sign ++ r) ++ [c] := by rw [hlast, List.append_assoc]
  cases hsign with
  | none =>
    rw [List.nil_append, hhead]
    exact trimMargin_eq (hhead.symm.trans hlast) hd' (isMargin_of_isDigit hc)
  | minus => exact trimMargin_eq hlast' (by decide) (isMargin_of_isDigit hc)
  | plus => exact trimMargin_eq hlast' (by decide) (isMargin_of_isDigit hc)

/-- The words for infinity and not-a-number start with a letter. -/
theorem IsMagnitude.ne_word {cs : List Char} (h : IsMagnitude cs) {c : Char} {r : List Char}
    (hc : isDigit c = false) (hc' : c ≠ '.') :
    String.ofList (cs.map Char.toLower) ≠ String.ofList (c :: r) := by
  obtain ⟨d, r', rfl, hd⟩ := h.exists_head
  intro heq
  have hlower : d.toLower = d := by
    rcases hd with hd | rfl
    · exact toLower_of_isDigit hd
    · decide
  rw [String.ofList_inj, List.map_cons, hlower] at heq
  obtain ⟨rfl, -⟩ := List.cons.inj heq
  rcases hd with hd | hd
  · simp [hc] at hd
  · exact hc' hd

theorem IsMagnitude.signAt_append {sign magnitude : List Char} (h : IsMagnitude magnitude)
    (hsign : IsMark sign) : signAt (sign ++ magnitude) = (sign, magnitude) := by
  refine Decimal.signAt_append hsign fun c hc => ?_
  obtain ⟨d, r, rfl, hd⟩ := h.exists_head
  obtain rfl := Option.some.inj hc
  rcases hd with hd | rfl
  · constructor <;> rintro rfl <;> exact absurd hd (by decide)
  · decide

theorem floatOfText?_numeral {sign magnitude : List Char} (hsign : IsMark sign)
    (h : IsMagnitude magnitude) {d : Decimal} (hd : unsigned? magnitude = some d) :
    floatOfText? (sign ++ magnitude) =
      some (if sign = ['-'] then -d.toFloat else d.toFloat) := by
  have hinf : String.ofList (magnitude.map Char.toLower) ≠ "inf" :=
    h.ne_word (r := ['n', 'f']) (by decide) (by decide)
  have hinfinity : String.ofList (magnitude.map Char.toLower) ≠ "infinity" :=
    h.ne_word (c := 'i') (r := ['n', 'f', 'i', 'n', 'i', 't', 'y']) (by decide) (by decide)
  have hnan : String.ofList (magnitude.map Char.toLower) ≠ "nan" :=
    h.ne_word (c := 'n') (r := ['a', 'n']) (by decide) (by decide)
  simp only [floatOfText?, trimMargin_numeral hsign h, h.signAt_append hsign]
  rw [if_neg (by simp [hinf, hinfinity]), if_neg hnan,
    dropUnderscores?_of_not_mem h.not_mem_underscore]
  simp [hd]

def valueOf? (numeral : List Char) : Option ℚ :=
  let (sign, magnitude) := signAt numeral
  (unsigned? magnitude).map fun d => if sign = ['-'] then -d.toRat else d.toRat

theorem toRat_nonneg (d : Decimal) : 0 ≤ d.toRat := by
  rw [toRat]
  positivity

/-- A numeral that is found has a value and a double, and the value alone decides whether the double
is a finite number above zero. -/
theorem isUsable_floatOfText? {text numeral : List Char} (h : firstNumeral? text = some numeral) :
    ∃ q x, valueOf? numeral = some q ∧ floatOfText? numeral = some x ∧
      (IsUsable x ↔ underflow < q ∧ q < overflow) := by
  obtain ⟨sign, magnitude, hsign, hmagnitude, rfl⟩ := exists_sign_of_firstNumeral? h
  obtain ⟨d, hd⟩ := exists_unsigned hmagnitude
  rw [valueOf?, hmagnitude.signAt_append hsign, floatOfText?_numeral hsign hmagnitude hd]
  refine ⟨_, _, congrArg (Option.map _) hd, rfl, ?_⟩
  split
  · have hzero : 0 < underflow := by
      rw [underflow]
      positivity
    refine iff_of_false (not_isUsable_neg_toFloat d) fun hrange => ?_
    linarith [hrange.1, d.toRat_nonneg]
  · exact isUsable_toFloat_iff d

end Decimal
end FlowCanvas
