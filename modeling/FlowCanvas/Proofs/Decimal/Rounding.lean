import Mathlib
import FlowCanvas.Decimal.Basic

namespace FlowCanvas.Decimal
open Float.Model Float.Model.UnpackedFloat

def toRat (d : Decimal) : ℚ :=
  d.coefficient * 10 ^ d.exponent

section Mantissa

variable {em : ExtendedMantissa} {x : ℚ}

/-- A number between two integers, the lower of them the mantissa: the round bit tells whether the
number has come half way, and the sticky bit whether it is neither there nor at the start. -/
structure Holds (em : ExtendedMantissa) (x : ℚ) : Prop where
  le : em.mantissa ≤ x
  lt : x < em.mantissa + 1
  round : em.roundBit = true ↔ em.mantissa + 1 / 2 ≤ x
  sticky : em.stickyBit = true ↔ x ≠ em.mantissa ∧ x ≠ em.mantissa + 1 / 2

theorem Holds.or_bits (h : Holds em x) :
    (em.roundBit || em.stickyBit) = true ↔ x ≠ em.mantissa := by
  rw [Bool.or_eq_true, h.round, h.sticky]
  constructor
  · rintro (hround | hsticky)
    · intro heq
      linarith
    · exact hsticky.1
  · intro hne
    by_cases hhalf : x = em.mantissa + 1 / 2
    · exact .inl hhalf.ge
    · exact .inr ⟨hne, hhalf⟩

theorem Holds.shiftRightOne (h : Holds em x) : Holds em.shiftRightOne (x / 2) := by
  have hm : (em.mantissa : ℚ) = 2 * (em.mantissa / 2 : ℕ) + (em.mantissa % 2 : ℕ) := by
    exact_mod_cast (Nat.div_add_mod em.mantissa 2).symm
  have hle := h.le
  have hlt := h.lt
  have hbits := h.or_bits
  have hodd : ∀ b : ℕ, em.mantissa % 2 = b → (b = 0 ∨ b = 1) := by omega
  -- The bit that is shifted out says in which half of the new interval the number lies.
  rcases hodd _ rfl with hodd | hodd <;> rw [hodd] at hm <;> push_cast at hm
  · refine ⟨?_, ?_, ?_, ?_⟩ <;> simp only [ExtendedMantissa.shiftRightOne, hodd]
    · linarith
    · linarith
    · constructor
      · simp
      · intro hhalf
        linarith
    · rw [hbits]
      constructor
      · intro hne
        constructor <;> intro heq
        · exact hne (by linarith)
        · linarith
      · rintro ⟨hne, -⟩ heq
        exact hne (by linarith)
  · refine ⟨?_, ?_, ?_, ?_⟩ <;> simp only [ExtendedMantissa.shiftRightOne, hodd]
    · linarith
    · linarith
    · constructor
      · intro _
        linarith
      · simp
    · rw [hbits]
      constructor
      · intro hne
        constructor <;> intro heq
        · linarith
        · exact hne (by linarith)
      · rintro ⟨-, hne⟩ heq
        exact hne (by linarith)

theorem Holds.shiftRight (h : Holds em x) (n : ℕ) : Holds (em >>> n) (x / 2 ^ n) := by
  induction n with
  | zero => simpa [HShiftRight.hShiftRight, Nat.repeat] using h
  | succ n ih =>
    have hstep := ih.shiftRightOne
    rwa [div_div, ← pow_succ] at hstep

theorem mantissa_shiftRight (em : ExtendedMantissa) (n : ℕ) :
    (em >>> n).mantissa = em.mantissa / 2 ^ n := by
  induction n with
  | zero => simp [HShiftRight.hShiftRight, Nat.repeat]
  | succ n ih =>
    change (em >>> n).mantissa / 2 = _
    rw [ih, Nat.div_div_eq_div_mul, pow_succ]

@[simp]
theorem mantissa_ofMantissaAndAccuracy (m : ℕ) (acc : Accuracy) :
    (ExtendedMantissa.ofMantissaAndAccuracy m acc).mantissa = m := by
  unfold ExtendedMantissa.ofMantissaAndAccuracy
  split <;> rfl

theorem Holds.roundedMantissa_eq (h : Holds em x) :
    em.roundedMantissa =
      if x < em.mantissa + 1 / 2 then em.mantissa
      else if x = em.mantissa + 1 / 2 then em.mantissa + em.mantissa % 2
      else em.mantissa + 1 := by
  obtain ⟨m, round, sticky⟩ := em
  obtain ⟨-, -, hround, hsticky⟩ := h
  simp only at hround hsticky ⊢
  -- The round bit tells the two halves apart, and the sticky bit the middle from what is past it.
  cases round with
  | false =>
    have hlow : x < m + 1 / 2 := by simpa using hround
    rw [if_pos hlow]
    cases sticky <;> rfl
  | true =>
    have hhigh : ¬x < m + 1 / 2 := not_lt.2 (hround.1 rfl)
    rw [if_neg hhigh]
    cases sticky with
    | false =>
      have hhalf : x = m + 1 / 2 := by
        by_contra hne
        refine absurd (hsticky.2 ⟨?_, hne⟩) (by simp)
        rintro rfl
        linarith
      rw [if_pos hhalf]
      rfl
    | true =>
      rw [if_neg (hsticky.1 rfl).2]
      rfl

/-- Rounding goes to the nearest integer, and half way to the even one. -/
theorem Holds.le_roundedMantissa_iff (h : Holds em x) {n : ℕ} :
    n ≤ em.roundedMantissa ↔ n - 1 / 2 < x ∨ x = n - 1 / 2 ∧ Even n := by
  have hle := h.le
  have hlt := h.lt
  rw [h.roundedMantissa_eq]
  generalize em.mantissa = m at hle hlt
  -- Only next to the mantissa does the kind of rounding matter.
  rcases lt_trichotomy n (m + 1) with hn | rfl | hn
  · have hcast : (n : ℚ) + 1 ≤ m + 1 := by exact_mod_cast hn
    refine iff_of_true ?_ (.inl (by linarith))
    split
    · omega
    · split <;> omega
  · push_cast
    split
    · next hlow =>
      refine iff_of_false (by omega) ?_
      rintro (hhigh | ⟨rfl, -⟩) <;> linarith
    · next hhigh =>
      split
      · next hhalf =>
        subst hhalf
        rw [Nat.even_add_one, Nat.not_even_iff_odd, Nat.odd_iff]
        constructor
        · intro hodd
          refine .inr ⟨by ring, by omega⟩
        · rintro (hlow | ⟨-, hodd⟩)
          · linarith
          · omega
      · next hne =>
        refine iff_of_true (by omega) (.inl ?_)
        have := lt_of_le_of_ne (not_lt.1 hhigh) (Ne.symm hne)
        linarith
  · have hcast : (m : ℚ) + 1 + 1 ≤ n := by exact_mod_cast hn
    refine iff_of_false ?_ ?_
    · split
      · omega
      · split <;> omega
    · rintro (hhigh | ⟨rfl, -⟩) <;> linarith

theorem Holds.le_roundedMantissa_iff_of_even (h : Holds em x) {n : ℕ} (hn : Even n) :
    n ≤ em.roundedMantissa ↔ n - 1 / 2 ≤ x := by
  rw [h.le_roundedMantissa_iff, and_iff_left hn, le_iff_lt_or_eq]
  exact or_congr_right eq_comm

theorem Holds.roundedMantissa_le (h : Holds em x) {n : ℕ} (hx : x < n) :
    em.roundedMantissa ≤ n := by
  by_contra hgt
  have hhigh := (h.le_roundedMantissa_iff (n := n + 1)).1 (by omega)
  push_cast at hhigh
  rcases hhigh with hhigh | ⟨heq, -⟩ <;> linarith

theorem Holds.roundedMantissa_eq_zero_iff (h : Holds em x) :
    em.roundedMantissa = 0 ↔ x ≤ 1 / 2 := by
  have hone := h.le_roundedMantissa_iff (n := 1)
  rw [← not_lt, ← Nat.lt_one_iff, ← not_le (a := 1), not_iff_not, hone]
  norm_num

end Mantissa

section Packing

variable (s : Sign)

theorem toNat_implicitBit (m : BitVec 52) : (1#1 ++ m).toNat = 2 ^ 52 + m.toNat := by
  rw [BitVec.toNat_append, ← Nat.shiftLeft_add_eq_or_of_lt m.isLt]
  simp [Nat.shiftLeft_eq]

theorem unpack_packComponents (e : BitVec 11) (m : BitVec 52) :
    UnpackedFloat.unpack .binary64 (packComponents .binary64 s e m) =
      if e = -1#11 then if m = 0#52 then .infinity s else .notANumber
      else if e = 0#11 then
        if h : m = 0#52 then .zero s
        else .finite s m.toNat (-1074) (by rwa [BitVec.toNat_pos, BitVec.pos_iff_ne_zero])
      else .finite s (2 ^ 52 + m.toNat) (e.toNat - 1075) (by omega) := by
  simp only [UnpackedFloat.unpack, unpackSign_packComponents, Sign.ofBitVec_toBitVec,
    unpackExponent_packComponents, unpackMantissa_packComponents, toNat_implicitBit]
  refine if_congr Iff.rfl rfl (ite_congr rfl (fun hzero => ?_) fun _ => rfl)
  rw [hzero]
  rfl

/-- The doubles of a sign: all but not-a-number have one. -/
inductive Signed : UnpackedFloat → Prop
  | zero : Signed (.zero s)
  | finite (m : ℕ) (e : ℤ) (h : 0 < m) : Signed (.finite s m e h)
  | infinity : Signed (.infinity s)

theorem Signed.unpack_packComponents {e : BitVec 11} (he : e ≠ -1#11) (m : BitVec 52) :
    Signed s (UnpackedFloat.unpack .binary64 (packComponents .binary64 s e m)) := by
  rw [Decimal.unpack_packComponents, if_neg he]
  split
  · split
    · exact .zero
    · exact .finite ..
  · exact .finite ..

theorem unpack_pack_infinity : (Float.Model.pack (.infinity s)).unpack = .infinity s :=
  unpack_packComponents s _ _

theorem unpack_pack_zero : (Float.Model.pack (.zero s)).unpack = .zero s :=
  unpack_packedZero

theorem pack_finite {m : ℕ} {e : ℤ} (h : 0 < m) :
    UnpackedFloat.pack .binary64 (.finite s m e h) =
      if 972 ≤ e then packedInfinity .binary64 s
      else if m.log2 = 52 then packComponents .binary64 s (.ofNat 11 (e + 1075).toNat) (.ofNat 52 m)
      else packComponents .binary64 s 0#11 (.ofNat 52 m) := by
  have hbias : Format.binary64.exponentBias = 1023 := rfl
  have hbits : Format.binary64.mantissaBits = 53 := rfl
  have hplace : e + (1023 : ℕ) + (52 : ℕ) = e + 1075 := by omega
  simp only [UnpackedFloat.pack, hbias, hbits, hplace]
  refine if_congr ?_ rfl (if_congr ?_ rfl rfl)
  · norm_num
    omega
  · omega

theorem unpack_pack_of_large {m : ℕ} {e : ℤ} (h : 0 < m) (he : 972 ≤ e) :
    (Float.Model.pack (.finite s m e h)).unpack = .infinity s := by
  change UnpackedFloat.unpack .binary64 (UnpackedFloat.pack .binary64 _) = _
  rw [pack_finite, if_pos he]
  exact unpack_pack_infinity s

theorem unpack_pack_normal {m : ℕ} {e : ℤ} (h : 0 < m) (hlog : m.log2 = 52) (he : -1074 ≤ e)
    (he' : e ≤ 971) : (Float.Model.pack (.finite s m e h)).unpack = .finite s m e h := by
  have hlow := (Nat.log2_eq_iff h.ne').1 hlog
  have hbiased : (BitVec.ofNat 11 (e + 1075).toNat).toNat = e + 1075 := by
    rw [BitVec.toNat_ofNat]
    omega
  have hmantissa : 2 ^ 52 + (BitVec.ofNat 52 m).toNat = m := by
    rw [BitVec.toNat_ofNat]
    omega
  change UnpackedFloat.unpack .binary64 (UnpackedFloat.pack .binary64 _) = _
  rw [pack_finite, if_neg (by omega), if_pos hlog, unpack_packComponents, if_neg, if_neg]
  · simp only [hbiased, hmantissa]
    congr 1
    omega
  · intro hzero
    simp [hzero] at hbiased
    omega
  · intro hones
    simp [hones] at hbiased
    omega

/-- A number without its leading bit in place lies below all others. -/
theorem unpack_pack_subnormal {m : ℕ} {e : ℤ} (h : 0 < m) (hlog : m.log2 < 52) (he : e ≤ 971) :
    (Float.Model.pack (.finite s m e h)).unpack = .finite s m (-1074) h := by
  have hmantissa : (BitVec.ofNat 52 m).toNat = m := by
    rw [BitVec.toNat_ofNat, Nat.mod_eq_of_lt ((Nat.log2_lt h.ne').1 hlog)]
  change UnpackedFloat.unpack .binary64 (UnpackedFloat.pack .binary64 _) = _
  rw [pack_finite, if_neg (by omega), if_neg hlog.ne, unpack_packComponents, if_neg (by decide),
    if_pos rfl, dif_neg]
  · simp only [hmantissa]
  · intro hzero
    simp [hzero] at hmantissa
    omega

theorem unpack_pack_of_small {m : ℕ} {e : ℤ} (h : 0 < m) (hlt : m < 2 ^ 53) (he : -1074 ≤ e)
    (he' : e ≤ 971) :
    ∃ m' e' h', (Float.Model.pack (.finite s m e h)).unpack = .finite s m' e' h' := by
  have hlog := (Nat.log2_lt h.ne').2 hlt
  rcases (Nat.le_of_lt_succ hlog).lt_or_eq with hshort | hfull
  · exact ⟨m, _, h, unpack_pack_subnormal s h hshort he'⟩
  · exact ⟨m, _, h, unpack_pack_normal s h hfull he he'⟩

theorem Signed.unpack_pack {u : UnpackedFloat} (h : Signed s u) :
    Signed s (Float.Model.pack u).unpack := by
  cases h with
  | zero =>
    rw [unpack_pack_zero]
    exact .zero
  | infinity =>
    rw [unpack_pack_infinity]
    exact .infinity
  | finite m e h =>
    rcases le_or_gt 972 e with hlarge | hsmall
    · rw [unpack_pack_of_large s h hlarge]
      exact .infinity
    change Signed s (UnpackedFloat.unpack .binary64 (UnpackedFloat.pack .binary64 _))
    rw [pack_finite, if_neg hsmall.not_ge]
    split
    · refine Signed.unpack_packComponents s (fun hones => ?_) _
      have hbiased := congrArg BitVec.toNat hones
      simp at hbiased
      omega
    · exact Signed.unpack_packComponents s (by decide) _

end Packing

section Rounding

/-- The exponent of the last place that a double of the size of `m · 2 ^ e` has. -/
def lastPlace (m : ℕ) (e : ℤ) : ℤ :=
  max (m.log2 + e - 52) (-1074)

theorem targetExponent_eq (t : ℤ) : Format.binary64.targetExponent t = max (t - 53) (-1074) :=
  rfl

theorem targetExponent_totalExponent (m : ℕ) (e : ℤ) :
    Format.binary64.targetExponent (totalExponent m e) = lastPlace m e := by
  rw [targetExponent_eq, totalExponent, lastPlace]
  congr 1
  omega

variable {m : ℕ} {e : ℤ} {acc : Accuracy}

def kept (m : ℕ) (e : ℤ) (acc : Accuracy) : ExtendedMantissa :=
  ExtendedMantissa.ofMantissaAndAccuracy m acc >>> (lastPlace m e - e).toNat

theorem kept_mantissa : (kept m e acc).mantissa = m / 2 ^ (lastPlace m e - e).toNat := by
  rw [kept, mantissa_shiftRight, mantissa_ofMantissaAndAccuracy]

theorem kept_mantissa_lt : (kept m e acc).mantissa < 2 ^ 53 := by
  rw [kept_mantissa, Nat.div_lt_iff_lt_mul (by positivity), ← pow_add]
  refine Nat.lt_log2_self.trans_le (Nat.pow_le_pow_right (by omega) ?_)
  simp only [lastPlace]
  omega

theorem le_kept_mantissa (he : e ≤ lastPlace m e) (h : -1074 < lastPlace m e) :
    2 ^ 52 ≤ (kept m e acc).mantissa := by
  rw [kept_mantissa, Nat.le_div_iff_mul_le (by positivity), ← pow_add]
  have hlog : 52 + (lastPlace m e - e).toNat = m.log2 := by
    simp only [lastPlace] at *
    omega
  have hm : m ≠ 0 := by
    rintro rfl
    simp at hlog
  rw [hlog]
  exact Nat.log2_self_le hm

theorem shiftToTargetExponent_eq :
    shiftToTargetExponent .binary64 m e acc = (kept m e acc, e + (lastPlace m e - e).toNat) := by
  rw [shiftToTargetExponent, targetExponent_totalExponent]
  rfl

theorem lastPlace_eq_self {n : ℕ} (hfloor : -1074 ≤ e) (hlt : n < 2 ^ 53)
    (hlow : -1074 < e → 2 ^ 52 ≤ n) : lastPlace n e = e := by
  simp only [lastPlace]
  by_cases habove : -1074 < e
  · have hpos : n ≠ 0 := (Nat.two_pow_pos 52).trans_le (hlow habove) |>.ne'
    have hlog : n.log2 = 52 := (Nat.log2_eq_iff hpos).2 ⟨hlow habove, hlt⟩
    omega
  · have hlog : n.log2 ≤ 52 := by
      rcases Nat.eq_zero_or_pos n with rfl | hpos
      · simp
      · exact Nat.le_of_lt_succ ((Nat.log2_lt hpos.ne').2 hlt)
    omega

theorem lastPlace_two_pow (hfloor : -1074 ≤ e) : lastPlace (2 ^ 53) e = e + 1 := by
  simp only [lastPlace, Nat.log2_two_pow]
  omega

theorem roundWithAccuracy_eq (s : Sign) (he : e ≤ lastPlace m e) {n : ℕ}
    (hn : (kept m e acc).roundedMantissa = n) :
    roundWithAccuracy .binary64 s m e acc =
      if h : n / 2 ^ (lastPlace n (lastPlace m e) - lastPlace m e).toNat = 0 then .zero s
      else .finite s _ (lastPlace m e + (lastPlace n (lastPlace m e) - lastPlace m e).toNat)
        (Nat.pos_of_ne_zero h) := by
  have hplace : e + (lastPlace m e - e).toNat = lastPlace m e := by omega
  simp only [roundWithAccuracy, shiftToTargetExponent_eq, hplace, hn, kept_mantissa]

theorem roundWithAccuracy_of_lt (s : Sign) (he : e ≤ lastPlace m e) {n : ℕ}
    (hn : (kept m e acc).roundedMantissa = n) (hlt : n < 2 ^ 53)
    (hlow : -1074 < lastPlace m e → 2 ^ 52 ≤ n) :
    roundWithAccuracy .binary64 s m e acc =
      if h : n = 0 then .zero s else .finite s n (lastPlace m e) (Nat.pos_of_ne_zero h) := by
  have hsame : lastPlace n (lastPlace m e) = lastPlace m e :=
    lastPlace_eq_self (le_max_right _ _) hlt hlow
  rw [roundWithAccuracy_eq s he hn]
  simp [hsame]

/-- After rounding, a mantissa has a bit too many only if it is the next power of two. -/
theorem roundWithAccuracy_of_eq (s : Sign) (he : e ≤ lastPlace m e) {n : ℕ}
    (hn : (kept m e acc).roundedMantissa = n) (hlt : n = 2 ^ 53) :
    roundWithAccuracy .binary64 s m e acc =
      .finite s (2 ^ 52) (lastPlace m e + 1) (Nat.two_pow_pos 52) := by
  have hnext : lastPlace n (lastPlace m e) = lastPlace m e + 1 := by
    rw [hlt]
    exact lastPlace_two_pow (le_max_right _ _)
  have hmantissa : n / 2 ^ (lastPlace m e + 1 - lastPlace m e).toNat = 2 ^ 52 := by
    simp
    omega
  rw [roundWithAccuracy_eq s he hn]
  simp only [hnext, hmantissa]
  simp

/-- Half of the least double above zero. -/
def underflow : ℚ :=
  2 ^ (-1075 : ℤ)

/-- Where the next double past the largest would be nearer, if there were one. -/
def overflow : ℚ :=
  (2 ^ 53 - 1 / 2) * 2 ^ (971 : ℤ)

/-- What a number `± q` becomes as a double: zero up to the one bound and infinity from the
other. -/
structure Lands (s : Sign) (q : ℚ) (u : UnpackedFloat) : Prop where
  zero : q ≤ underflow → u = .zero s
  finite : underflow < q → q < overflow → ∃ m e h, u = .finite s m e h
  infinity : overflow ≤ q → u = .infinity s

theorem underflow_lt_overflow : underflow < overflow := by
  calc underflow < 2 ^ (971 : ℤ) := zpow_lt_zpow_right₀ (by norm_num) (by norm_num)
    _ = 1 * 2 ^ (971 : ℤ) := (one_mul _).symm
    _ ≤ overflow := by
        rw [overflow]
        gcongr
        norm_num

variable {s : Sign} {q : ℚ} {u : UnpackedFloat}

theorem Lands.of_zero (hq : q ≤ underflow) (hu : u = .zero s) : Lands s q u := by
  refine ⟨fun _ => hu, fun hlow => absurd hq hlow.not_ge, fun hhigh => ?_⟩
  exact absurd (hhigh.trans hq) underflow_lt_overflow.not_ge

theorem Lands.of_finite (hlow : underflow < q) (hhigh : q < overflow)
    (hu : ∃ m e h, u = .finite s m e h) : Lands s q u :=
  ⟨fun hzero => absurd hzero hlow.not_ge, fun _ _ => hu, fun hover => absurd hover hhigh.not_ge⟩

theorem Lands.of_infinity (hq : overflow ≤ q) (hu : u = .infinity s) : Lands s q u := by
  refine ⟨fun hzero => ?_, fun _ hhigh => absurd hq hhigh.not_ge, fun _ => hu⟩
  exact absurd (hq.trans hzero) underflow_lt_overflow.not_ge

theorem two_zpow_succ {t t' : ℤ} (h : t' = t + 1) : (2 : ℚ) ^ t' = 2 * 2 ^ t := by
  rw [h, zpow_add_one₀ two_ne_zero, mul_comm]

theorem underflow_eq : underflow = 1 / 2 * 2 ^ (-1074 : ℤ) := by
  have hnext : (2 : ℚ) ^ (-1074 : ℤ) = 2 * underflow := two_zpow_succ (by norm_num)
  rw [hnext]
  ring

theorem underflow_lt_mul {y : ℚ} {t : ℤ} (ht : -1074 ≤ t) (hlow : 1 / 2 < y) :
    underflow < y * 2 ^ t := by
  calc underflow = 1 / 2 * 2 ^ (-1074 : ℤ) := underflow_eq
    _ ≤ 1 / 2 * 2 ^ t := by gcongr; norm_num
    _ < y * 2 ^ t := by gcongr

theorem lands_pack_finite {y : ℚ} {n : ℕ} {t : ℤ} (hn : 0 < n) (hlt : n < 2 ^ 53)
    (ht : -1074 ≤ t) (hlow : 1 / 2 < y) (hhigh : y < 2 ^ 53 - 1 / 2)
    (hfull : -1074 < t → 2 ^ 52 ≤ y) :
    Lands s (y * 2 ^ t) (Float.Model.pack (.finite s n t hn)).unpack := by
  have hpos : (0 : ℚ) < 2 ^ t := by positivity
  -- The exponent 971 is the largest that a finite double can have.
  rcases le_or_gt t 971 with hsmall | hlarge
  · apply Lands.of_finite
    · exact underflow_lt_mul ht hlow
    · calc y * 2 ^ t < (2 ^ 53 - 1 / 2) * 2 ^ t := by gcongr
        _ ≤ overflow := by
            rw [overflow]
            gcongr
            norm_num
    · exact unpack_pack_of_small s hn hlt ht hsmall
  · apply Lands.of_infinity
    · calc overflow ≤ 2 ^ 53 * 2 ^ (971 : ℤ) := by
            rw [overflow]
            gcongr
            norm_num
        _ = 2 ^ 52 * 2 ^ (972 : ℤ) := by
            have hnext : (2 : ℚ) ^ (972 : ℤ) = 2 * 2 ^ (971 : ℤ) := two_zpow_succ (by norm_num)
            rw [hnext]
            ring
        _ ≤ 2 ^ 52 * 2 ^ t := by
            gcongr
            · norm_num
            · omega
        _ ≤ y * 2 ^ t := by
            gcongr
            exact hfull (by omega)
    · exact unpack_pack_of_large s hn hlarge

theorem lands_pack_carry {y : ℚ} {t : ℤ} (ht : -1074 ≤ t)
    (hlow : 2 ^ 53 - 1 / 2 ≤ y) (hhigh : y < 2 ^ 53) :
    Lands s (y * 2 ^ t)
      (Float.Model.pack (.finite s (2 ^ 52) (t + 1) (Nat.two_pow_pos 52))).unpack := by
  have hpos : (0 : ℚ) < 2 ^ t := by positivity
  -- The carry takes the exponent up by one, so it ends one earlier.
  rcases le_or_gt t 970 with hsmall | hlarge
  · apply Lands.of_finite
    · exact underflow_lt_mul ht (by linarith)
    · calc y * 2 ^ t < 2 ^ 53 * 2 ^ t := by gcongr
        _ ≤ 2 ^ 53 * 2 ^ (970 : ℤ) := by gcongr; norm_num
        _ < overflow := by
            have hnext : (2 : ℚ) ^ (971 : ℤ) = 2 * 2 ^ (970 : ℤ) := two_zpow_succ (by norm_num)
            have hpos' : (0 : ℚ) < 2 ^ (970 : ℤ) := by positivity
            rw [overflow, hnext, ← mul_assoc]
            gcongr
            norm_num
    · exact unpack_pack_of_small s _ (by norm_num) (by omega) (by omega)
  · apply Lands.of_infinity
    · calc overflow ≤ (2 ^ 53 - 1 / 2) * 2 ^ t := by
            rw [overflow]
            gcongr <;> norm_num
            omega
        _ ≤ y * 2 ^ t := by gcongr
    · exact unpack_pack_of_large s _ (by omega)

theorem Holds.lands_kept (s : Sign) {y : ℚ} (h : Holds (kept m e acc) y)
    (he : e ≤ lastPlace m e) :
    Lands s (y * 2 ^ lastPlace m e)
      (Float.Model.pack (roundWithAccuracy .binary64 s m e acc)).unpack := by
  have hfloor : -1074 ≤ lastPlace m e := le_max_right _ _
  have hy : y < 2 ^ 53 := by
    have hlt : (kept m e acc).mantissa + 1 ≤ 2 ^ 53 := kept_mantissa_lt
    exact h.lt.trans_le (by exact_mod_cast hlt)
  have hy' : -1074 < lastPlace m e → 2 ^ 52 ≤ y := fun habove =>
    le_trans (by exact_mod_cast le_kept_mantissa he habove) h.le
  have hcarry := h.le_roundedMantissa_iff_of_even (n := 2 ^ 53)
    (even_two.pow_of_ne_zero (by norm_num))
  have hfull := h.le_roundedMantissa_iff_of_even (n := 2 ^ 52)
    (even_two.pow_of_ne_zero (by norm_num))
  have hzero := h.roundedMantissa_eq_zero_iff
  have hle := h.roundedMantissa_le (n := 2 ^ 53) (by exact_mod_cast hy)
  obtain ⟨n, hn⟩ : ∃ n, (kept m e acc).roundedMantissa = n := ⟨_, rfl⟩
  rw [hn] at hcarry hfull hzero hle
  rw [Nat.cast_pow, Nat.cast_ofNat] at hcarry hfull
  have hlow : -1074 < lastPlace m e → 2 ^ 52 ≤ n := by
    intro habove
    rw [hfull]
    linarith [hy' habove]
  -- The rounded mantissa is zero, or it has its bits, or one too many.
  rcases Nat.eq_zero_or_pos n with rfl | hpos
  · -- Nothing can be left only in the lowest place of all.
    have hplace : lastPlace m e = -1074 := by
      by_contra hne
      have := hlow (by omega)
      omega
    rw [roundWithAccuracy_of_lt s he hn (by norm_num) hlow, dif_pos rfl, hplace]
    apply Lands.of_zero _ (unpack_pack_zero s)
    rw [underflow_eq]
    gcongr
    exact hzero.1 rfl
  rcases hle.lt_or_eq with hlt | heq
  · rw [roundWithAccuracy_of_lt s he hn hlt hlow, dif_neg hpos.ne']
    apply lands_pack_finite hpos hlt hfloor _ _ hy'
    · exact not_le.1 (mt hzero.2 hpos.ne')
    · exact not_le.1 (mt hcarry.2 hlt.not_ge)
  · rw [roundWithAccuracy_of_eq s he hn heq]
    exact lands_pack_carry hfloor (hcarry.1 heq.ge) hy

theorem lands_roundWithAccuracy (s : Sign) {x : ℚ} (h : Holds (.ofMantissaAndAccuracy m acc) x)
    (he : e ≤ lastPlace m e) :
    Lands s (x * 2 ^ e) (Float.Model.pack (roundWithAccuracy .binary64 s m e acc)).unpack := by
  have hpower : (2 : ℚ) ^ lastPlace m e = 2 ^ (lastPlace m e - e).toNat * 2 ^ e := by
    rw [← zpow_natCast, ← zpow_add₀ two_ne_zero]
    congr 1
    omega
  have hvalue : x * 2 ^ e = x / 2 ^ (lastPlace m e - e).toNat * 2 ^ lastPlace m e := by
    rw [hpower, ← mul_assoc, div_mul_cancel₀ _ (by positivity)]
  rw [hvalue]
  exact (h.shiftRight _).lands_kept s he

end Rounding
end FlowCanvas.Decimal
