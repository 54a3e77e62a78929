import FlowCanvas.Proofs.Decimal.Rounding

namespace FlowCanvas.Decimal
open Float.Model Float.Model.UnpackedFloat

section Arithmetic

theorem ofMantissaAndAccuracy_fraction (m : ℕ) {n d : ℕ} (h : n < d) :
    ExtendedMantissa.ofMantissaAndAccuracy m (accuracyOfFraction n d) =
      ⟨m, d ≤ 2 * n, n ≠ 0 ∧ d ≠ 2 * n⟩ := by
  rw [accuracyOfFraction]
  split
  · simp [ExtendedMantissa.ofMantissaAndAccuracy]
    omega
  · rcases hcompare : compare (2 * n) d
    all_goals
      simp [ExtendedMantissa.ofMantissaAndAccuracy, Nat.compare_eq_lt, Nat.compare_eq_gt]
        at hcompare ⊢
      omega

theorem holds_fraction (m : ℕ) {n d : ℕ} (h : n < d) :
    Holds (.ofMantissaAndAccuracy m (accuracyOfFraction n d)) (m + n / d) := by
  have hpos : (0 : ℚ) < d := by exact_mod_cast (Nat.zero_le n).trans_lt h
  have hzero : (n / d : ℚ) = 0 ↔ n = 0 := by simp [hpos.ne']
  have hhalf : 1 / 2 ≤ (n / d : ℚ) ↔ d ≤ 2 * n := by
    rw [div_le_div_iff₀ two_pos hpos, one_mul, mul_comm]
    exact_mod_cast Iff.rfl
  have hhalf' : (n / d : ℚ) = 1 / 2 ↔ d = 2 * n := by
    rw [div_eq_div_iff hpos.ne' two_ne_zero, one_mul, mul_comm, eq_comm]
    exact_mod_cast Iff.rfl
  rw [ofMantissaAndAccuracy_fraction m h]
  refine ⟨?_, ?_, ?_, ?_⟩
  · exact le_add_of_nonneg_right (div_nonneg n.cast_nonneg hpos.le)
  · rw [add_lt_add_iff_left, div_lt_one₀ hpos]
    exact_mod_cast h
  · rw [decide_eq_true_iff, add_le_add_iff_left, hhalf]
  · simp only [decide_eq_true_iff, ne_eq, add_eq_left, hzero, add_right_inj, hhalf']

theorem holds_exact (m : ℕ) : Holds (.ofMantissaAndAccuracy m .exact) m := by
  simpa [accuracyOfFraction] using holds_fraction m one_pos

theorem holds_quotient (m : ℕ) {d : ℕ} (hd : 0 < d) :
    Holds (.ofMantissaAndAccuracy (m / d) (accuracyOfFraction (m % d) d)) (m / d) := by
  have hpos : (d : ℚ) ≠ 0 := by exact_mod_cast hd.ne'
  have hvalue : (m / d : ℚ) = (m / d : ℕ) + (m % d : ℕ) / d := by
    rw [div_eq_iff hpos, add_mul, div_mul_cancel₀ _ hpos, mul_comm]
    exact_mod_cast (Nat.div_add_mod m d).symm
  rw [hvalue]
  exact holds_fraction _ (Nat.mod_lt m hd)

theorem lands_mul (s s' : Sign) {m m' : ℕ} {e e' : ℤ} (h : 0 < m) (h' : 0 < m')
    (hlog : 52 ≤ (m * m').log2) :
    Lands (s * s') (m * 2 ^ e * (m' * 2 ^ e')) (Float.Model.pack
      (UnpackedFloat.mul .binary64 (.finite s m e h) (.finite s' m' e' h'))).unpack := by
  have hvalue : (m : ℚ) * 2 ^ e * (m' * 2 ^ e') = (m * m' : ℕ) * 2 ^ (e + e') := by
    rw [zpow_add₀ two_ne_zero]
    push_cast
    ring
  rw [hvalue]
  refine lands_roundWithAccuracy (s * s') (holds_exact (m * m')) ?_
  rw [lastPlace]
  omega

/-- A quotient of mantissas has all bits that its last place asks for. -/
theorem le_lastPlace_quotient {m m' k : ℕ} {t : ℤ} (h : 0 < m) (h' : 0 < m')
    (ht : t ≤ -1074 ∨ 53 + m'.log2 ≤ m.log2 + k) : t ≤ lastPlace (m * 2 ^ k / m') t := by
  rcases ht with hlow | hlong
  · exact hlow.trans (le_max_right _ _)
  have hquotient : 2 ^ 52 ≤ m * 2 ^ k / m' := by
    rw [Nat.le_div_iff_mul_le h']
    calc 2 ^ 52 * m' ≤ 2 ^ 52 * 2 ^ (m'.log2 + 1) := by
          gcongr
          exact Nat.lt_log2_self.le
      _ = 2 ^ (53 + m'.log2) := by rw [← pow_add]; congr 1; omega
      _ ≤ 2 ^ (m.log2 + k) := Nat.pow_le_pow_right two_pos hlong
      _ = 2 ^ m.log2 * 2 ^ k := pow_add ..
      _ ≤ m * 2 ^ k := by
          gcongr
          exact Nat.log2_self_le h.ne'
  have hlog : 52 ≤ (m * 2 ^ k / m').log2 :=
    (Nat.le_log2 ((Nat.two_pow_pos 52).trans_le hquotient).ne').2 hquotient
  rw [lastPlace]
  omega

theorem lands_div (s s' : Sign) {m m' : ℕ} {e e' : ℤ} (h : 0 < m) (h' : 0 < m') :
    Lands (s / s') (m * 2 ^ e / (m' * 2 ^ e')) (Float.Model.pack
      (UnpackedFloat.div .binary64 (.finite s m e h) (.finite s' m' e' h'))).unpack := by
  have hpos : (m' : ℚ) ≠ 0 := by exact_mod_cast h'.ne'
  have htarget : Format.binary64.targetExponent (totalExponent m e - totalExponent m' e') =
      max (m.log2 + e - (m'.log2 + e') - 53) (-1074) := by
    rw [targetExponent_eq, totalExponent, totalExponent]
    congr 1
    omega
  simp only [UnpackedFloat.div, divCore, htarget, Nat.shiftLeft_eq]
  generalize ht : min (e - e') (max (m.log2 + e - (m'.log2 + e') - 53) (-1074)) = t
  -- The dividend is shifted by as many places as the quotient lacks.
  obtain ⟨k, hk⟩ : ∃ k : ℕ, e - e' - t = k := Int.eq_ofNat_of_zero_le (by omega)
  have hvalue : (m : ℚ) * 2 ^ e / (m' * 2 ^ e') = (m * 2 ^ k : ℕ) / m' * 2 ^ t := by
    have he : e = k + t + e' := by omega
    rw [he, zpow_add₀ two_ne_zero, zpow_add₀ two_ne_zero, zpow_natCast]
    push_cast
    have hpow : (2 : ℚ) ^ e' ≠ 0 := by positivity
    rw [← mul_assoc, mul_div_mul_right _ _ hpow]
    ring
  rw [hvalue, hk, Int.toNat_natCast]
  refine lands_roundWithAccuracy _ (holds_quotient _ h') (le_lastPlace_quotient h h' ?_)
  omega

end Arithmetic

section Exact

/-- A double that is exactly a positive number, with its leading bit in place. -/
def IsExactly (q : ℚ) (x : Float) : Prop :=
  ∃ m e h, x.toModel.unpack = .finite .positive m e h ∧ m.log2 = 52 ∧ m * 2 ^ e = q

theorem roundWithAccuracy_exact (s : Sign) {m : ℕ} {e : ℤ} (h : 0 < m) (hlog : m.log2 = 52)
    (he : -1074 ≤ e) : roundWithAccuracy .binary64 s m e .exact = .finite s m e h := by
  have hbounds := (Nat.log2_eq_iff h.ne').1 hlog
  have hplace : lastPlace m e = e := lastPlace_eq_self he hbounds.2 fun _ => hbounds.1
  have hkept : (kept m e .exact).roundedMantissa = m := by
    rw [kept, hplace, sub_self]
    rfl
  rw [roundWithAccuracy_of_lt s hplace.ge hkept hbounds.2 fun _ => hbounds.1, dif_neg h.ne']
  congr 1

theorem round_exact (s : Sign) {m : ℕ} (h : 0 < m) (hlt : m < 2 ^ 53) :
    ∃ k : ℕ, k ≤ 52 ∧ (m * 2 ^ k).log2 = 52 ∧
      UnpackedFloat.round .binary64 s m 0 =
        .finite s (m * 2 ^ k) (-k) (Nat.mul_pos h (Nat.two_pow_pos k)) := by
  have hlog : m.log2 ≤ 52 := Nat.le_of_lt_succ ((Nat.log2_lt h.ne').2 hlt)
  obtain ⟨k, hk⟩ : ∃ k : ℕ, m.log2 + k = 52 := ⟨52 - m.log2, by omega⟩
  have hpos : 0 < m * 2 ^ k := by positivity
  have hfull : (m * 2 ^ k).log2 = 52 := by
    rw [Nat.log2_eq_iff hpos.ne', ← hk, pow_add, add_right_comm, pow_add]
    exact ⟨Nat.mul_le_mul_right _ (Nat.log2_self_le h.ne'),
      (Nat.mul_lt_mul_right (Nat.two_pow_pos k)).2 Nat.lt_log2_self⟩
  have hplace : lastPlace m 0 = -k := by
    rw [lastPlace]
    omega
  refine ⟨k, by omega, hfull, ?_⟩
  simp only [UnpackedFloat.round, targetExponent_totalExponent, hplace, decreaseExponent]
  simp [Nat.shiftLeft_eq]
  exact roundWithAccuracy_exact s hpos hfull (by omega)

theorem isExactly_toFloat {n : ℕ} (h : 0 < n) (hlt : n < 2 ^ 53) :
    IsExactly n n.toUInt64.toFloat := by
  obtain ⟨k, hk, hfull, hround⟩ := round_exact .positive h hlt
  refine ⟨n * 2 ^ k, -k, by positivity, ?_, hfull, ?_⟩
  · have hn : n.toUInt64.toNat = n := by
      simp
      omega
    have hsign : compare (n : ℤ) 0 = .gt := by
      rw [compare_gt_iff_gt]
      omega
    change (Float.Model.pack
      (UnpackedFloat.normalize .binary64 n.toUInt64.toNat 0 .positive)).unpack = _
    rw [hn, UnpackedFloat.normalize, hsign]
    simp only [Int.toNat_natCast, hround]
    exact unpack_pack_normal _ _ hfull (by omega) (by omega)
  · push_cast
    rw [mul_assoc, zpow_neg, zpow_natCast, mul_inv_cancel₀ (by positivity), mul_one]

def isInteger (n : ℕ) : UnpackedFloat → Bool
  | .finite .positive m e _ => m.log2 = 52 && m * 2 ^ e.toNat = n * 2 ^ (-e).toNat
  | _ => false

theorem isInteger_exactlyRepresentablePowersOfTen :
    ∀ e : Fin Float.exactlyRepresentablePowersOfTen.size,
      isInteger (10 ^ e.val) Float.exactlyRepresentablePowersOfTen[e].toModel.unpack := by
  decide +kernel

theorem isExactly_of_isInteger {n : ℕ} {x : Float} (h : isInteger n x.toModel.unpack = true) :
    IsExactly n x := by
  unfold isInteger at h
  split at h
  · next m e hpos heq =>
    simp only [Bool.and_eq_true, decide_eq_true_eq] at h
    refine ⟨m, e, hpos, heq, h.1, ?_⟩
    have hvalue : (m * 2 ^ e.toNat : ℚ) = n * 2 ^ (-e).toNat := by exact_mod_cast h.2
    have he : e = e.toNat - (-e).toNat := by omega
    rw [he, zpow_sub₀ two_ne_zero, zpow_natCast, zpow_natCast, mul_div_assoc',
      div_eq_iff (by positivity), hvalue]
  · simp at h

theorem isExactly_powerOfTen {e : ℕ} (h : e < Float.exactlyRepresentablePowersOfTen.size) :
    IsExactly (10 ^ e : ℕ) (Float.exactlyRepresentablePowersOfTen[e]) :=
  isExactly_of_isInteger (isInteger_exactlyRepresentablePowersOfTen ⟨e, h⟩)

variable {q q' : ℚ} {x y : Float}

theorem unpack_mul (x y : Float) : (x * y).toModel.unpack =
    (Float.Model.pack (UnpackedFloat.mul .binary64 x.toModel.unpack y.toModel.unpack)).unpack :=
  rfl

theorem unpack_div (x y : Float) : (x / y).toModel.unpack =
    (Float.Model.pack (UnpackedFloat.div .binary64 x.toModel.unpack y.toModel.unpack)).unpack :=
  rfl

theorem IsExactly.lands_mul (h : IsExactly q x) (h' : IsExactly q' y) :
    Lands .positive (q * q') (x * y).toModel.unpack := by
  obtain ⟨m, e, hpos, hx, hlog, rfl⟩ := h
  obtain ⟨m', e', hpos', hy, hlog', rfl⟩ := h'
  rw [unpack_mul, hx, hy]
  refine Decimal.lands_mul .positive .positive hpos hpos' ?_
  rw [Nat.le_log2 (Nat.mul_pos hpos hpos').ne']
  exact (hlog ▸ Nat.log2_self_le hpos.ne').trans (Nat.le_mul_of_pos_right _ hpos')

theorem IsExactly.lands_div (h : IsExactly q x) (h' : IsExactly q' y) :
    Lands .positive (q / q') (x / y).toModel.unpack := by
  obtain ⟨m, e, hpos, hx, -, rfl⟩ := h
  obtain ⟨m', e', hpos', hy, -, rfl⟩ := h'
  rw [unpack_div, hx, hy]
  exact Decimal.lands_div .positive .positive hpos hpos'

end Exact

section Scientific

theorem two_pow_le_ten_pow (n : ℕ) : (2 : ℚ) ^ (3 * n) ≤ 10 ^ n := by
  rw [pow_mul]
  gcongr
  norm_num

theorem overflow_le_ten_zpow {e : ℤ} (he : 400 ≤ e) : overflow ≤ 10 ^ e := by
  calc overflow ≤ 2 ^ 53 * 2 ^ (971 : ℤ) := by
        rw [overflow]
        gcongr
        norm_num
    _ = 2 ^ ((53 : ℕ) + 971 : ℤ) := by rw [zpow_add₀ two_ne_zero, zpow_natCast]
    _ ≤ 2 ^ ((3 * 400 : ℕ) : ℤ) := zpow_le_zpow_right₀ one_le_two (by norm_num)
    _ ≤ 10 ^ ((400 : ℕ) : ℤ) := by
        rw [zpow_natCast, zpow_natCast]
        exact two_pow_le_ten_pow 400
    _ ≤ 10 ^ e := zpow_le_zpow_right₀ (by norm_num) he

theorem ten_zpow_le_underflow {e : ℤ} (he : e ≤ -400) : 10 ^ e ≤ underflow := by
  calc (10 : ℚ) ^ e ≤ 10 ^ (-(400 : ℕ) : ℤ) := zpow_le_zpow_right₀ (by norm_num) he
    _ ≤ 2 ^ (-(3 * 400 : ℕ) : ℤ) := by
        rw [zpow_neg, zpow_neg, zpow_natCast, zpow_natCast]
        exact inv_anti₀ (by positivity) (two_pow_le_ten_pow 400)
    _ ≤ underflow := zpow_le_zpow_right₀ one_le_two (by norm_num)

theorem overflow_le_mul_ten_zpow {c : ℕ} (hc : 0 < c) {e : ℤ} (he : 400 ≤ e) :
    overflow ≤ c * 10 ^ e := by
  have hone : (1 : ℚ) ≤ c := by exact_mod_cast hc
  calc overflow ≤ 10 ^ e := overflow_le_ten_zpow he
    _ ≤ c * 10 ^ e := le_mul_of_one_le_left (by positivity) hone

theorem mul_ten_zpow_le_underflow {c : ℕ} {e : ℤ} (he : ((c.log2 + 1 : ℕ) : ℤ) + e ≤ -400) :
    c * 10 ^ e ≤ underflow := by
  have hsize : (c : ℚ) ≤ 10 ^ (c.log2 + 1) := by
    exact_mod_cast Nat.lt_log2_self.le.trans (Nat.pow_le_pow_left (by norm_num) _)
  calc (c : ℚ) * 10 ^ e ≤ 10 ^ (c.log2 + 1) * 10 ^ e := by gcongr
    _ = 10 ^ ((c.log2 + 1 : ℕ) + e) := by
        rw [zpow_add₀ (by norm_num), zpow_natCast]
    _ ≤ underflow := ten_zpow_le_underflow he

theorem lands_model_ofScientific {c : ℕ} (hc : 0 < c) (e : ℤ) :
    Lands .positive (c * 10 ^ e) (Float.Model.ofScientific c e).unpack := by
  change Lands _ _ (Float.Model.pack (UnpackedFloat.ofScientific .binary64 c e)).unpack
  unfold UnpackedFloat.ofScientific
  rw [dif_neg hc.ne']
  -- Exponents far outside of the range are not worked out, and the sign of any other one decides
  -- whether the number is a product or a quotient.
  split_ifs with hhigh hlow hsign
  · apply Lands.of_infinity _ (unpack_pack_infinity _)
    exact overflow_le_mul_ten_zpow hc (by norm_num at hhigh; omega)
  · apply Lands.of_zero _ (unpack_pack_zero _)
    exact mul_ten_zpow_le_underflow (by norm_num at hlow; omega)
  · obtain ⟨k, rfl⟩ := Int.eq_ofNat_of_zero_le hsign
    -- The coefficient is moved up so that the product has bits enough to be rounded.
    have hvalue : (c : ℚ) * (10 : ℚ) ^ (k : ℤ) =
        (c <<< 53 : ℕ) * 2 ^ (-53 : ℤ) * ((10 ^ k : ℕ) * 2 ^ (0 : ℤ)) := by
      rw [Nat.shiftLeft_eq, zpow_neg]
      norm_num [mul_assoc]
    rw [hvalue]
    apply Decimal.lands_mul .positive .positive
    have hpos : 0 < 2 ^ 53 * (c * 10 ^ k) := by positivity
    have hbits : c <<< 53 * 10 ^ (k : ℤ).toNat = 2 ^ 53 * (c * 10 ^ k) := by
      rw [Nat.shiftLeft_eq, Int.toNat_natCast]
      ring
    change 52 ≤ (c <<< 53 * 10 ^ (k : ℤ).toNat).log2
    rw [hbits, Nat.le_log2 hpos.ne']
    exact (Nat.pow_le_pow_right two_pos (by norm_num)).trans
      (Nat.le_mul_of_pos_right _ (by positivity))
  · obtain ⟨k, rfl⟩ : ∃ k : ℕ, e = -k := ⟨(-e).toNat, by omega⟩
    have hvalue : (c : ℚ) * (10 : ℚ) ^ (-k : ℤ) =
        c * 2 ^ (0 : ℤ) / ((10 ^ k : ℕ) * 2 ^ (0 : ℤ)) := by
      rw [zpow_neg]
      simp [div_eq_mul_inv]
    rw [hvalue]
    simp only [neg_neg, Int.toNat_natCast]
    exact Decimal.lands_div .positive .positive _ _

theorem lands_ofScientific_true {c : ℕ} (hc : 0 < c) (e : ℕ) :
    Lands .positive (c * 10 ^ (-e : ℤ)) (Float.ofScientific c true e).toModel.unpack := by
  by_cases hfast : c < 2 ^ 53 ∧ e ≤ 22
  · -- Both operands are exact, so that only the quotient is rounded.
    have hlands := (isExactly_toFloat hc hfast.1).lands_div
      (isExactly_powerOfTen (Nat.lt_succ_of_le hfast.2 : e < 23))
    have hvalue : (c : ℚ) * 10 ^ (-e : ℤ) = c / (10 ^ e : ℕ) := by
      rw [zpow_neg, zpow_natCast, Nat.cast_pow, Nat.cast_ofNat, div_eq_mul_inv]
    rw [hvalue, Float.ofScientific, dif_pos hfast]
    exact hlands
  · have he : Int.negOfNat e = -e := Int.negOfNat_eq
    rw [Float.ofScientific, dif_neg hfast, ← he]
    exact lands_model_ofScientific hc _

theorem lands_ofScientific_false {c : ℕ} (hc : 0 < c) (e : ℕ) :
    Lands .positive (c * 10 ^ (e : ℤ)) (Float.ofScientific c false e).toModel.unpack := by
  by_cases hfast : c < 2 ^ 53 ∧ e ≤ 22
  · have hlands := (isExactly_toFloat hc hfast.1).lands_mul
      (isExactly_powerOfTen (Nat.lt_succ_of_le hfast.2 : e < 23))
    have hvalue : (c : ℚ) * 10 ^ (e : ℤ) = c * (10 ^ e : ℕ) := by
      rw [zpow_natCast, Nat.cast_pow, Nat.cast_ofNat]
    rw [hvalue, Float.ofScientific, dif_pos hfast]
    exact hlands
  · rw [Float.ofScientific, dif_neg hfast]
    exact lands_model_ofScientific hc _

theorem lt_ten_pow_length (n : ℕ) : n < 10 ^ (toString n).length :=
  (Nat.length_repr_le_iff Nat.length_repr_pos).1 le_rfl

theorem ten_pow_length_le {n : ℕ} (h : 0 < n) : 10 ^ ((toString n).length - 1) ≤ n := by
  rcases Nat.eq_zero_or_pos ((toString n).length - 1) with hone | hmore
  · rw [hone]
    exact h
  · by_contra hlt
    have := (Nat.length_repr_le_iff hmore).2 (not_le.1 hlt)
    change (toString n).length ≤ _ at this
    omega

theorem unpack_zero : (0.0 : Float).toModel.unpack = .zero .positive :=
  rfl

theorem unpack_infinity : (1.0 / 0.0 : Float).toModel.unpack = .infinity .positive :=
  rfl

theorem toRat_le (d : Decimal) : d.toRat ≤ 10 ^ ((toString d.coefficient).length + d.exponent) := by
  rw [toRat, zpow_add₀ (by norm_num), zpow_natCast]
  gcongr
  exact_mod_cast (lt_ten_pow_length d.coefficient).le

theorem le_toRat {d : Decimal} (h : 0 < d.coefficient) :
    10 ^ ((toString d.coefficient).length + d.exponent - 1) ≤ d.toRat := by
  have hlength : 0 < (toString d.coefficient).length := Nat.length_repr_pos
  have he : (toString d.coefficient).length + d.exponent - 1 =
      ((toString d.coefficient).length - 1 : ℕ) + d.exponent := by omega
  rw [toRat, he, zpow_add₀ (by norm_num), zpow_natCast]
  gcongr
  exact_mod_cast ten_pow_length_le h

/-- A decimal number becomes a double in one rounding. -/
theorem lands_toFloat (d : Decimal) : Lands .positive d.toRat d.toFloat.toModel.unpack := by
  simp only [toFloat]
  rcases Nat.eq_zero_or_pos d.coefficient with hzero | hpos
  · rw [if_pos (.inl hzero)]
    apply Lands.of_zero _ unpack_zero
    simp [toRat, hzero, underflow]
  by_cases hlow : (toString d.coefficient).length + d.exponent < -400
  · rw [if_pos (.inr hlow)]
    exact Lands.of_zero (d.toRat_le.trans (ten_zpow_le_underflow (by omega))) unpack_zero
  rw [if_neg (not_or.2 ⟨hpos.ne', hlow⟩)]
  by_cases hhigh : 400 < (toString d.coefficient).length + d.exponent
  · rw [if_pos hhigh]
    apply Lands.of_infinity _ unpack_infinity
    exact (overflow_le_ten_zpow (by omega)).trans (le_toRat hpos)
  rw [if_neg hhigh]
  split
  · have hlands := lands_ofScientific_true hpos d.exponent.natAbs
    have he : -(d.exponent.natAbs : ℤ) = d.exponent := by omega
    rwa [he] at hlands
  · have hlands := lands_ofScientific_false hpos d.exponent.natAbs
    have he : (d.exponent.natAbs : ℤ) = d.exponent := by omega
    rwa [he] at hlands

theorem isInf_toFloat_iff (d : Decimal) : d.toFloat.isInf = true ↔ overflow ≤ d.toRat := by
  have hlands := d.lands_toFloat
  have hunpack : d.toFloat.isInf = d.toFloat.toModel.unpack.isInf := rfl
  rw [hunpack]
  rcases le_or_gt overflow d.toRat with hhigh | hhigh
  · rw [hlands.infinity hhigh]
    exact iff_of_true rfl hhigh
  · refine iff_of_false ?_ (not_le.2 hhigh)
    rcases le_or_gt d.toRat underflow with hlow | hlow
    · rw [hlands.zero hlow]
      simp [UnpackedFloat.isInf]
    · obtain ⟨m, e, hpos, hfinite⟩ := hlands.finite hlow hhigh
      rw [hfinite]
      simp [UnpackedFloat.isInf]

end Scientific

section Usable

/-- Whether a double is a finite number above zero. -/
def IsUsable (x : Float) : Prop :=
  x.isFinite = true ∧ 0 < x

theorem isUsable_iff {x : Float} :
    IsUsable x ↔ ∃ m e h, x.toModel.unpack = .finite .positive m e h := by
  have hzero : (0 : Float).toModel.unpack = .zero .positive := rfl
  have hlt : 0 < x ↔ UnpackedFloat.lt (.zero .positive) x.toModel.unpack = true :=
    decide_eq_true_iff
  have hfinite : x.isFinite = x.toModel.unpack.isFinite := rfl
  rw [IsUsable, hfinite, hlt]
  rcases hx : x.toModel.unpack with s | _ | s | ⟨s, m, e, h⟩
  · simp [UnpackedFloat.isFinite]
  · simp [UnpackedFloat.isFinite]
  · simp [UnpackedFloat.lt, UnpackedFloat.compare]
  · cases s <;> simp [UnpackedFloat.lt, UnpackedFloat.compare, UnpackedFloat.isFinite, h]

theorem isUsable_toFloat_iff (d : Decimal) :
    IsUsable d.toFloat ↔ underflow < d.toRat ∧ d.toRat < overflow := by
  have hlands := d.lands_toFloat
  rw [isUsable_iff]
  constructor
  · rintro ⟨m, e, h, hx⟩
    constructor
    · by_contra hlow
      have := hlands.zero (not_lt.1 hlow)
      simp [hx] at this
    · by_contra hhigh
      have := hlands.infinity (not_lt.1 hhigh)
      simp [hx] at this
  · rintro ⟨hlow, hhigh⟩
    exact hlands.finite hlow hhigh

theorem Lands.signed {s : Sign} {u : UnpackedFloat} (h : Lands s q u) : Signed s u := by
  rcases le_or_gt q underflow with hlow | hlow
  · rw [h.zero hlow]
    exact .zero
  rcases lt_or_ge q overflow with hhigh | hhigh
  · obtain ⟨m, e, hpos, rfl⟩ := h.finite hlow hhigh
    exact .finite m e hpos
  · rw [h.infinity hhigh]
    exact .infinity

theorem Signed.neg {u : UnpackedFloat} (h : Signed .positive u) : Signed .negative u.neg := by
  cases h with
  | zero => exact .zero
  | finite m e h => exact .finite m e h
  | infinity => exact .infinity

/-- No number is usable after a minus sign, also where it has become zero. -/
theorem not_isUsable_neg_toFloat (d : Decimal) : ¬IsUsable (-d.toFloat) := by
  have hsigned : Signed .negative (-d.toFloat).toModel.unpack :=
    d.lands_toFloat.signed.neg.unpack_pack
  rw [isUsable_iff]
  rintro ⟨m, e, h, hx⟩
  rw [hx] at hsigned
  cases hsigned

end Usable
end FlowCanvas.Decimal
