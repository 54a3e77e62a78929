import FlowCanvas.Text.Utf8

namespace FlowCanvas.Text.Utf8

section Decode
variable {a b c d : UInt8} (position : Nat) (r : List UInt8)

theorem isContinuation_iff : isContinuation b = true ↔ 128 ≤ b.toNat ∧ b.toNat < 192 := by
  simp [isContinuation, UInt8.le_iff_toNat_le, UInt8.lt_iff_toNat_lt]

theorem mayFollow_iff : mayFollow a b = true ↔ (128 ≤ b.toNat ∧ b.toNat < 192) ∧
    (a.toNat = 224 → 160 ≤ b.toNat) ∧ (a.toNat = 237 → b.toNat < 160) ∧
    (a.toNat = 240 → 144 ≤ b.toNat) ∧ (a.toNat = 244 → b.toNat < 144) := by
  simp only [mayFollow, Bool.and_eq_true, isContinuation_iff, Bool.not_eq_true',
    Bool.and_eq_false_iff, beq_eq_false_iff_ne, ne_eq, decide_eq_false_iff_not, ← UInt8.toNat_inj,
    UInt8.le_iff_toNat_le, UInt8.lt_iff_toNat_lt]
  simp only [UInt8.reduceToNat]
  omega

theorem decodeFrom_one (ha : a.toNat < 128) :
    decodeFrom position (a :: r) =
      (decodeFrom (position + 1) r).map (Char.ofNat a.toNat :: ·) := by
  have hsmall : a < 128 := UInt8.lt_iff_toNat_lt.2 ha
  rw [decodeFrom.eq_def]
  simp only [hsmall, if_true]

theorem first_of (ha : 194 ≤ a.toNat ∧ a.toNat < 245) : ¬ a < 128 ∧ ¬ (a < 194 ∨ 245 ≤ a) := by
  simp only [UInt8.lt_iff_toNat_lt, UInt8.le_iff_toNat_le, UInt8.reduceToNat]
  omega

theorem decodeFrom_two (ha : 194 ≤ a.toNat ∧ a.toNat < 224) (hb : mayFollow a b = true) :
    decodeFrom position (a :: b :: r) =
      (decodeFrom (position + 2) r).map (Char.ofNat (a.toNat % 32 * 64 + low6 b) :: ·) := by
  obtain ⟨hlong, hstart⟩ : ¬ a < 128 ∧ ¬ (a < 194 ∨ 245 ≤ a) := first_of (by omega)
  have htwo : a < 224 := UInt8.lt_iff_toNat_lt.2 ha.2
  rw [decodeFrom.eq_def]
  simp only [hlong, hstart, hb, htwo, Bool.not_true, Bool.false_eq_true, if_false, if_true]

theorem decodeFrom_three (ha : 224 ≤ a.toNat ∧ a.toNat < 240) (hb : mayFollow a b = true)
    (hc : isContinuation c = true) :
    decodeFrom position (a :: b :: c :: r) =
      (decodeFrom (position + 3) r).map
        (Char.ofNat ((a.toNat % 16 * 64 + low6 b) * 64 + low6 c) :: ·) := by
  obtain ⟨hlong, hstart⟩ : ¬ a < 128 ∧ ¬ (a < 194 ∨ 245 ≤ a) := first_of (by omega)
  have htwo : ¬ a < 224 := by
    simp only [UInt8.lt_iff_toNat_lt, UInt8.reduceToNat]
    omega
  have hthree : a < 240 := UInt8.lt_iff_toNat_lt.2 ha.2
  rw [decodeFrom.eq_def]
  simp only [hlong, hstart, hb, hc, htwo, hthree, Bool.not_true, Bool.false_eq_true, if_false,
    if_true]

theorem decodeFrom_four (ha : 240 ≤ a.toNat ∧ a.toNat < 245) (hb : mayFollow a b = true)
    (hc : isContinuation c = true) (hd : isContinuation d = true) :
    decodeFrom position (a :: b :: c :: d :: r) =
      (decodeFrom (position + 4) r).map
        (Char.ofNat (((a.toNat % 8 * 64 + low6 b) * 64 + low6 c) * 64 + low6 d) :: ·) := by
  obtain ⟨hlong, hstart⟩ : ¬ a < 128 ∧ ¬ (a < 194 ∨ 245 ≤ a) := first_of (by omega)
  have hmore : ¬ a < 224 ∧ ¬ a < 240 := by
    simp only [UInt8.lt_iff_toNat_lt, UInt8.reduceToNat]
    omega
  rw [decodeFrom.eq_def]
  simp only [hlong, hstart, hb, hc, hd, hmore, Bool.not_true, Bool.false_eq_true, if_false]

end Decode

section Encode

theorem toNat_byte {n : Nat} (h : n < 256) : (UInt8.ofNat n).toNat = n :=
  UInt8.toNat_ofNat_of_lt' h

theorem toNat_tail (n : Nat) : (UInt8.ofNat (n % 64 + 128)).toNat = n % 64 + 128 :=
  toNat_byte (by omega)

theorem isContinuation_tail (n : Nat) : isContinuation (UInt8.ofNat (n % 64 + 128)) = true := by
  rw [isContinuation_iff, toNat_tail]
  omega

@[simp] theorem low6_tail (n : Nat) : low6 (UInt8.ofNat (n % 64 + 128)) = n % 64 := by
  rw [low6, toNat_tail]
  omega

/-- A character, encoded, is decoded as itself, whatever follows. -/
theorem decodeFrom_encoded (c : Char) (position : Nat) (r : List UInt8) : ∃ next,
    decodeFrom position (String.utf8EncodeChar c ++ r) = (decodeFrom next r).map (c :: ·) := by
  have hvalid : c.toNat < 55296 ∨ 57343 < c.toNat ∧ c.toNat < 1114112 := c.valid
  have hself : Char.ofNat c.toNat = c := Char.ofNat_toNat c
  have hval : c.val.toNat = c.toNat := rfl
  rw [String.utf8EncodeChar, hval]
  generalize c.toNat = v at hvalid hself
  have htail := toNat_tail (v / 64)
  obtain h | h | h | h : v ≤ 127 ∨ (127 < v ∧ v ≤ 2047) ∨ (2047 < v ∧ v ≤ 65535) ∨ 65535 < v := by
    omega
  · have hlead := toNat_byte (n := v) (by omega)
    rw [if_pos h, List.singleton_append, decodeFrom_one position r (by omega), hlead, hself]
    exact ⟨_, rfl⟩
  · have hlead := toNat_byte (n := v / 64 % 32 + 192) (by omega)
    have hlast := toNat_tail v
    have hfollows : mayFollow (UInt8.ofNat (v / 64 % 32 + 192)) (UInt8.ofNat (v % 64 + 128)) := by
      rw [mayFollow_iff, hlead, hlast]
      omega
    have hcode : (v / 64 % 32 + 192) % 32 * 64 + v % 64 = v := by omega
    rw [if_neg (by omega), if_pos h.2, List.cons_append, List.singleton_append,
      decodeFrom_two position r (by omega) hfollows, low6_tail, hlead, hcode, hself]
    exact ⟨_, rfl⟩
  · have hlead := toNat_byte (n := v / 4096 % 16 + 224) (by omega)
    have hfollows : mayFollow (UInt8.ofNat (v / 4096 % 16 + 224))
        (UInt8.ofNat (v / 64 % 64 + 128)) := by
      -- The second byte is high enough since the form is not overlong, and low enough since no
      -- character is a surrogate.
      rw [mayFollow_iff, hlead, htail]
      omega
    have hcode : ((v / 4096 % 16 + 224) % 16 * 64 + v / 64 % 64) * 64 + v % 64 = v := by omega
    rw [if_neg (by omega), if_neg (by omega), if_pos h.2]
    simp only [List.cons_append, List.nil_append]
    rw [decodeFrom_three position r (by omega) hfollows (isContinuation_tail v), low6_tail,
      low6_tail, hlead, hcode, hself]
    exact ⟨_, rfl⟩
  · have hlead := toNat_byte (n := v / 262144 % 8 + 240) (by omega)
    have hsecond := toNat_tail (v / 4096)
    have hfollows : mayFollow (UInt8.ofNat (v / 262144 % 8 + 240))
        (UInt8.ofNat (v / 4096 % 64 + 128)) := by
      rw [mayFollow_iff, hlead, hsecond]
      omega
    have hcode : (((v / 262144 % 8 + 240) % 8 * 64 + v / 4096 % 64) * 64 + v / 64 % 64) * 64 +
        v % 64 = v := by omega
    rw [if_neg (by omega), if_neg (by omega), if_neg (by omega)]
    simp only [List.cons_append, List.nil_append]
    rw [decodeFrom_four position r (by omega) hfollows (isContinuation_tail (v / 64))
      (isContinuation_tail v), low6_tail, low6_tail, low6_tail, hlead, hcode, hself]
    exact ⟨_, rfl⟩

theorem decodeFrom_encoded_all (cs : List Char) (position : Nat) :
    decodeFrom position (cs.flatMap String.utf8EncodeChar) = .ok cs := by
  induction cs generalizing position with
  | nil => rfl
  | cons c r ih =>
    obtain ⟨next, hfirst⟩ :=
      decodeFrom_encoded c position (r.flatMap String.utf8EncodeChar)
    rw [List.flatMap_cons, hfirst, ih]
    rfl

theorem toList_loop_eq (bytes : ByteArray) (i : Nat) (r : List UInt8) :
    ByteArray.toList.loop bytes i r = r.reverse ++ bytes.data.toList.drop i := by
  fun_induction ByteArray.toList.loop bytes i r with
  | case1 i r hlt ih =>
    have hi : i < bytes.data.toList.length := by simpa using hlt
    rw [ih, List.drop_eq_getElem_cons hi]
    simp [ByteArray.get!, hlt]
  | case2 i r hlt =>
    have hlen : bytes.data.toList.length ≤ i := by simpa using Nat.le_of_not_lt hlt
    rw [List.drop_eq_nil_of_le hlen, List.append_nil]

theorem encode_eq (cs : List Char) : encode cs = cs.flatMap String.utf8EncodeChar := by
  rw [encode, ByteArray.toList, toList_loop_eq]
  exact List.toList_data_toByteArray

/-- Every text reads back from its encoding. -/
theorem decode_encode (cs : List Char) : decode (encode cs) = .ok cs := by
  rw [encode_eq]
  exact decodeFrom_encoded_all cs 0

end Encode
end FlowCanvas.Text.Utf8
