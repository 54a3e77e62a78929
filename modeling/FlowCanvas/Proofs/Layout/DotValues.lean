import Mathlib.Data.List.TakeWhile
import FlowCanvas.Proofs.Layout.DotReading
import FlowCanvas.Proofs.Text.Words

namespace FlowCanvas.Layout.Dot

def isWord : List Char → Bool
  | [] => false
  | c :: r => isWordStart c && r.all isWordChar

/-- A text that goes on neither with a word nor with a numeral. -/
def Ends (cs : List Char) : Prop :=
  ∀ c, cs.head? = some c → isWordChar c = false ∧ c ≠ '.'

def valueToken (cs : List Char) : Token :=
  if isBare cs then .word cs else .quoted cs

theorem Ends.nil : Ends [] := by
  simp [Ends]

theorem Ends.cons {c : Char} (h : isWordChar c = false) (hpoint : c ≠ '.') (r : List Char) :
    Ends (c :: r) := by
  intro d hd
  obtain rfl := Option.some.inj hd
  exact ⟨h, hpoint⟩

theorem Ends.takeWhile {p : Char → Bool} (hp : ∀ c, p c = true → isWordChar c = true)
    {cs : List Char} (h : Ends cs) : cs.takeWhile p = [] ∧ cs.dropWhile p = cs := by
  cases cs with
  | nil => simp
  | cons c r =>
    have hc : p c = false := by
      have hword := (h c rfl).1
      by_contra hpc
      simp [hp c (by simpa using hpc)] at hword
    simp [hc]

theorem isWordChar_of_isDigit (c : Char) (h : c.isDigit = true) : isWordChar c = true := by
  simp [isWordChar, h]

theorem isWordStart_of_isNameStart {c : Char} (h : isNameStart c = true) :
    isWordStart c = true := by
  simp only [isNameStart, Bool.or_eq_true] at h
  rcases h with h | h <;> simp [isWordStart, h]

section Tokens

theorem tokens?_white {c : Char} (h : isWhite c = true) (r : List Char) :
    tokens? (c :: r) = tokens? r := by
  rw [tokens?, if_pos h]

theorem tokens?_of_readToken? {c : Char} {r rest : List Char} {token : Token}
    (hwhite : isWhite c = false) (h : readToken? (c :: r) = some (token, rest)) :
    tokens? (c :: r) = (tokens? rest).map (token :: ·) := by
  rw [tokens?, if_neg (by simp [hwhite])]
  split
  · next heq =>
    obtain ⟨rfl, rfl⟩ := Prod.mk.inj (Option.some.inj (heq.symm.trans h))
    rfl
  · next heq => cases heq.symm.trans h

theorem tokens?_mark {c : Char} (h : c ∈ marks) (r : List Char) :
    tokens? (c :: r) = (tokens? r).map (.mark c :: ·) := by
  simp only [marks, List.mem_cons, List.not_mem_nil, or_false] at h
  apply tokens?_of_readToken?
  · rcases h with rfl | rfl | rfl | rfl | rfl | rfl | rfl | rfl <;> decide
  · rcases h with rfl | rfl | rfl | rfl | rfl | rfl | rfl | rfl <;> rfl

theorem tokens?_arrow (r : List Char) :
    tokens? ('-' :: '>' :: r) = (tokens? r).map (.arrow :: ·) :=
  tokens?_of_readToken? (by decide) rfl

theorem isWhite_of_isWordChar {c : Char} (h : isWordChar c = true) : isWhite c = false := by
  by_contra hwhite
  simp only [isWhite, Bool.not_eq_false, Bool.or_eq_true, decide_eq_true_eq] at hwhite
  rcases hwhite with ((rfl | rfl) | rfl) | rfl <;> simp [isWordChar, isWordStart] at h

theorem readToken?_cons {c : Char} (hquote : c ≠ '"') (hangle : c ≠ '<') {r : List Char}
    (harrow : ¬∃ r', c = '-' ∧ r = '>' :: r') :
    readToken? (c :: r) =
      if isWordStart c then some (.word (c :: r.takeWhile isWordChar), r.dropWhile isWordChar)
      else if marks.contains c then some (.mark c, r)
      else (readNumeral? (c :: r)).map fun (numeral, rest) => (.word numeral, rest) := by
  unfold readToken?
  split
  · next heq => cases heq
  · next heq => exact absurd (List.cons.inj heq).1 hquote
  · next heq => exact absurd (List.cons.inj heq).1 hangle
  · next r' heq => exact absurd ⟨r', (List.cons.inj heq).1, (List.cons.inj heq).2⟩ harrow
  · next heq =>
    obtain ⟨rfl, rfl⟩ := List.cons.inj heq
    rfl

theorem tokens?_word {w r : List Char} (hw : isWord w = true) (hr : Ends r) :
    tokens? (w ++ r) = (tokens? r).map (.word w :: ·) := by
  cases w with
  | nil => cases hw
  | cons c w =>
    obtain ⟨hstart, hword⟩ := Bool.and_eq_true_iff.1 hw
    have hwhite : isWhite c = false := isWhite_of_isWordChar (by simp [isWordChar, hstart])
    have hall : ∀ d ∈ w, isWordChar d = true := by simpa using hword
    apply tokens?_of_readToken? hwhite
    have hne : c ≠ '"' ∧ c ≠ '<' ∧ c ≠ '-' := by
      refine ⟨?_, ?_, ?_⟩ <;> rintro rfl <;> cases hstart
    rw [List.append_eq, readToken?_cons hne.1 hne.2.1 (fun ⟨_, h, _⟩ => hne.2.2 h), if_pos hstart,
      List.takeWhile_append_of_pos hall, List.dropWhile_append_of_pos hall,
      (hr.takeWhile fun _ h => h).1, (hr.takeWhile fun _ h => h).2, List.append_nil]

end Tokens

section Numerals

theorem unsignedPrefix_append {digits fraction r : List Char} (hd : ∀ c ∈ digits, c.isDigit = true)
    (hf : ∀ c ∈ fraction, c.isDigit = true) (hr : Ends r) :
    unsignedPrefix (digits ++ r) = digits ∧
      unsignedPrefix (digits ++ '.' :: fraction ++ r) = digits ++ '.' :: fraction := by
  obtain ⟨htake, hdrop⟩ := hr.takeWhile isWordChar_of_isDigit
  constructor
  · have hpoint : ∀ r', r ≠ '.' :: r' := by
      rintro r' rfl
      exact (hr '.' rfl).2 rfl
    rw [unsignedPrefix, List.takeWhile_append_of_pos hd, List.dropWhile_append_of_pos hd, htake,
      hdrop]
    split
    · next r' => exact absurd rfl (hpoint r')
    · simp
  · rw [List.append_assoc, List.cons_append, unsignedPrefix, List.takeWhile_append_of_pos hd,
      List.dropWhile_append_of_pos hd, List.takeWhile_cons_of_neg (by decide),
      List.dropWhile_cons_of_neg (by decide)]
    simp [List.takeWhile_append_of_pos hf, htake]

def isPlainMagnitude (body : List Char) : Bool :=
  match body.takeWhile Char.isDigit, body.dropWhile Char.isDigit with
  | [], '.' :: fraction => !fraction.isEmpty && fraction.all Char.isDigit
  | _ :: _, [] => true
  | _ :: _, '.' :: fraction => fraction.all Char.isDigit
  | _, _ => false

theorem exists_sign_of_isPlainNumber (cs : List Char) :
    ∃ sign body, (sign = [] ∨ sign = ['-']) ∧ cs = sign ++ body ∧
      isPlainNumber cs = isPlainMagnitude body := by
  by_cases hminus : ∃ r, cs = '-' :: r
  · obtain ⟨r, rfl⟩ := hminus
    exact ⟨['-'], r, .inr rfl, rfl, rfl⟩
  · refine ⟨[], cs, .inl rfl, rfl, ?_⟩
    unfold isPlainNumber
    split
    · next r => exact absurd ⟨r, rfl⟩ hminus
    · rfl

theorem exists_parts_of_isPlainNumber {cs : List Char} (h : isPlainNumber cs = true) :
    ∃ sign digits fraction, (sign = [] ∨ sign = ['-']) ∧ (∀ c ∈ digits, c.isDigit = true) ∧
      (∀ c ∈ fraction, c.isDigit = true) ∧ (digits ≠ [] ∧ cs = sign ++ digits ∨
        (digits ≠ [] ∨ fraction ≠ []) ∧ cs = sign ++ (digits ++ '.' :: fraction)) := by
  obtain ⟨sign, body, hsign, hcs, hbody⟩ := exists_sign_of_isPlainNumber cs
  have hsplit := List.takeWhile_append_dropWhile (p := Char.isDigit) (l := body)
  have hdigits : ∀ c ∈ body.takeWhile Char.isDigit, c.isDigit = true :=
    fun c hc => List.mem_takeWhile_imp hc
  rw [hbody, isPlainMagnitude] at h
  split at h
  · next fraction hd hf =>
    rw [hd, hf] at hsplit
    obtain ⟨hne, hall⟩ := Bool.and_eq_true_iff.1 h
    exact ⟨sign, [], fraction, hsign, by simp, by simpa using hall,
      .inr ⟨.inr (by simpa using hne), by rw [hcs, ← hsplit]⟩⟩
  · next c r hd hf =>
    rw [hd, hf, List.append_nil] at hsplit
    exact ⟨sign, c :: r, [], hsign, hd ▸ hdigits, by simp, .inl ⟨by simp, by rw [hcs, hsplit]⟩⟩
  · next c r fraction hd hf =>
    rw [hd, hf] at hsplit
    exact ⟨sign, c :: r, fraction, hsign, hd ▸ hdigits, by simpa using h,
      .inr ⟨.inl (by simp), by rw [hcs, ← hsplit]⟩⟩
  · cases h

theorem numeralPrefix_of_ne {c : Char} (h : c ≠ '-') (r : List Char) :
    numeralPrefix (c :: r) = unsignedPrefix (c :: r) := by
  unfold numeralPrefix
  split
  · next heq => exact absurd (List.cons.inj heq).1 h
  · rfl

theorem numeralPrefix_append {cs r : List Char} (h : isPlainNumber cs = true) (hr : Ends r) :
    numeralPrefix (cs ++ r) = cs := by
  obtain ⟨sign, digits, fraction, hsign, hd, hf, hcs⟩ := exists_parts_of_isPlainNumber h
  obtain ⟨hwhole, hpoint⟩ := unsignedPrefix_append hd hf hr
  obtain ⟨body, hne, hminus, rfl, hbody⟩ : ∃ body, body ≠ [] ∧ '-' ∉ body ∧ cs = sign ++ body ∧
      unsignedPrefix (body ++ r) = body := by
    have hdigit : ∀ ds : List Char, (∀ c ∈ ds, c.isDigit = true) → '-' ∉ ds :=
      fun ds hds hmem => absurd (hds _ hmem) (by decide)
    rcases hcs with ⟨hne, rfl⟩ | ⟨-, rfl⟩
    · exact ⟨digits, hne, hdigit _ hd, rfl, hwhole⟩
    · exact ⟨digits ++ '.' :: fraction, by simp, by simp [hdigit _ hd, hdigit _ hf], rfl, hpoint⟩
  rcases hsign with rfl | rfl
  · cases body with
    | nil => exact absurd rfl hne
    | cons c body =>
      have hc : c ≠ '-' := fun heq => hminus (heq ▸ List.mem_cons_self)
      exact (numeralPrefix_of_ne hc (body ++ r)).trans hbody
  · exact congrArg ('-' :: ·) hbody

theorem any_isDigit_of_isPlainNumber {cs : List Char} (h : isPlainNumber cs = true) :
    cs.any Char.isDigit = true := by
  obtain ⟨sign, digits, fraction, -, hd, hf, hcs⟩ := exists_parts_of_isPlainNumber h
  have hany : ∀ ds : List Char, ds ≠ [] → (∀ c ∈ ds, c.isDigit = true) →
      ds.any Char.isDigit = true := by
    intro ds hne hds
    obtain ⟨c, hc⟩ := List.exists_mem_of_ne_nil ds hne
    exact List.any_eq_true.2 ⟨c, hc, hds c hc⟩
  rcases hcs with ⟨hne, rfl⟩ | ⟨hne | hne, rfl⟩
  · simp [hany _ hne hd]
  · simp [hany _ hne hd]
  · simp [hany _ hne hf]

theorem mem_of_isPlainNumber {cs : List Char} (h : isPlainNumber cs = true) {c : Char}
    (hc : c ∈ cs) : c = '-' ∨ c = '.' ∨ c.isDigit = true := by
  obtain ⟨sign, digits, fraction, hsign, hd, hf, hcs⟩ := exists_parts_of_isPlainNumber h
  have hsigned : c ∈ sign → c = '-' := by
    rcases hsign with rfl | rfl <;> simp
  rcases hcs with ⟨-, rfl⟩ | ⟨-, rfl⟩
  · rcases List.mem_append.1 hc with hc | hc
    · exact .inl (hsigned hc)
    · exact .inr (.inr (hd c hc))
  · simp only [List.mem_append, List.mem_cons] at hc
    rcases hc with hc | hc | hc | hc
    · exact .inl (hsigned hc)
    · exact .inr (.inr (hd c hc))
    · exact .inr (.inl hc)
    · exact .inr (.inr (hf c hc))

theorem starts_numeral {c : Char} (h : c = '-' ∨ c = '.' ∨ c.isDigit = true) :
    isWhite c = false ∧ c ≠ '"' ∧ c ≠ '<' ∧ c ≠ '>' ∧ isWordStart c = false ∧
      c ∉ marks := by
  have hcode : c.toNat < 128 := by
    rcases h with rfl | rfl | h
    · decide
    · decide
    · have : c.toNat ≤ 57 := (Char.isDigit_iff_toNat.1 h).2
      omega
  exact Text.of_ascii (P := fun c => (c = '-' ∨ c = '.' ∨ c.isDigit = true) →
    isWhite c = false ∧ c ≠ '"' ∧ c ≠ '<' ∧ c ≠ '>' ∧ isWordStart c = false ∧
      c ∉ marks) (by decide +kernel) hcode h

theorem tokens?_number {cs r : List Char} (h : isPlainNumber cs = true) (hr : Ends r) :
    tokens? (cs ++ r) = (tokens? r).map (.word cs :: ·) := by
  have hany := any_isDigit_of_isPlainNumber h
  have hmem := fun c => mem_of_isPlainNumber h (c := c)
  have hread : readNumeral? (cs ++ r) = some (cs, r) := by
    rw [readNumeral?, numeralPrefix_append h hr, if_pos hany, List.drop_left]
  cases cs with
  | nil => cases h
  | cons c cs =>
    obtain ⟨hwhite, hquote, hangle, -, hstart, hmark⟩ := starts_numeral (hmem c List.mem_cons_self)
    have harrow : ¬∃ r', c = '-' ∧ cs ++ r = '>' :: r' := by
      rintro ⟨r', rfl, heq⟩
      cases cs with
      | nil => cases hany
      | cons d cs =>
        obtain ⟨rfl, -⟩ := List.cons.inj heq
        exact (starts_numeral (hmem '>' (by simp))).2.2.2.1 rfl
    apply tokens?_of_readToken? hwhite
    have hcons : readNumeral? (c :: (cs ++ r)) = some (c :: cs, r) := hread
    rw [List.append_eq, readToken?_cons hquote hangle harrow, hcons]
    simp [hstart, hmark]

end Numerals

section Escapes

theorem escapeLabel_cons (c : Char) (r : List Char) :
    escapeLabel (c :: r) =
      (if c = '\\' then ['\\', '\\'] else if c = '\n' then ['\\', 'n'] else [c]) ++
        escapeLabel r :=
  List.flatMap_cons

/-- Two backslashes in a run do not change what comes after it. -/
theorem escapeQuotes_add_two (run : Nat) (cs : List Char) :
    escapeQuotes (run + 2) cs = '\\' :: '\\' :: escapeQuotes run cs := by
  induction cs generalizing run with
  | nil => simp [escapeQuotes, List.replicate_succ]
  | cons c r ih =>
    by_cases hback : c = '\\'
    · rw [escapeQuotes, escapeQuotes, if_pos hback, if_pos hback]
      exact ih (run + 1)
    · have hparity : run + 2 - (run + 2) % 2 = run - run % 2 + 2 := by omega
      rw [escapeQuotes, escapeQuotes, if_neg hback, if_neg hback, hparity]
      split <;> simp [List.replicate_succ]

/-- An escaped label in quotes is read up to the mark that closes it. -/
theorem readQuoted?_escapeLabel (label r : List Char) :
    readQuoted? (escapeQuotes 0 (escapeLabel label) ++ '"' :: r) = some (escapeLabel label, r) := by
  induction label with
  | nil => rfl
  | cons c label ih =>
    rw [escapeLabel_cons]
    by_cases hback : c = '\\'
    · -- Both backslashes count as a run, which is even and so does not escape what comes next.
      subst hback
      have hrun : escapeQuotes 0 ('\\' :: '\\' :: escapeLabel label) =
          '\\' :: '\\' :: escapeQuotes 0 (escapeLabel label) :=
        escapeQuotes_add_two 0 (escapeLabel label)
      simp [hrun, readQuoted?, ih]
    · by_cases hbreak : c = '\n'
      · subst hbreak
        simp [escapeQuotes, readQuoted?, ih]
      · by_cases hquote : c = '"'
        · subst hquote
          simp [escapeQuotes, readQuoted?, ih]
        · simp [hback, hbreak, hquote, escapeQuotes, readQuoted?, ih]

@[simp] theorem unescape?_escapeLabel (label : List Char) :
    unescape? (escapeLabel label) = some label := by
  induction label with
  | nil => rfl
  | cons c label ih =>
    rw [escapeLabel_cons]
    by_cases hback : c = '\\'
    · subst hback
      simp [unescape?, ih]
    · by_cases hbreak : c = '\n'
      · subst hbreak
        simp [unescape?, ih]
      · simp [hback, hbreak, unescape?, ih]

theorem break_not_mem_escapeLabel (label : List Char) : '\n' ∉ escapeLabel label := by
  intro hmem
  obtain ⟨c, -, hc⟩ := List.mem_flatMap.1 hmem
  split at hc
  · simp at hc
  · split at hc
    · simp at hc
    · next hbreak => exact hbreak (List.mem_singleton.1 hc).symm

theorem escapeLabel_of_not_mem {label : List Char} (h : '\\' ∉ escapeLabel label) :
    escapeLabel label = label := by
  induction label with
  | nil => rfl
  | cons c label ih =>
    rw [escapeLabel_cons] at h ⊢
    split at h
    · simp at h
    · split at h
      · simp at h
      · next hback hbreak =>
        rw [if_neg hback, if_neg hbreak, List.singleton_append,
          ih fun hmem => h (List.mem_append_right _ hmem)]

theorem getLast?_escapeLabel_iff (label : List Char) :
    (escapeLabel label).getLast? = some '>' ↔ label.getLast? = some '>' := by
  rcases List.eq_nil_or_concat label with rfl | ⟨front, c, rfl⟩
  · rfl
  · have hconcat : escapeLabel (front ++ [c]) = escapeLabel front ++ escapeLabel [c] :=
      List.flatMap_append
    rw [List.concat_eq_append, hconcat, escapeLabel_cons]
    by_cases hback : c = '\\'
    · subst hback
      simp [escapeLabel]
    · by_cases hbreak : c = '\n'
      · subst hbreak
        simp [escapeLabel]
      · simp [escapeLabel, hback, hbreak]

/-- Escaping a label makes it neither markup nor text. -/
@[simp] theorem isMarkup_escapeLabel (label : List Char) :
    isMarkup (escapeLabel label) = isMarkup label := by
  cases label with
  | nil => rfl
  | cons c r =>
    by_cases hangle : c = '<'
    · subst hangle
      have hlast := getLast?_escapeLabel_iff r
      rw [escapeLabel_cons]
      simpa [isMarkup] using hlast
    · have hnot : ∀ d ds, d ≠ '<' → isMarkup (d :: ds) = false := by
        intro d ds hd
        unfold isMarkup
        split
        · next heq => exact absurd (List.cons.inj heq).1 hd
        · rfl
      rw [escapeLabel_cons, hnot c r hangle]
      split
      · exact hnot _ _ (by decide)
      · split
        · exact hnot _ _ (by decide)
        · exact hnot _ _ hangle

end Escapes

theorem isWord_of_isPlainName {cs : List Char} (h : isPlainName cs = true) : isWord cs = true := by
  cases cs with
  | nil => cases h
  | cons c r =>
    obtain ⟨hstart, hrest⟩ := Bool.and_eq_true_iff.1 h
    refine Bool.and_eq_true_iff.2 ⟨isWordStart_of_isNameStart hstart, List.all_eq_true.2 ?_⟩
    intro d hd
    rcases Bool.or_eq_true_iff.1 (List.all_eq_true.1 hrest d hd) with hd | hd
    · simp [isWordChar, isWordStart_of_isNameStart hd]
    · exact isWordChar_of_isDigit d hd

theorem isWordChar_or_of_isBare {cs : List Char} (h : isBare cs = true) {c : Char} (hc : c ∈ cs) :
    isWordChar c = true ∨ c = '-' ∨ c = '.' := by
  rcases Bool.or_eq_true_iff.1 (Bool.and_eq_true_iff.1 h).1 with hname | hnumber
  · have hword := isWord_of_isPlainName hname
    cases cs with
    | nil => cases hword
    | cons d r =>
      obtain ⟨hstart, hrest⟩ := Bool.and_eq_true_iff.1 hword
      rcases List.mem_cons.1 hc with rfl | hc
      · exact .inl (by simp [isWordChar, hstart])
      · exact .inl (List.all_eq_true.1 hrest c hc)
  · rcases mem_of_isPlainNumber hnumber hc with rfl | rfl | hdigit
    · exact .inr (.inl rfl)
    · exact .inr (.inr rfl)
    · exact .inl (isWordChar_of_isDigit c hdigit)

theorem not_mem_of_isBare {cs : List Char} (h : isBare cs = true) {c : Char}
    (hc : isWordChar c = false ∧ c ≠ '-' ∧ c ≠ '.') : c ∉ cs := by
  intro hmem
  rcases isWordChar_or_of_isBare h hmem with hword | hminus | hpoint
  · simp [hc.1] at hword
  · exact hc.2.1 hminus
  · exact hc.2.2 hpoint

@[simp] theorem label?_valueToken (label : List Char) :
    (valueToken (escapeLabel label)).label? = some label := by
  unfold valueToken
  split
  · next hbare =>
    have hkeyword : isKeyword (escapeLabel label) = false := by
      simpa using (Bool.and_eq_true_iff.1 hbare).2
    rw [Token.label?, hkeyword, escapeLabel_of_not_mem (not_mem_of_isBare hbare (by decide))]
    rfl
  · exact unescape?_escapeLabel label

@[simp] theorem isId_valueToken (cs : List Char) : (valueToken cs).isId = true := by
  unfold valueToken
  split
  · next hbare => exact (Bool.and_eq_true_iff.1 hbare).2
  · rfl

/-- Whether a value is read as it was meant, unless it is markup: it needs no quotes, or what stands
in them is an escaped label. -/
def IsLegible (cs : List Char) : Prop :=
  isBare cs = true ∨ ∃ label, cs = escapeLabel label

theorem tokens?_value {cs r : List Char} (hlegible : IsLegible cs) (hmarkup : isMarkup cs = false)
    (hr : Ends r) : tokens? (attributeValue cs ++ r) = (tokens? r).map (valueToken cs :: ·) := by
  by_cases hbare : isBare cs = true
  · have hvalue : attributeValue cs = cs := by
      rw [attributeValue, if_neg (by simp [hmarkup])]
      exact if_pos hbare
    rw [hvalue, valueToken, if_pos hbare]
    rcases Bool.or_eq_true_iff.1 (Bool.and_eq_true_iff.1 hbare).1 with hname | hnumber
    · exact tokens?_word (isWord_of_isPlainName hname) hr
    · exact tokens?_number hnumber hr
  · obtain ⟨label, rfl⟩ := hlegible.resolve_left hbare
    have hvalue : attributeValue (escapeLabel label) =
        '"' :: escapeQuotes 0 (escapeLabel label) ++ ['"'] := by
      rw [attributeValue, if_neg (by simp [hmarkup])]
      exact if_neg hbare
    rw [hvalue, valueToken, if_neg hbare]
    apply tokens?_of_readToken? (by decide)
    simp [readToken?, readQuoted?_escapeLabel]

theorem tokens?_markup {cs : List Char} (h : isMarkup cs = true) (r : List Char)
    {ts : List Token} (hread : tokens? (attributeValue cs ++ r) = some ts) :
    ∃ inside rest, ts = .markup inside :: rest := by
  have hvalue : attributeValue cs = cs := if_pos h
  obtain ⟨inner, rfl⟩ : ∃ inner, cs = '<' :: inner := by
    unfold isMarkup at h
    split at h
    · exact ⟨_, rfl⟩
    · cases h
  rw [hvalue, List.cons_append, tokens?, if_neg (by decide)] at hread
  split at hread
  · next token rest htoken =>
    obtain ⟨⟨inside, rest'⟩, -, heq⟩ := Option.map_eq_some_iff.1 htoken
    obtain ⟨rfl, rfl⟩ := Prod.mk.inj heq
    obtain ⟨more, -, rfl⟩ := Option.map_eq_some_iff.1 hread
    exact ⟨inside, more, rfl⟩
  · cases hread

end FlowCanvas.Layout.Dot
