import FlowCanvas.Proofs.Diagram.Lines
import FlowCanvas.Proofs.Text.Cuts
import FlowCanvas.Proofs.Text.Spacing

namespace FlowCanvas.Diagram
open Text

abbrev titleWord : List Char := ['f', 'l', 'o', 'w']

def Header.titled (header : Header) (value : List Char) : Header :=
  if value = [] then header
  else { header with title := some (String.ofList (Label.clean value)) }

def Header.directed (header : Header) (value : List Char) : Except Fault Header :=
  match Direction.ofName? (String.ofList (upper value)) with
  | some direction => .ok { header with direction }
  | none => .error (.unknownDirection (String.ofList value))

/-- What ends the word of a header line. -/
def isHeaderMark (c : Char) : Bool :=
  c = ' ' || c = ':'

/-- What follows the first space or colon of a text, trimmed and without the colons before it. -/
def headerValue (cs : List Char) : List Char :=
  trim ((trim ((cs.dropWhile (!isHeaderMark ·)).drop 1)).dropWhile (· = ':'))

def bareValue (cs : List Char) : List Char :=
  trimEnd (cs.dropWhile fun c => isBlank c || c = ':')

section Cut
variable {cs before : List Char} {s : Char}

theorem span_of_mark (h : ∀ c ∈ before, isHeaderMark c = false) (hs : isHeaderMark s = true)
    (after : List Char) :
    (before ++ s :: after).takeWhile (!isHeaderMark ·) = before ∧
      (before ++ s :: after).dropWhile (!isHeaderMark ·) = s :: after := by
  have hbefore : ∀ c ∈ before, (!isHeaderMark c) = true := by simpa using h
  rw [List.takeWhile_append_of_pos hbefore, List.dropWhile_append_of_pos hbefore]
  simp [hs]

theorem span_of_no_mark (h : ∀ c ∈ cs, isHeaderMark c = false) :
    cs.takeWhile (!isHeaderMark ·) = cs ∧ cs.dropWhile (!isHeaderMark ·) = [] := by
  have hall : ∀ c ∈ cs, (!isHeaderMark c) = true := by simpa using h
  exact ⟨List.takeWhile_eq_self_iff.2 hall, List.dropWhile_eq_nil_iff.2 hall⟩

theorem eq_append_of_cut_colon {word value : List Char}
    (hcut : cutAt? (· = ':') cs = some (word, value)) (hspace : ∀ c ∈ cs, c ≠ ' ') :
    cs = word ++ ':' :: value ∧ ∀ c ∈ word, isHeaderMark c = false := by
  obtain ⟨s, hs, heq⟩ := eq_append_of_cutAt? hcut
  obtain rfl : s = ':' := of_decide_eq_true hs
  refine ⟨heq, fun c hc => ?_⟩
  have hfree := eq_false_of_cutAt? hcut c hc
  have hword := hspace c (by simp [heq, hc])
  simpa [isHeaderMark, hword] using hfree

theorem no_mark_of_no_colon (hcut : cutAt? (· = ':') cs = none) (hspace : ∀ c ∈ cs, c ≠ ' ') :
    ∀ c ∈ cs, isHeaderMark c = false := by
  intro c hc
  have hfree := cutAt?_eq_none_iff.1 hcut c hc
  simpa [isHeaderMark, hspace c hc] using hfree

end Cut

/-- A header line is cut at its first space or colon, although the first space is looked for before
any colon. -/
theorem headerParts_eq (cs : List Char) :
    headerParts cs = (cs.takeWhile (!isHeaderMark ·), headerValue cs) := by
  unfold headerParts headerValue
  -- Nothing before the first space is a space, so there the first mark is a colon or none.
  cases hspace : cutAt? (· = ' ') cs with
  | some cut =>
    obtain ⟨word, value⟩ := cut
    obtain ⟨s, hs, heq⟩ := eq_append_of_cutAt? hspace
    obtain rfl : s = ' ' := of_decide_eq_true hs
    have hword : ∀ c ∈ word, c ≠ ' ' := by
      simpa using eq_false_of_cutAt? hspace
    cases hcut : cutAt? (· = ':') word with
    | some cut =>
      obtain ⟨w, rest⟩ := cut
      obtain ⟨rfl, hfree⟩ := eq_append_of_cut_colon hcut hword
      obtain ⟨htake, hdrop⟩ := span_of_mark hfree (show isHeaderMark ':' = true by decide)
        (rest ++ ' ' :: value)
      have hcs : cs = w ++ ':' :: (rest ++ ' ' :: value) := by simp [heq]
      rw [hcs, htake, hdrop]
      simp [hcut]
    | none =>
      obtain ⟨htake, hdrop⟩ := span_of_mark (no_mark_of_no_colon hcut hword)
        (show isHeaderMark ' ' = true by decide) value
      rw [heq, htake, hdrop]
      simp [hcut]
  | none =>
    have hword : ∀ c ∈ cs, c ≠ ' ' := by
      simpa using cutAt?_eq_none_iff.1 hspace
    cases hcut : cutAt? (· = ':') cs with
    | some cut =>
      obtain ⟨w, rest⟩ := cut
      obtain ⟨rfl, hfree⟩ := eq_append_of_cut_colon hcut hword
      obtain ⟨htake, hdrop⟩ := span_of_mark hfree (show isHeaderMark ':' = true by decide) rest
      have hblank : AreBlank [' '] := by simp [AreBlank, isBlank_space]
      rw [htake, hdrop]
      simp [hcut, hblank.trim_append]
    | none =>
      obtain ⟨htake, hdrop⟩ := span_of_no_mark (no_mark_of_no_colon hcut hword)
      rw [htake, hdrop]
      simp [hcut]

section Values
variable {cs : List Char}

theorem bareValue_eq {lead value trail : List Char}
    (hlead : ∀ c ∈ lead, isBlank c = true ∨ c = ':')
    (hstart : ∀ c, value.head? = some c → isBlank c = false ∧ c ≠ ':')
    (hfinish : ∀ c, value.getLast? = some c → isBlank c = false) (htrail : AreBlank trail) :
    bareValue (lead ++ (value ++ trail)) = value := by
  rw [bareValue, List.dropWhile_append_of_pos (by simpa using hlead)]
  cases value with
  | nil =>
    have hall : ∀ c ∈ trail, (isBlank c || decide (c = ':')) = true := by
      intro c hc
      simp [htrail c hc]
    rw [List.nil_append, List.dropWhile_eq_nil_iff.2 hall]
    rfl
  | cons c r =>
    have hc := hstart c rfl
    have hstop : (c :: r ++ trail).dropWhile (fun c => isBlank c || decide (c = ':')) =
        c :: r ++ trail := by simp [hc]
    rw [hstop, htrail.trimEnd_append, trimEnd_of_last hfinish]

/-- What is taken off a text for its value: blanks and colons before it and blanks after it. -/
theorem exists_stripped_eq (cs : List Char) :
    ∃ lead trail, (∀ c ∈ lead, isBlank c = true ∨ c = ':') ∧ AreBlank trail ∧
      cs = lead ++ (trim ((trim cs).dropWhile (· = ':')) ++ trail) := by
  obtain ⟨lead, trail, hlead, htrail, heq⟩ := exists_trim_eq cs
  obtain ⟨lead', trail', hlead', htrail', heq'⟩ := exists_trim_eq ((trim cs).dropWhile (· = ':'))
  have hcolons := List.takeWhile_append_dropWhile (p := (· = ':')) (l := trim cs)
  rw [heq'] at hcolons
  refine ⟨lead ++ ((trim cs).takeWhile (· = ':') ++ lead'), trail' ++ trail, ?_, ?_, ?_⟩
  · intro c hc
    simp only [List.mem_append] at hc
    rcases hc with hc | hc | hc
    · exact .inl (hlead c hc)
    · exact .inr (by simpa using List.mem_takeWhile_imp hc)
    · exact .inl (hlead' c hc)
  · exact List.forall_mem_append.2 ⟨htrail', htrail⟩
  · conv_lhs => rw [heq, ← hcolons]
    simp only [List.append_assoc]

/-- If only blanks stand before the first space or colon, the value is the text without the blanks
and colons around it, unless a colon is left at its start. -/
theorem headerValue_eq_bareValue_iff (h : AreBlank (cs.takeWhile (!isHeaderMark ·))) :
    headerValue cs = bareValue cs ↔ (headerValue cs).head? ≠ some ':' := by
  constructor
  · intro heq hcolon
    rw [heq, bareValue] at hcolon
    have hstop := eq_false_of_head?_dropWhile (head?_of_trimEnd hcolon)
    exact absurd hstop (by decide)
  · intro hhead
    obtain ⟨lead, trail, hlead, htrail, hrest⟩ :=
      exists_stripped_eq ((cs.dropWhile (!isHeaderMark ·)).drop 1)
    rw [← headerValue] at hrest
    have hmark : ∀ c ∈ (cs.dropWhile (!isHeaderMark ·)).take 1, isBlank c = true ∨ c = ':' := by
      intro c hc
      have hstart : (cs.dropWhile (!isHeaderMark ·)).head? = some c := by
        rw [List.take_one] at hc
        exact Option.mem_toList.1 hc
      have hheader : c = ' ' ∨ c = ':' := by
        simpa [isHeaderMark, or_iff_not_imp_left] using eq_false_of_head?_dropWhile hstart
      rcases hheader with rfl | rfl
      · exact .inl isBlank_space
      · exact .inr rfl
    -- Before the value stand blanks, the mark, and what is taken off after it.
    have hcs : cs = (cs.takeWhile (!isHeaderMark ·) ++
        ((cs.dropWhile (!isHeaderMark ·)).take 1 ++ lead)) ++ (headerValue cs ++ trail) := by
      conv_lhs => rw [← List.takeWhile_append_dropWhile (p := (!isHeaderMark ·)) (l := cs),
        ← List.take_append_drop 1 (cs.dropWhile (!isHeaderMark ·)), hrest]
      simp only [List.append_assoc]
    conv_rhs => rw [hcs]
    refine (bareValue_eq ?_ (fun c hc => ⟨isBlank_of_head?_trim hc, ?_⟩)
      (fun c hc => isBlank_of_getLast?_trim hc) htrail).symm
    · intro c hc
      simp only [List.mem_append] at hc
      rcases hc with hc | hc | hc
      · exact .inl (h c hc)
      · exact hmark c hc
      · exact hlead c hc
    · rintro rfl
      exact hhead hc

end Values

section Words
variable {cs word rest : List Char}

/-- What follows the word of a header line sets it off from its value: a space, a colon or
nothing. -/
def IsSetOff (rest : List Char) : Prop :=
  ∀ c, rest.head? = some c → isHeaderMark c = true

theorem takeWhile_eq_nil_iff_isSetOff : rest.takeWhile (!isHeaderMark ·) = [] ↔ IsSetOff rest := by
  cases rest with
  | nil => simp [IsSetOff]
  | cons c r => by_cases hc : isHeaderMark c <;> simp [IsSetOff, hc]

theorem exists_word_of_classify (h : classify cs = .header) :
    ∃ word ∈ headerWords, ∃ rest, cs = word ++ rest ∧
      ∀ c, rest.head? = some c → isBlank c = true ∨ c = ':' := by
  have hstarts : startsHeader cs = true := by
    unfold classify at h
    grind
  obtain ⟨word, hword, hmatch⟩ := List.any_eq_true.1 hstarts
  obtain ⟨hhead, hnext⟩ := Bool.and_eq_true_iff.1 hmatch
  obtain ⟨rest, rfl⟩ := List.isPrefixOf_iff_prefix.1 hhead
  refine ⟨word, hword, rest, rfl, fun c hc => ?_⟩
  rw [List.drop_left] at hnext
  cases rest with
  | nil => cases hc
  | cons d r =>
    obtain rfl : d = c := Option.some.inj hc
    simpa using hnext

theorem headerParts_word (hword : word ∈ headerWords) (rest : List Char) :
    headerParts (word ++ rest) = (word ++ rest.takeWhile (!isHeaderMark ·), headerValue rest) := by
  have hplain : headerWords.all (·.all (!isHeaderMark ·)) = true := by decide
  have hfree : ∀ c ∈ word, (!isHeaderMark c) = true :=
    List.all_eq_true.1 (List.all_eq_true.1 hplain word hword)
  rw [headerParts_eq, headerValue, List.takeWhile_append_of_pos hfree,
    List.dropWhile_append_of_pos hfree, headerValue]

/-- A line that starts with the title word sets the title if the word is set off. In every other
case the direction is read. -/
theorem readHeader_word (hword : word ∈ headerWords) (rest : List Char) (header : Header) :
    (word = titleWord ∧ IsSetOff rest →
      readHeader (word ++ rest) header = .ok (header.titled (headerValue rest))) ∧
    (¬ (word = titleWord ∧ IsSetOff rest) →
      readHeader (word ++ rest) header = header.directed (headerValue rest)) := by
  have htitle : word ++ rest.takeWhile (!isHeaderMark ·) = titleWord ↔
      word = titleWord ∧ IsSetOff rest := by
    rw [← takeWhile_eq_nil_iff_isSetOff]
    rcases List.mem_cons.1 hword with rfl | hword
    · simp
    · obtain rfl := List.mem_singleton.1 hword
      simp
  constructor
  · intro h
    simp only [readHeader, headerParts_word hword, if_pos (htitle.2 h), Header.titled,
      List.isEmpty_iff]
    split <;> rfl
  · intro h
    cases hname : Direction.ofName? (String.ofList (upper (headerValue rest))) <;>
      simp only [readHeader, headerParts_word hword, if_neg (htitle.not.2 h), Header.directed,
        Direction.read?, String.toList_ofList, hname]

end Words

theorem add_header {draft : Draft} {line : Line} (hkind : line.kind = .header)
    (hphase : draft.phase = .headers) :
    draft.add line = (line.check (readHeader line.text.toList draft.header)).map
      ({ draft with header := · }) := by
  simp [Draft.add, hkind, hphase]

/-- Every header line starts with its word. Before the body, a line with the title word sets the
title to its value, if it has one, and is never refused, provided that the word is set off by a
space, a colon or the end of the line. A line with the other word sets the direction that its value
names in any case, and is refused if it names none; but so does a line whose title word is set off
by another blank. The value is what follows the first space or colon after the word. If only blanks
stand before that, it is all that follows the word, without the blanks and colons around it, unless
a colon is left at its start. -/
theorem header_lines_read_by_word {text : String} {line : Line} (hline : line ∈ linesOf text)
    (hkind : line.kind = .header) :
    ∃ word ∈ headerWords, ∃ rest, line.text.toList = word ++ rest ∧
      (∀ c, rest.head? = some c → isBlank c = true ∨ c = ':') ∧
      (∀ draft : Draft, draft.phase = .headers →
        (word = titleWord ∧ IsSetOff rest →
          draft.add line =
            .ok { draft with header := draft.header.titled (headerValue rest) }) ∧
        (¬ (word = titleWord ∧ IsSetOff rest) →
          draft.add line =
            match Direction.ofName? (String.ofList (upper (headerValue rest))) with
            | some direction => .ok { draft with header := { draft.header with direction } }
            | none => .error (.malformed (.unknownDirection (String.ofList (headerValue rest)))
                line.number line.text))) ∧
      (AreBlank (rest.takeWhile (!isHeaderMark ·)) →
        (headerValue rest = bareValue rest ↔ (headerValue rest).head? ≠ some ':')) := by
  obtain ⟨word, hword, rest, htext, hnext⟩ :=
    exists_word_of_classify ((kind_eq_classify hline).symm.trans hkind)
  refine ⟨word, hword, rest, htext, hnext, fun draft hphase => ?_, headerValue_eq_bareValue_iff⟩
  obtain ⟨htitle, hdirection⟩ := readHeader_word hword rest draft.header
  rw [add_header hkind hphase, htext]
  constructor
  · intro h
    rw [htitle h]
    rfl
  · intro h
    rw [hdirection h, Header.directed]
    cases Direction.ofName? (String.ofList (upper (headerValue rest))) <;> rfl

/-- A title line whose word is set off by a tab sets the direction, and not the title. -/
theorem tabbed_title_turns_diagram :
    (⟨.header, 1, "flow\tto LR"⟩ : Line) ∈ linesOf "flow\tto LR" ∧
      ({} : Draft).add ⟨.header, 1, "flow\tto LR"⟩ = .ok { header := { direction := .right } } := by
  have hline : (⟨.header, 1, "flow\tto LR"⟩ : Line) ∈ linesOf "flow\tto LR" := by decide
  refine ⟨hline, ?_⟩
  obtain ⟨word, hword, rest, htext, -, hadd, -⟩ := header_lines_read_by_word hline rfl
  rcases List.mem_cons.1 hword with rfl | hword
  · have hsplit : "flow\tto LR".toList = titleWord ++ "\tto LR".toList := by decide
    obtain rfl := List.append_cancel_left (hsplit.symm.trans htext)
    have htab : ¬ IsSetOff "\tto LR".toList := fun h => absurd (h '\t' rfl) (by decide)
    rw [(hadd {} rfl).2 fun h => htab h.2]
    rfl
  · obtain rfl := List.mem_singleton.1 hword
    exact absurd (List.cons.inj htext).1 (by decide)

/-- A tab after the word of a header line is enough to refuse a title, and a direction that is in
order. -/
theorem tabbed_headers_are_refused :
    (linesOf "flow\tCheckout").map (·.kind) = [.header] ∧
      (linesOf "direction\tLR").map (·.kind) = [.header] ∧
      bareValue "\tCheckout".toList = "Checkout".toList ∧ bareValue "\tLR".toList = "LR".toList ∧
      (parse "flow\tCheckout").map (fun _ => ()) =
        .error (.malformed (.unknownDirection "") 1 "flow\tCheckout") ∧
      (parse "direction\tLR").map (fun _ => ()) =
        .error (.malformed (.unknownDirection "") 1 "direction\tLR") := by
  decide +kernel

end FlowCanvas.Diagram
