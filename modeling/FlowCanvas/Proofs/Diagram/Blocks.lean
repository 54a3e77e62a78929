import FlowCanvas.Proofs.Diagram.Attributes
import FlowCanvas.Proofs.Text.Lines

namespace FlowCanvas.Diagram
open Text

/-- A text that cleaning leaves alone and that has none of the given marks in it. -/
structure IsPlain (marks : List Char) (s : String) : Prop where
  nonempty : s ≠ ""
  clean : Label.clean s.toList = s.toList
  free : ∀ c ∈ marks, c ∉ s.toList

instance (marks : List Char) (s : String) : Decidable (IsPlain marks s) :=
  decidable_of_iff
    (s ≠ "" ∧ Label.clean s.toList = s.toList ∧ marks.all (!s.toList.contains ·) = true)
    ⟨fun ⟨hn, hc, hf⟩ => ⟨hn, hc, by simpa using hf⟩,
      fun h => ⟨h.nonempty, h.clean, by simpa using h.free⟩⟩

namespace IsPlain
variable {marks : List Char} {s : String}

theorem isSpaced (h : IsPlain marks s) : IsSpaced s.toList := by
  rw [← h.clean]
  exact Label.isSpaced_clean _

theorem ne_nil (h : IsPlain marks s) : s.toList ≠ [] := by
  simpa using h.nonempty

theorem clean_cons_space (h : IsPlain marks s) : Label.clean (' ' :: s.toList) = s.toList :=
  (Label.clean_eq_of_trim_eq (trim_cons_space _)).trans h.clean

end IsPlain

section Ids
variable {cs : List Char}

theorem isIdChar_of_isId (h : isId cs = true) : cs ≠ [] ∧ ∀ c ∈ cs, isIdChar c = true := by
  cases cs with
  | nil => cases h
  | cons c r =>
    simp only [isId, Bool.and_eq_true, List.all_eq_true] at h
    refine ⟨List.cons_ne_nil c r, fun d hd => ?_⟩
    rcases List.mem_cons.1 hd with rfl | hd
    · simp [isIdChar, h.1]
    · exact h.2 d hd

theorem not_mem_of_isId (h : isId cs = true) {c : Char} (hc : isIdChar c = false) : c ∉ cs := by
  intro hmem
  rw [(isIdChar_of_isId h).2 c hmem] at hc
  cases hc

theorem isBlank_of_isIdChar {c : Char} (h : isIdChar c = true) : isBlank c = false := by
  have hcode : c.toNat < 128 := by
    simp only [isIdChar, isIdStart, Bool.or_eq_true, decide_eq_true_eq] at h
    rcases h with ((h | rfl) | rfl) | rfl
    · exact toNat_lt_of_isAlphanum h
    all_goals decide
  -- All characters of ids are ASCII, so those are the only ones to look at.
  exact of_ascii (P := fun c => isIdChar c = true → isBlank c = false) (by decide) hcode h

theorem clean_of_isId (h : isId cs = true) : Label.clean cs = cs := by
  obtain ⟨-, hword⟩ := isIdChar_of_isId h
  have hnot {c : Char} (hc : isIdChar c = false) : cs.head? ≠ some c :=
    fun hhead => not_mem_of_isId h hc (List.mem_of_mem_head? hhead)
  exact Label.clean_of_word (fun c hc => isBlank_of_isIdChar (hword c hc)) (hnot (by decide))
    (hnot (by decide))

theorem isSpaced_of_isId (h : isId cs = true) : IsSpaced cs :=
  IsSpaced.of_word fun c hc => isBlank_of_isIdChar ((isIdChar_of_isId h).2 c hc)

def keyed (id value : List Char) : List Char :=
  id ++ ':' :: ' ' :: value

variable {value : List Char}

theorem keyed_ne_nil (id value : List Char) : keyed id value ≠ [] := by
  simp [keyed]

theorem isSpaced_keyed (h : isId cs = true) (hvalue : IsSpaced value) (hne : value ≠ []) :
    IsSpaced (keyed cs value) := by
  have hword : IsSpaced (cs ++ [':']) := by
    apply IsSpaced.of_word
    intro c hc
    rcases List.mem_append.1 hc with hc | hc
    · exact isBlank_of_isIdChar ((isIdChar_of_isId h).2 c hc)
    · obtain rfl : c = ':' := List.mem_singleton.1 hc
      decide
  have happend := hword.append hvalue (by simp) hne
  rwa [List.append_assoc] at happend

theorem cutAt?_keyed (h : isId cs = true) (value : List Char) :
    cutAt? (· = ':') (keyed cs value) = some (cs, ' ' :: value) := by
  apply cutAt?_append_cons _ (by simp)
  intro c hc
  have hne : c ≠ ':' := fun hcolon => not_mem_of_isId h (by decide) (hcolon ▸ hc)
  simp [hne]

end Ids

section Blocks
variable {body : List Char} {key value : String}

def writtenEntry (key value : String) : List Char :=
  keyed key.toList value.toList

/-- An attribute block with a single attribute, as it follows a declaration. -/
def writtenBlock (key value : String) : List Char :=
  ' ' :: '\x7b' :: ' ' :: (writtenEntry key value ++ [' ', '\x7d'])

theorem splitBlock_of_last {c : Char} (hlast : body.getLast? = some c) (hblank : isBlank c = false)
    (hbrace : c ≠ '\x7d') : splitBlock body = (body, none) := by
  have htrim : trimEnd body = body := by
    apply trimEnd_of_last
    intro d hd
    rw [hlast] at hd
    rwa [← Option.some.inj hd]
  simp only [splitBlock, htrim, hlast]
  split
  · next heq _ => exact absurd (Option.some.inj heq) hbrace
  · rfl

abbrev IsValue (value : String) : Prop :=
  IsPlain ['[', '\x7b', '\x7d', ',', ';'] value

theorem isId_of_mem_attributeKeys (h : key ∈ attributeKeys) :
    isId key.toList = true ∧ keyName key.toList = key := by
  have hall : ∀ k ∈ attributeKeys, isId k.toList = true ∧ keyName k.toList = k := by decide
  exact hall key h

theorem isSpaced_writtenEntry (hkey : key ∈ attributeKeys) (hvalue : IsValue value) :
    IsSpaced (writtenEntry key value) :=
  isSpaced_keyed (isId_of_mem_attributeKeys hkey).1 hvalue.isSpaced hvalue.ne_nil

theorem not_mem_writtenEntry (hkey : key ∈ attributeKeys) (hvalue : IsValue value) {c : Char}
    (hc : c ∈ ['[', '\x7b', '\x7d', ',', ';']) : c ∉ writtenEntry key value := by
  obtain ⟨hid, -⟩ := isId_of_mem_attributeKeys hkey
  have hother : isIdChar c = false ∧ c ≠ ':' ∧ c ≠ ' ' := by
    have hall : ['[', '\x7b', '\x7d', ',', ';'].all
        (fun d => !isIdChar d && d != ':' && d != ' ') = true := by decide
    simpa [and_assoc] using List.all_eq_true.1 hall c hc
  have hkeyFree := not_mem_of_isId hid hother.1
  have hvalueFree := hvalue.free c hc
  simp [writtenEntry, keyed, hkeyFree, hvalueFree, hother]

theorem entriesOf_writtenEntry (hkey : key ∈ attributeKeys) (hvalue : IsValue value) :
    entriesOf (writtenEntry key value) = [writtenEntry key value] := by
  have hpieces : pieces isEntrySeparator (writtenEntry key value) = [writtenEntry key value] := by
    apply pieces_of_none
    intro c hc
    cases hseparator : isEntrySeparator c with
    | false => rfl
    | true =>
      have hmark : c = ';' ∨ c = ',' := by simpa [isEntrySeparator] using hseparator
      exact absurd hc (not_mem_writtenEntry hkey hvalue (by rcases hmark with rfl | rfl <;> decide))
  have htrim := (isSpaced_writtenEntry hkey hvalue).trim_eq
  have hne : writtenEntry key value ≠ [] := keyed_ne_nil _ _
  simp [entriesOf, hpieces, htrim, hne]

theorem isAttribute_writtenEntry (hkey : key ∈ attributeKeys) (value : String) :
    isAttribute (writtenEntry key value) = true := by
  obtain ⟨hid, hname⟩ := isId_of_mem_attributeKeys hkey
  refine isAttribute_append_colon (by rwa [hname]) (fun c hc => ?_) _
  have hmarks : c ≠ ':' ∧ c ≠ '=' :=
    ⟨fun h => not_mem_of_isId hid (by decide) (h ▸ hc),
      fun h => not_mem_of_isId hid (by decide) (h ▸ hc)⟩
  simp [isAssignment, hmarks]

theorem attributesOf_writtenEntry (hkey : key ∈ attributeKeys) (hvalue : IsValue value) :
    attributesOf (writtenEntry key value) = [(key, value)] := by
  obtain ⟨hid, hname⟩ := isId_of_mem_attributeKeys hkey
  have hfree : ':' ∉ key.toList := not_mem_of_isId hid (by decide)
  rw [attributesOf_eq, entriesOf_writtenEntry hkey hvalue, writtenEntry, keyed]
  simp [attributesKept, keptKey_append_colon hfree, keptValue_append_colon hfree, hname,
    hvalue.clean_cons_space, Table.put]

theorem getLast?_append_writtenBlock (body : List Char) (key value : String) :
    (body ++ writtenBlock key value).getLast? = some '\x7d' := by
  have hsplit : body ++ writtenBlock key value =
      (body ++ ' ' :: '\x7b' :: ' ' :: (writtenEntry key value ++ [' '])) ++ ['\x7d'] := by
    simp [writtenBlock]
  rw [hsplit, List.getLast?_concat]

/-- A block that is written after a declaration is split off it. -/
theorem splitBlock_append_writtenBlock (hkey : key ∈ attributeKeys) (hvalue : IsValue value)
    (hbody : ∀ c, body.getLast? = some c → isBlank c = false) :
    splitBlock (body ++ writtenBlock key value) = (body, some (writtenEntry key value)) := by
  have hinside : trim (' ' :: (writtenEntry key value ++ [' '])) = writtenEntry key value := by
    rw [trim_cons_space, (isSpaced_writtenEntry hkey hvalue).trim_append_space]
  have hbrace : '\x7b' ∉ ' ' :: (writtenEntry key value ++ [' ']) := by
    simp [not_mem_writtenEntry hkey hvalue (c := '\x7b') (by decide)]
  have hentries : (entriesOf (' ' :: (writtenEntry key value ++ [' ']))).map trim =
      [writtenEntry key value] := by
    rw [← map_trim_entriesOf_trim, hinside, entriesOf_writtenEntry hkey hvalue, List.map_singleton,
      (isSpaced_writtenEntry hkey hvalue).trim_eq]
  have hsplit := splitBlock_append_braces hbrace hentries (List.cons_ne_nil _ _)
    (by simp [isAttribute_writtenEntry hkey]) (body ++ [' '])
  have htrim : trimEnd (body ++ [' ']) = body := by
    rw [trimEnd_append_space, trimEnd_of_last hbody]
  rw [hinside, htrim] at hsplit
  simpa [writtenBlock] using hsplit

section Optional
variable {value? : Option String}

def optionalBlock (key : String) (value? : Option String) : List Char :=
  value?.elim [] (writtenBlock key)

theorem getLast?_append_optionalBlock (hbody : ∀ c, body.getLast? = some c → isBlank c = false)
    (key : String) (value? : Option String) :
    ∀ c, (body ++ optionalBlock key value?).getLast? = some c → isBlank c = false := by
  intro c hc
  cases value? with
  | some value =>
    rw [optionalBlock, Option.elim_some, getLast?_append_writtenBlock] at hc
    obtain rfl : '\x7d' = c := Option.some.inj hc
    decide
  | none =>
    rw [optionalBlock, Option.elim_none, List.append_nil] at hc
    exact hbody c hc

theorem isLine_optionalBlock (hkey : key ∈ attributeKeys)
    (hvalue : ∀ value, value? = some value → IsValue value) :
    IsLine (optionalBlock key value?) := by
  cases value? with
  | some value =>
    have hentry := (isSpaced_writtenEntry hkey (hvalue value rfl)).isLine
    simp [optionalBlock, writtenBlock, isLine_append_iff, isLine_cons_iff, hentry, isLine_nil]
  | none => exact isLine_nil

theorem not_mem_optionalBlock (hkey : key ∈ attributeKeys)
    (hvalue : ∀ value, value? = some value → IsValue value) :
    '[' ∉ optionalBlock key value? := by
  cases value? with
  | some value =>
    have hfree := not_mem_writtenEntry hkey (hvalue value rfl) (c := '[') (by decide)
    simp [optionalBlock, writtenBlock, hfree]
  | none => simp [optionalBlock]

theorem splitBlock_append_optionalBlock (hkey : key ∈ attributeKeys)
    (hvalue : ∀ value, value? = some value → IsValue value) {c : Char}
    (hlast : body.getLast? = some c) (hblank : isBlank c = false) (hbrace : c ≠ '\x7d') :
    splitBlock (body ++ optionalBlock key value?) = (body, value?.map (writtenEntry key)) := by
  cases value? with
  | some value =>
    apply splitBlock_append_writtenBlock hkey (hvalue value rfl)
    intro d hd
    obtain rfl : c = d := Option.some.inj (hlast.symm.trans hd)
    exact hblank
  | none =>
    rw [optionalBlock, Option.elim_none, List.append_nil]
    exact splitBlock_of_last hlast hblank hbrace

theorem attributesOf_optional (hkey : key ∈ attributeKeys)
    (hvalue : ∀ value, value? = some value → IsValue value) :
    attributesOf ((value?.map (writtenEntry key)).getD []) =
      value?.toList.map fun value => (key, value) := by
  cases value? with
  | some value => simpa using attributesOf_writtenEntry hkey (hvalue value rfl)
  | none => rfl

end Optional

end Blocks

section Rows
variable {s : String}

structure IsRow (w : List Char) : Prop where
  isLine : IsLine w
  trimmed : trim w = w
  tidy : trimEnd w = w

theorem isRow_of_ends {w : List Char} (hline : IsLine w)
    (hhead : ∀ c, w.head? = some c → isBlank c = false)
    (hlast : ∀ c, w.getLast? = some c → isBlank c = false) : IsRow w := by
  refine ⟨hline, ?_, trimEnd_of_last hlast⟩
  rw [trim, trimStart_of_head hhead, trimEnd_of_last hlast]

theorem IsRow.of (h : IsRow s.toList) (number : Nat) :
    Line.of number s.toList = ⟨classify s.toList, number, s⟩ := by
  rw [Line.of, h.trimmed, String.ofList_toList]

end Rows
end FlowCanvas.Diagram
