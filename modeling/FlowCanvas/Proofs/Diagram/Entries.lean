import Mathlib
import FlowCanvas.Proofs.Diagram.Blocks

namespace FlowCanvas

theorem Table.map_fst_foldl_put {α ι : Type} (keyOf : ι → String) (valueOf : ι → α) (xs : List ι) :
    (xs.foldl (fun table x => Table.put (keyOf x) (valueOf x) table) []).map (·.1) =
      (xs.map keyOf).eraseDups := by
  induction xs using List.reverseRecOn with
  | nil => rfl
  | append_singleton xs x ih =>
    generalize hold : xs.foldl (fun table x => Table.put (keyOf x) (valueOf x) table) [] = old at ih
    have hhas : Table.has (keyOf x) old = (xs.map keyOf).elem (keyOf x) := by
      rw [Bool.eq_iff_iff, List.elem_iff, ← List.mem_eraseDups, ← ih]
      simp [Table.has]
    rw [List.foldl_append, hold, List.foldl_cons, List.foldl_nil, Table.map_fst_put, ih, hhas,
      List.map_append, List.map_singleton, List.eraseDups_append, List.removeAll,
      List.filter_singleton]
    -- A key that has come before is not repeated.
    cases (xs.map keyOf).elem (keyOf x) <;> simp [List.eraseDups_cons]

namespace Diagram
open Text

section Keys
variable {c : Char} {cs : List Char} {key : String}

theorem lowerChar_of_isAlpha (h : c.isAlpha = true) : lowerChar c = [c.toLower] := by
  have halphanum : c.isAlphanum = true := by simp [Char.isAlphanum, h]
  exact of_ascii (P := fun c => c.isAlpha = true → lowerChar c = [c.toLower]) (by decide +kernel)
    (toNat_lt_of_isAlphanum halphanum) h

theorem lower_of_isAlpha (h : ∀ c ∈ cs, c.isAlpha = true) : lower cs = cs.map Char.toLower := by
  unfold lower
  -- The induction is on the text that is left, after any text.
  generalize ([] : List Char) = before
  induction cs generalizing before with
  | nil => rfl
  | cons c r ih =>
    obtain ⟨hc, hr⟩ := List.forall_mem_cons.1 h
    have hsigma : c ≠ capitalSigma := by
      rintro rfl
      exact absurd hc (by decide)
    simp only [lowerAfter, if_neg hsigma, lowerChar_of_isAlpha hc, ih hr, List.map_cons,
      List.singleton_append]

/-- A known key, in letters of either case, is read as the key in lower case, and it is an id. -/
theorem keyName_of_toLower (h : key.toLower ∈ attributeKeys) :
    keyName key.toList = key.toLower ∧ ∀ c ∈ key.toList, isIdChar c = true := by
  have hall : attributeKeys.all (·.toList.all (·.isLower)) = true := by decide
  have hknown : ∀ k ∈ attributeKeys, ∀ c ∈ k.toList, c.isLower = true := fun k hk =>
    List.all_eq_true.1 (List.all_eq_true.1 hall k hk)
  have htoList : key.toLower.toList = key.toList.map Char.toLower := String.toList_map
  have halpha : ∀ c ∈ key.toList, c.isAlpha = true := fun c hc =>
    (Char.isLower_toLower_eq_isAlpha c).symm.trans
      (hknown _ h _ (htoList ▸ List.mem_map_of_mem hc))
  have hid : ∀ c ∈ key.toList, isIdChar c = true :=
    fun c hc => by simp [isIdChar, isIdStart, Char.isAlphanum, halpha c hc]
  have hword : IsSpaced key.toList := IsSpaced.of_word fun c hc => isBlank_of_isIdChar (hid c hc)
  refine ⟨?_, hid⟩
  rw [keyName, hword.trim_eq, lower_of_isAlpha halpha, ← htoList, String.ofList_toList]

end Keys

/-- An entry as it is written, with its key in any case. -/
structure EntryText where
  key : String
  value : String

namespace EntryText

def name (e : EntryText) : String :=
  e.key.toLower

structure IsCanonical (e : EntryText) : Prop where
  name : e.name ∈ attributeKeys
  clean : Label.clean e.value.toList = e.value.toList
  free : ∀ c ∈ [',', ';', '\x7b'], c ∉ e.value.toList

instance (e : EntryText) : Decidable e.IsCanonical :=
  decidable_of_iff
    (e.name ∈ attributeKeys ∧ Label.clean e.value.toList = e.value.toList ∧
      [',', ';', '\x7b'].all (!e.value.toList.contains ·) = true)
    ⟨fun ⟨hn, hc, hf⟩ => ⟨hn, hc, by simpa using hf⟩,
      fun h => ⟨h.name, h.clean, by simpa using h.free⟩⟩

def text (e : EntryText) : List Char :=
  keyed e.key.toList e.value.toList

variable {e : EntryText}

theorem IsCanonical.not_mem_key (h : e.IsCanonical) {c : Char} (hc : isIdChar c = false) :
    c ∉ e.key.toList := by
  intro hmem
  rw [(keyName_of_toLower h.name).2 c hmem] at hc
  cases hc

theorem IsCanonical.not_mem_text (h : e.IsCanonical) {c : Char} (hc : c ∈ [',', ';', '\x7b']) :
    c ∉ e.text := by
  have hother : isIdChar c = false ∧ c ≠ ':' ∧ c ≠ ' ' := by
    have hall : [',', ';', '\x7b'].all (fun d => !isIdChar d && d != ':' && d != ' ') = true := by
      decide
    simpa [and_assoc] using List.all_eq_true.1 hall c hc
  simp [text, keyed, h.not_mem_key hother.1, h.free c hc, hother]

theorem IsCanonical.isEntrySeparator_text (h : e.IsCanonical) :
    ∀ c ∈ e.text, isEntrySeparator c = false := by
  intro c hc
  rw [← Bool.not_eq_true, isEntrySeparator, Bool.or_eq_true, decide_eq_true_eq, decide_eq_true_eq]
  rintro (rfl | rfl) <;> exact h.not_mem_text (by decide) hc

theorem IsCanonical.isAttribute_text (h : e.IsCanonical) : isAttribute e.text = true := by
  refine isAttribute_append_colon ?_ (fun c hc => ?_) _
  · rw [(keyName_of_toLower h.name).1]
    exact h.name
  · rw [← Bool.not_eq_true, isAssignment, Bool.or_eq_true, decide_eq_true_eq, decide_eq_true_eq]
    rintro (rfl | rfl) <;> exact h.not_mem_key (by decide) hc

theorem IsCanonical.keptKey_text (h : e.IsCanonical) : keptKey e.text = e.name := by
  rw [text, keyed, keptKey_append_colon (h.not_mem_key (by decide)),
    (keyName_of_toLower h.name).1, EntryText.name]

theorem IsCanonical.keptValue_text (h : e.IsCanonical) : keptValue e.text = e.value := by
  rw [text, keyed, keptValue_append_colon (h.not_mem_key (by decide)),
    Label.clean_eq_of_trim_eq (trim_cons_space _), h.clean, String.ofList_toList]

end EntryText

/-- A block as it is written: an entry, and more of them, each after a separator. -/
structure BlockText where
  first : EntryText
  rest : List (Char × EntryText)

namespace BlockText

def entries (b : BlockText) : List EntryText :=
  b.first :: b.rest.map (·.2)

structure IsCanonical (b : BlockText) : Prop where
  entries : ∀ e ∈ b.entries, e.IsCanonical
  separators : ∀ p ∈ b.rest, isEntrySeparator p.1 = true

instance (b : BlockText) : Decidable b.IsCanonical :=
  decidable_of_iff
    ((∀ e ∈ b.entries, e.IsCanonical) ∧ ∀ p ∈ b.rest, isEntrySeparator p.1 = true)
    ⟨fun ⟨he, hs⟩ => ⟨he, hs⟩, fun h => ⟨h.entries, h.separators⟩⟩

def inside (b : BlockText) : List Char :=
  b.first.text ++ b.rest.flatMap fun p => p.1 :: ' ' :: p.2.text

def text (b : BlockText) : List Char :=
  ' ' :: '\x7b' :: ' ' :: (b.inside ++ [' ', '\x7d'])

variable {b : BlockText}

theorem pieces_inside {w : List Char} (hw : ∀ c ∈ w, isEntrySeparator c = false)
    {rest : List (Char × EntryText)}
    (hrest : ∀ p ∈ rest, isEntrySeparator p.1 = true ∧ p.2.IsCanonical) :
    pieces isEntrySeparator (w ++ rest.flatMap fun p => p.1 :: ' ' :: p.2.text) =
      w :: rest.map fun p => ' ' :: p.2.text := by
  induction rest generalizing w with
  | nil => simpa using pieces_of_none hw
  | cons p r ih =>
    obtain ⟨hseparator, hentry⟩ := hrest p List.mem_cons_self
    have hnext : ∀ c ∈ ' ' :: p.2.text, isEntrySeparator c = false :=
      List.forall_mem_cons.2 ⟨by decide, hentry.isEntrySeparator_text⟩
    rw [List.flatMap_cons, List.cons_append, pieces_append_cons hw hseparator,
      ih hnext fun q hq => hrest q (List.mem_cons_of_mem _ hq), List.map_cons]

theorem IsCanonical.map_trim_entriesOf_inside (h : b.IsCanonical) :
    (entriesOf b.inside).map trim = b.entries.map (trim ·.text) := by
  have hfirst : b.first.IsCanonical := h.entries _ List.mem_cons_self
  have hrest : ∀ p ∈ b.rest, isEntrySeparator p.1 = true ∧ p.2.IsCanonical := fun p hp =>
    ⟨h.separators p hp, h.entries _ (List.mem_cons_of_mem _ (List.mem_map_of_mem hp))⟩
  have hpieces : (pieces isEntrySeparator b.inside).map trim = b.entries.map (trim ·.text) := by
    rw [inside, pieces_inside hfirst.isEntrySeparator_text hrest]
    simp [BlockText.entries, trim_cons_space, Function.comp_def]
  -- No entry is blank, as each has a colon in it.
  have hfull : ∀ piece ∈ pieces isEntrySeparator b.inside, (!(trim piece).isEmpty) = true := by
    intro piece hpiece
    have htrimmed : trim piece ∈ b.entries.map (trim ·.text) :=
      hpieces ▸ List.mem_map_of_mem hpiece
    obtain ⟨e, -, heq⟩ := List.mem_map.1 htrimmed
    have hcolon : ':' ∈ trim e.text :=
      (mem_trim_iff (by decide)).2 (by simp [EntryText.text, keyed])
    rw [heq] at hcolon
    simpa using List.ne_nil_of_mem hcolon
  rw [entriesOf, List.filter_eq_self.2 hfull, hpieces]

/-- Each entry is put under its key in lower case, one after another. -/
theorem IsCanonical.attributesOf_inside (h : b.IsCanonical) :
    attributesOf b.inside =
      b.entries.foldl (fun table e => Table.put e.name e.value table) [] := by
  rw [attributesOf, h.map_trim_entriesOf_inside, List.foldl_map]
  refine List.foldl_ext _ _ _ fun table e he => ?_
  rw [addEntry_eq table (trim_trim _), keptKey_trim, keptValue_trim, (h.entries e he).keptKey_text,
    (h.entries e he).keptValue_text]

theorem IsCanonical.not_mem_inside (h : b.IsCanonical) : '\x7b' ∉ b.inside := by
  have hentry : ∀ e ∈ b.entries, '\x7b' ∉ e.text := fun e he =>
    (h.entries e he).not_mem_text (by decide)
  obtain ⟨hfirst, hrest⟩ := List.forall_mem_cons.1 hentry
  rw [inside, List.mem_append, List.mem_flatMap, not_or]
  refine ⟨hfirst, ?_⟩
  rintro ⟨p, hp, hmem⟩
  have hseparator : p.1 ≠ '\x7b' := by
    intro heq
    exact absurd (h.separators p hp) (by rw [heq]; decide)
  have htext := hrest p.2 (List.mem_map_of_mem hp)
  simp [hseparator.symm, htext] at hmem

/-- A block that is written after a text is cut off it. -/
theorem IsCanonical.splitBlock_append_text (h : b.IsCanonical) (body : List Char) :
    splitBlock (body ++ b.text) = (trimEnd body, some (trim b.inside)) := by
  have hinside : trim (' ' :: (b.inside ++ [' '])) = trim b.inside := by
    have hspace : AreBlank [' '] := List.forall_mem_singleton.2 isBlank_space
    rw [trim_cons_space, hspace.trim_append]
  have hbrace : '\x7b' ∉ ' ' :: (b.inside ++ [' ']) := by simp [h.not_mem_inside]
  have hentries : (entriesOf (' ' :: (b.inside ++ [' ']))).map trim =
      b.entries.map (trim ·.text) := by
    rw [← map_trim_entriesOf_trim, hinside, map_trim_entriesOf_trim, h.map_trim_entriesOf_inside]
  have hall : ∀ entry ∈ b.entries.map (trim ·.text), isAttribute entry = true := by
    intro entry hentry
    obtain ⟨e, he, rfl⟩ := List.mem_map.1 hentry
    rw [isAttribute_trim]
    exact (h.entries e he).isAttribute_text
  have hsplit := splitBlock_append_braces hbrace hentries (by simp [BlockText.entries]) hall
    (body ++ [' '])
  rw [hinside, trimEnd_append_space] at hsplit
  simpa [text] using hsplit

end BlockText

theorem eq_trimEnd_of_splitBlock {text rest : List Char} (h : splitBlock text = (rest, none)) :
    rest = trimEnd text := by
  obtain hnone | ⟨before, inside, -, -, hsome⟩ := splitBlock_cases text
  · exact (Prod.mk.inj (h.symm.trans hnone)).1
  · cases h.symm.trans hsome

/-- Where a block is cut off a text, the parts make up the text again, but for blanks. -/
theorem exists_eq_of_splitBlock {text body block : List Char}
    (h : splitBlock text = (body, some block)) :
    ∃ gap lead trail, AreBlank gap ∧ AreBlank lead ∧ AreBlank trail ∧
      trimEnd text = body ++ (gap ++ '\x7b' :: (lead ++ (block ++ trail) ++ ['\x7d'])) := by
  obtain hnone | ⟨before, inside, heq, -, hsome⟩ := splitBlock_cases text
  · cases h.symm.trans hnone
  · cases h.symm.trans hsome
    obtain ⟨gap, hgap, hbefore⟩ := exists_trimEnd_eq before
    obtain ⟨lead, trail, hlead, htrail, hinside⟩ := exists_trim_eq inside
    refine ⟨gap, lead, trail, hgap, hlead, htrail, ?_⟩
    rw [heq, ← hinside, ← List.append_assoc, ← hbefore]

/-- A block that is written after a text is cut off it whole, whatever the text, and read back as
the keys in lower case, each where it first came and with the value that it was given last. Of a
text from which no block is cut nothing but blanks at the end goes, and where one is cut nothing but
its braces and blanks around them. -/
theorem written_block_is_decoded (b : BlockText) (h : b.IsCanonical) :
    (∀ body, ∃ block, splitBlock (body ++ b.text) = (trimEnd body, some block) ∧
      (attributesOf block).map (·.1) = (b.entries.map (·.name)).eraseDups ∧
      ∀ key, Table.get? key (attributesOf block) =
        (b.entries.filter (·.name = key)).getLast?.map (·.value)) ∧
    (∀ text rest, splitBlock text = (rest, none) → rest = trimEnd text) ∧
    (∀ text body block, splitBlock text = (body, some block) →
      ∃ gap lead trail, AreBlank gap ∧ AreBlank lead ∧ AreBlank trail ∧
        trimEnd text = body ++ (gap ++ '\x7b' :: (lead ++ (block ++ trail) ++ ['\x7d']))) := by
  refine ⟨fun body => ⟨trim b.inside, h.splitBlock_append_text body, ?_, fun key => ?_⟩,
    fun _ _ => eq_trimEnd_of_splitBlock, fun _ _ _ => exists_eq_of_splitBlock⟩
  · rw [attributesOf_trim, h.attributesOf_inside, Table.map_fst_foldl_put]
  · rw [attributesOf_trim, h.attributesOf_inside, Table.get?_foldl_put, Table.get?_nil,
      Option.or_none]

/-- A block with a key given twice, an empty value and values full of marks. -/
def crowdedBlock : BlockText where
  first := ⟨"Sub", "at 10:30 = -> \x7d"⟩
  rest := [(';', ⟨"STYLE", ""⟩), (',', ⟨"sub", "\x7d style: x"⟩)]

theorem crowded_block_is_decoded :
    crowdedBlock.IsCanonical ∧ ∃ block,
      splitBlock ("a \x7b sub: b \x7d ".toList ++ crowdedBlock.text) =
        ("a \x7b sub: b \x7d".toList, some block) ∧
      (attributesOf block).map (·.1) = ["sub", "style"] ∧
      Table.get? "sub" (attributesOf block) = some "\x7d style: x" ∧
      Table.get? "style" (attributesOf block) = some "" := by
  have hcanonical : crowdedBlock.IsCanonical := by decide +kernel
  have hnames : crowdedBlock.entries.map (·.name) = ["sub", "style", "sub"] := by decide +kernel
  obtain ⟨hfirst, hsecond, hthird⟩ : "Sub".toLower = "sub" ∧ "STYLE".toLower = "style" ∧
      "sub".toLower = "sub" := by decide +kernel
  obtain ⟨hwritten, -, -⟩ := written_block_is_decoded crowdedBlock hcanonical
  obtain ⟨block, hsplit, hkeys, hvalues⟩ := hwritten "a \x7b sub: b \x7d ".toList
  have hbody : trimEnd "a \x7b sub: b \x7d ".toList = "a \x7b sub: b \x7d".toList := by decide
  refine ⟨hcanonical, block, ?_, ?_, ?_, ?_⟩
  · rw [hsplit, hbody]
  · rw [hkeys, hnames]
    decide
  · rw [hvalues]
    simp [crowdedBlock, BlockText.entries, EntryText.name, hfirst, hsecond, hthird]
  · rw [hvalues]
    simp [crowdedBlock, BlockText.entries, EntryText.name, hfirst, hsecond, hthird]

end Diagram
end FlowCanvas
