import FlowCanvas.Diagram.Parser
import FlowCanvas.Proofs.Text.Cuts
import FlowCanvas.Proofs.Text.Spacing

namespace FlowCanvas.Diagram
open Text

/-- Either nothing but blanks is cut off a text, or it ends in braces in which every entry is
recognised. -/
theorem splitBlock_cases (cs : List Char) :
    splitBlock cs = (trimEnd cs, none) ∨
    ∃ before inside, trimEnd cs = before ++ '\x7b' :: (inside ++ ['\x7d']) ∧
      (∀ entry ∈ entriesOf (trim inside), isAttribute entry = true) ∧
      splitBlock cs = (trimEnd before, some (trim inside)) := by
  simp only [splitBlock]
  split
  · next before inside hlast hcut =>
    split
    · exact .inl rfl
    · next hentries =>
      refine .inr ⟨before, inside.dropLast, ?_, ?_, rfl⟩
      · obtain ⟨s, hs, heq⟩ := eq_append_of_cutAtLast? hcut
        obtain rfl : s = '\x7b' := by simpa using hs
        -- The closing brace ends what stands after the opening one.
        have hinside : inside.getLast? = some '\x7d' := by
          cases inside with
          | nil => simp [heq] at hlast
          | cons c r => simpa [heq, List.getLast?_append, List.getLast?_cons] using hlast
        rw [heq, List.dropLast_append_getLast? _ hinside]
      · rw [Bool.or_eq_true, not_or] at hentries
        simpa using hentries.2
  · exact .inl rfl

section Entries

theorem isEntrySeparator_of_blank {c : Char} (h : isBlank c = true) :
    isEntrySeparator c = false := by
  rw [← Bool.not_eq_true, isEntrySeparator, Bool.or_eq_true, decide_eq_true_eq, decide_eq_true_eq]
  rintro (rfl | rfl) <;> exact absurd h (by decide)

theorem isAssignment_of_blank {c : Char} (h : isBlank c = true) : isAssignment c = false := by
  rw [← Bool.not_eq_true, isAssignment, Bool.or_eq_true, decide_eq_true_eq, decide_eq_true_eq]
  rintro (rfl | rfl) <;> exact absurd h (by decide)

theorem map_trim_entriesOf_trim (block : List Char) :
    (entriesOf (trim block)).map trim = (entriesOf block).map trim := by
  have hfilter (cs : List Char) : (entriesOf cs).map trim =
      ((pieces isEntrySeparator cs).map trim).filter (!·.isEmpty) := by
    rw [entriesOf, List.filter_map]
    rfl
  rw [hfilter, hfilter, map_trim_pieces_trim fun _ => isEntrySeparator_of_blank]

theorem attributesOf_trim (block : List Char) : attributesOf (trim block) = attributesOf block := by
  rw [attributesOf, map_trim_entriesOf_trim, attributesOf]

theorem keyName_takeWhile_trim {p : Char → Bool} (hp : ∀ c, isBlank c = true → p c = true)
    (cs : List Char) : keyName ((trim cs).takeWhile p) = keyName (cs.takeWhile p) := by
  rw [keyName, trim_takeWhile_trim hp, keyName]

/-- Blanks around an entry do not count for whether it is recognised. -/
theorem isAttribute_trim (entry : List Char) : isAttribute (trim entry) = isAttribute entry := by
  have hkey : keyName ((trim entry).takeWhile (!isAssignment ·)) =
      keyName (entry.takeWhile (!isAssignment ·)) :=
    keyName_takeWhile_trim (fun _ hc => by simp [isAssignment_of_blank hc]) entry
  have hword : keyName (trim entry) = keyName entry := by rw [keyName, trim_trim, keyName]
  have hany : (trim entry).any isAssignment = entry.any isAssignment := by
    -- No separator is trimmed, as none is blank.
    have hmem : ∀ c, isAssignment c = true → (c ∈ trim entry ↔ c ∈ entry) := by
      refine fun c hc => mem_trim_iff ?_
      rw [← Bool.not_eq_true]
      exact fun hblank => by simp [isAssignment_of_blank hblank] at hc
    rw [Bool.eq_iff_iff, List.any_eq_true, List.any_eq_true]
    exact exists_congr fun c => and_congr_left fun hc => hmem c hc
  simp only [isAttribute, hkey, hword, hany]

/-- Braces after a text with no other opening brace in them are cut off it, if there are entries
inside and each of them is recognised. -/
theorem splitBlock_append_braces {inside : List Char} {entries : List (List Char)}
    (hbrace : '\x7b' ∉ inside) (hentries : (entriesOf inside).map trim = entries)
    (hne : entries ≠ []) (hall : ∀ entry ∈ entries, isAttribute entry = true) (body : List Char) :
    splitBlock (body ++ '\x7b' :: (inside ++ ['\x7d'])) = (trimEnd body, some (trim inside)) := by
  have hlast : (body ++ '\x7b' :: (inside ++ ['\x7d'])).getLast? = some '\x7d' := by
    rw [← List.cons_append, ← List.append_assoc, List.getLast?_concat]
  have htrim : trimEnd (body ++ '\x7b' :: (inside ++ ['\x7d'])) =
      body ++ '\x7b' :: (inside ++ ['\x7d']) := by
    apply trimEnd_of_last
    rw [hlast]
    rintro c ⟨⟩
    decide
  have hcut : cutAtLast? (· = '\x7b') (body ++ '\x7b' :: (inside ++ ['\x7d'])) =
      some (body, inside ++ ['\x7d']) := by
    apply cutAtLast?_append_cons _ (by simp)
    intro c hc
    have hne : c ≠ '\x7b' := by
      rintro rfl
      simp [hbrace] at hc
    simp [hne]
  -- The inside is trimmed before it is cut, which changes neither its entries nor what they are.
  have htrimmed : (entriesOf (trim inside)).map trim = entries := by
    rw [map_trim_entriesOf_trim, hentries]
  have hne' : entriesOf (trim inside) ≠ [] := by
    intro hnil
    exact hne (by rw [← htrimmed, hnil, List.map_nil])
  have hall' : ∀ entry ∈ entriesOf (trim inside), isAttribute entry = true := by
    intro entry hentry
    rw [← isAttribute_trim]
    exact hall _ (htrimmed ▸ List.mem_map_of_mem hentry)
  have hkept : ¬ ((entriesOf (trim inside)).isEmpty ||
      !(entriesOf (trim inside)).all isAttribute) = true := by
    simpa [hne'] using hall'
  simp only [splitBlock, htrim, hlast, hcut, List.dropLast_concat, if_neg hkept]

end Entries

section Keys
variable {entry : List Char}

/-- The keys that declarations are read for: the attributes, and the line styles as bare words. -/
def knownKeys : List String :=
  attributeKeys ++ LineStyle.all.map LineStyle.name

/-- The key by which an entry is recognised: what stands before its first colon or equals sign. -/
def recognisedKey (entry : List Char) : String :=
  keyName (entry.takeWhile (!isAssignment ·))

/-- The key under which an entry is kept: what stands before its first colon, and only without one
what stands before its first equals sign. -/
def keptKey (entry : List Char) : String :=
  if ':' ∈ entry then keyName (entry.takeWhile (· ≠ ':')) else recognisedKey entry

def keptValue (entry : List Char) : String :=
  match cutAt? (· = ':') (trim entry), cutAt? (· = '=') (trim entry) with
  | some (_, value), _ | none, some (_, value) => String.ofList (Label.clean value)
  | none, none => "true"

/-- An entry with an equals sign before its first colon. -/
def IsTorn (entry : List Char) : Prop :=
  ':' ∈ entry ∧ '=' ∈ entry.takeWhile (· ≠ ':')

instance : DecidablePred IsTorn := fun _ => instDecidableAnd

theorem recognisedKey_mem_knownKeys (h : isAttribute entry = true) :
    recognisedKey entry ∈ knownKeys := by
  unfold isAttribute at h
  rw [← recognisedKey] at h
  simp only at h
  split at h
  · next hkey => exact List.mem_append_left _ (by simpa using hkey)
  · refine List.mem_append_right _ ?_
    obtain ⟨style, hstyle⟩ := Option.isSome_iff_exists.1 (Bool.and_eq_true_iff.1 h).2
    have hname : style.name = recognisedKey entry := by
      simpa using List.find?_some hstyle
    exact List.mem_map.2 ⟨style, List.mem_of_find?_eq_some hstyle, hname⟩

theorem mem_lower_equals {cs : List Char} (h : '=' ∈ cs) : '=' ∈ lower cs := by
  have hchar : lowerChar '=' = ['='] := by decide
  unfold lower
  -- The induction is on the text that is left, after any text.
  generalize ([] : List Char) = before
  induction cs generalizing before with
  | nil => cases h
  | cons c r ih =>
    rw [lowerAfter, List.mem_append]
    rcases List.mem_cons.1 h with rfl | h
    · left
      have hsigma : '=' ≠ capitalSigma := by decide
      simp [hsigma, hchar]
    · exact .inr (ih h _)

theorem mem_keyName_equals {cs : List Char} (h : '=' ∈ cs) : '=' ∈ (keyName cs).toList := by
  rw [keyName, String.toList_ofList]
  exact mem_lower_equals ((mem_trim_iff (by decide)).2 h)

theorem equals_not_mem_of_known {key : String} (h : key ∈ knownKeys) : '=' ∉ key.toList := by
  have hall : ∀ k ∈ knownKeys, '=' ∉ k.toList := by decide
  exact hall key h

theorem keptKey_not_mem_of_torn (h : IsTorn entry) : keptKey entry ∉ knownKeys := by
  intro hknown
  apply equals_not_mem_of_known hknown
  rw [keptKey, if_pos h.1]
  exact mem_keyName_equals h.2

theorem takeWhile_not_isAssignment (cs : List Char) :
    cs.takeWhile (!isAssignment ·) = (cs.takeWhile (· ≠ ':')).takeWhile (· ≠ '=') := by
  rw [List.takeWhile_takeWhile]
  congr 1
  funext c
  by_cases hc : c = ':' <;> simp [isAssignment, hc]

theorem keptKey_of_not_torn (h : ¬ IsTorn entry) : keptKey entry = recognisedKey entry := by
  unfold keptKey
  split
  · next hcolon =>
    have hequals : '=' ∉ entry.takeWhile (· ≠ ':') := fun hmem => h ⟨hcolon, hmem⟩
    rw [recognisedKey, takeWhile_not_isAssignment, takeWhile_ne_of_not_mem hequals]
  · rfl

/-- An entry is kept under the key by which it is recognised just if it is not torn. -/
theorem keptKey_eq_recognisedKey_iff (h : isAttribute entry = true) :
    keptKey entry = recognisedKey entry ↔ ¬ IsTorn entry := by
  refine ⟨fun heq htorn => ?_, keptKey_of_not_torn⟩
  apply keptKey_not_mem_of_torn htorn
  rw [heq]
  exact recognisedKey_mem_knownKeys h

end Keys

section Attributes

def attributesKept (entries : List (List Char)) : Attributes :=
  entries.foldl (fun attributes entry => Table.put (keptKey entry) (keptValue entry) attributes) []

theorem keptKey_trim (entry : List Char) : keptKey (trim entry) = keptKey entry := by
  have hcolon : ∀ c, isBlank c = true → decide (c ≠ ':') = true := by
    intro c hc
    have hne : c ≠ ':' := by
      rintro rfl
      exact absurd hc (by decide)
    simpa using hne
  have hseparator : ∀ c, isBlank c = true → (!isAssignment c) = true :=
    fun c hc => by simp [isAssignment_of_blank hc]
  simp only [keptKey, recognisedKey, keyName_takeWhile_trim hcolon,
    keyName_takeWhile_trim hseparator, mem_trim_iff (show isBlank ':' = false by decide)]

theorem keptValue_trim (entry : List Char) : keptValue (trim entry) = keptValue entry := by
  rw [keptValue, trim_trim, keptValue]

theorem addEntry_eq (attributes : Attributes) {entry : List Char} (h : trim entry = entry) :
    addEntry attributes entry = Table.put (keptKey entry) (keptValue entry) attributes := by
  unfold addEntry keptValue
  rw [h]
  -- With a colon the entry is cut there, otherwise at an equals sign; `keptKey` makes the same
  -- choice.
  cases hcolon : cutAt? (· = ':') entry with
  | some cut =>
    have hmem : ':' ∈ entry := by
      obtain ⟨s, hs, heq⟩ := eq_append_of_cutAt? hcolon
      obtain rfl : s = ':' := of_decide_eq_true hs
      simp [heq]
    have hkey : entry.takeWhile (· ≠ ':') = cut.1 := by
      simpa using takeWhile_of_cutAt? hcolon
    simp only [keptKey, if_pos hmem, hkey]
  | none =>
    have hmem : ':' ∉ entry := by
      intro hmem
      simpa using cutAt?_eq_none_iff.1 hcolon ':' hmem
    have hkept : keptKey entry = keyName (entry.takeWhile (· ≠ '=')) := by
      rw [keptKey, if_neg hmem, recognisedKey, takeWhile_not_isAssignment,
        takeWhile_ne_of_not_mem hmem]
    cases hequals : cutAt? (· = '=') entry with
    | some cut =>
      have hkey : entry.takeWhile (· ≠ '=') = cut.1 := by
        simpa using takeWhile_of_cutAt? hequals
      simp only [hkept, hkey]
    | none =>
      have hfree : '=' ∉ entry := by
        intro hmem
        simpa using cutAt?_eq_none_iff.1 hequals '=' hmem
      simp only [hkept, takeWhile_ne_of_not_mem hfree, keyName, h]

section Colon
variable {key : List Char}

theorem isAttribute_append_colon (hkey : keyName key ∈ attributeKeys)
    (hfree : ∀ c ∈ key, isAssignment c = false) (value : List Char) :
    isAttribute (key ++ ':' :: value) = true := by
  have hcolon : isAssignment ':' = true := by decide
  have htake : (key ++ ':' :: value).takeWhile (!isAssignment ·) = key :=
    takeWhile_of_cutAt? (cutAt?_append_cons hfree hcolon value)
  have hany : (key ++ ':' :: value).any isAssignment = true := by simp [hcolon]
  simp [isAttribute, htake, hkey, hany]

theorem keptKey_append_colon (hfree : ':' ∉ key) (value : List Char) :
    keptKey (key ++ ':' :: value) = keyName key := by
  have htake : (key ++ ':' :: value).takeWhile (· ≠ ':') = key := by
    rw [List.takeWhile_append, takeWhile_ne_of_not_mem hfree]
    simp
  rw [keptKey, if_pos (by simp), htake]

theorem keptValue_append_colon (hfree : ':' ∉ key) (value : List Char) :
    keptValue (key ++ ':' :: value) = String.ofList (Label.clean value) := by
  have hcut : cutAt? (· = ':') (trimStart key ++ ':' :: trimEnd value) =
      some (trimStart key, trimEnd value) := by
    apply cutAt?_append_cons _ (by simp)
    intro c hc
    have hne : c ≠ ':' := by
      rintro rfl
      exact hfree (mem_of_mem_trimStart hc)
    simp [hne]
  have hclean : Label.clean (trimEnd value) = Label.clean value :=
    Label.clean_eq_of_trim_eq (trim_trimEnd value)
  simp only [keptValue, trim_append_cons (show isBlank ':' = false by decide), hcut, hclean]

end Colon

theorem attributesOf_eq (block : List Char) :
    attributesOf block = attributesKept (entriesOf block) := by
  rw [attributesOf, attributesKept, List.foldl_map]
  congr 1
  funext attributes entry
  rw [addEntry_eq attributes (trim_trim entry), keptKey_trim, keptValue_trim]

theorem get?_attributesKept (key : String) (entries : List (List Char)) :
    Table.get? key (attributesKept entries) =
      (entries.filter (keptKey · = key)).getLast?.map keptValue := by
  rw [attributesKept, Table.get?_foldl_put, Table.get?_nil, Option.or_none]

theorem has_attributesKept_iff {key : String} {entries : List (List Char)} :
    Table.has key (attributesKept entries) = true ↔ ∃ entry ∈ entries, keptKey entry = key := by
  rw [Table.has_eq, get?_attributesKept, Option.isSome_map, List.getLast?_isSome]
  simp [List.filter_eq_nil_iff]

end Attributes

section Loss
variable {a b : Attributes}

/-- Two tables say the same wherever declarations look. -/
def AgreeOnKnown (a b : Attributes) : Prop :=
  ∀ key ∈ knownKeys, Table.get? key a = Table.get? key b

theorem AgreeOnKnown.filled? (h : AgreeOnKnown a b) {key : String} (hkey : key ∈ knownKeys) :
    Diagram.filled? a key = Diagram.filled? b key := by
  rw [Diagram.filled?, h key hkey, Diagram.filled?]

theorem AgreeOnKnown.lookOf (h : AgreeOnKnown a b) : lookOf a = lookOf b := by
  have hstyle : styleOf a = styleOf b := by
    unfold styleOf
    rw [h "style" (by decide)]
    have hnames : ∀ style : LineStyle, Table.has style.name a = Table.has style.name b := by
      intro style
      rw [Table.has_eq, Table.has_eq, h style.name (by cases style <;> decide)]
    simp only [hnames]
  have hcolor : Diagram.filled? a "color" = Diagram.filled? b "color" := h.filled? (by decide)
  have hwidth : Diagram.filled? a "width" = Diagram.filled? b "width" := h.filled? (by decide)
  simp only [Diagram.lookOf, hstyle, hcolor, hwidth, h "animated" (by decide),
    h "stroke" (by decide), h "strokewidth" (by decide)]

theorem AgreeOnKnown.findSome?_filled? (h : AgreeOnKnown a b) {keys : List String}
    (hkeys : ∀ key ∈ keys, key ∈ knownKeys) :
    keys.findSome? (Diagram.filled? a) = keys.findSome? (Diagram.filled? b) := by
  induction keys with
  | nil => rfl
  | cons key keys ih =>
    obtain ⟨hkey, hrest⟩ := List.forall_mem_cons.1 hkeys
    rw [List.findSome?_cons, List.findSome?_cons, h.filled? hkey, ih hrest]

def wholeEntries (block : List Char) : List (List Char) :=
  (entriesOf block).filter (¬ IsTorn ·)

/-- Torn entries might as well not be there. -/
theorem agreeOnKnown_wholeEntries (block : List Char) :
    AgreeOnKnown (attributesKept (entriesOf block)) (attributesKept (wholeEntries block)) := by
  intro key hkey
  rw [get?_attributesKept, get?_attributesKept, wholeEntries, List.filter_filter]
  congr 2
  apply List.filter_congr
  intro entry _
  by_cases hkept : keptKey entry = key
  · have hwhole : ¬ IsTorn entry := fun htorn => keptKey_not_mem_of_torn htorn (hkept ▸ hkey)
    simp [hkept, hwhole]
  · simp [hkept]

end Loss

/-- In a block that is cut off a text each entry is recognised by a known key, and it is kept under
that key unless it is torn. So the keys that are kept are all known just if no entry is torn; of
entries with the same key the last one counts; and torn entries are lost, as connections and nodes
are read as if they were not there. -/
theorem known_keys_iff_no_entry_torn {text body block : List Char}
    (h : splitBlock text = (body, some block)) :
    (∀ entry ∈ entriesOf block, recognisedKey entry ∈ knownKeys ∧
      (keptKey entry = recognisedKey entry ↔ ¬ IsTorn entry) ∧
      (¬ IsTorn entry → Table.has (recognisedKey entry) (attributesOf block) = true)) ∧
    ((∀ key, Table.has key (attributesOf block) = true → key ∈ knownKeys) ↔
      ∀ entry ∈ entriesOf block, ¬ IsTorn entry) ∧
    (∀ key, Table.get? key (attributesOf block) =
      ((entriesOf block).filter (keptKey · = key)).getLast?.map keptValue) ∧
    lookOf (attributesOf block) = lookOf (attributesKept (wholeEntries block)) ∧
    subLabelKeys.findSome? (filled? (attributesOf block)) =
      subLabelKeys.findSome? (filled? (attributesKept (wholeEntries block))) := by
  -- Braces are cut off only where every entry in them is recognised.
  have hrecognised : ∀ entry ∈ entriesOf block, isAttribute entry = true := by
    obtain hnone | ⟨before, inside, -, hall, hsome⟩ := splitBlock_cases text
    · rw [hnone] at h
      cases h
    · rw [hsome] at h
      cases h
      exact hall
  have hagree := agreeOnKnown_wholeEntries block
  rw [attributesOf_eq]
  refine ⟨fun entry hentry => ⟨?_, ?_, fun hwhole => ?_⟩, ⟨fun hknown entry hentry htorn => ?_,
    fun hwhole key hkey => ?_⟩, fun key => get?_attributesKept key _, hagree.lookOf,
    hagree.findSome?_filled? (by decide)⟩
  · exact recognisedKey_mem_knownKeys (hrecognised entry hentry)
  · exact keptKey_eq_recognisedKey_iff (hrecognised entry hentry)
  · exact has_attributesKept_iff.2 ⟨entry, hentry, keptKey_of_not_torn hwhole⟩
  · exact keptKey_not_mem_of_torn htorn
      (hknown _ (has_attributesKept_iff.2 ⟨entry, hentry, rfl⟩))
  · obtain ⟨entry, hentry, rfl⟩ := has_attributesKept_iff.1 hkey
    rw [keptKey_of_not_torn (hwhole entry hentry)]
    exact recognisedKey_mem_knownKeys (hrecognised entry hentry)

/-- Of the two entries in this block one is torn. -/
theorem torn_style_is_lost :
    let block := "sub: x; style=dashed: now".toList
    splitBlock "A -> B \x7b sub: x; style=dashed: now \x7d".toList = ("A -> B".toList, some block) ∧
      wholeEntries block = ["sub: x".toList] ∧
      ¬ (∀ key, Table.has key (attributesOf block) = true → key ∈ knownKeys) ∧
      lookOf (attributesOf block) = lookOf [("sub", "x")] := by
  have hsplit : splitBlock "A -> B \x7b sub: x; style=dashed: now \x7d".toList =
      ("A -> B".toList, some "sub: x; style=dashed: now".toList) := by decide
  obtain ⟨-, hknown, -, hlook, -⟩ := known_keys_iff_no_entry_torn hsplit
  refine ⟨hsplit, by decide, ?_, ?_⟩
  · rw [hknown]
    decide
  · rw [hlook]
    rfl

/-- A sub-label that gives a time is cut off its node by its key and kept under another one. -/
theorem timed_sub_label_is_lost :
    splitBlock "Meet \x7b sub=at 10:30 \x7d".toList = ("Meet".toList, some "sub=at 10:30".toList) ∧
      recognisedKey "sub=at 10:30".toList = "sub" ∧
      attributesOf "sub=at 10:30".toList = [("sub=at 10", "30")] ∧
      (readNode 1 "[note] Meet \x7b sub=at 10:30 \x7d".toList).toOption.map (·.subLabel) =
        some none := by
  decide

end FlowCanvas.Diagram
