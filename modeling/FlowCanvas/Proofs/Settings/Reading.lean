import FlowCanvas.Proofs.Fallible
import FlowCanvas.Proofs.Text.Spacing
import FlowCanvas.Settings.Reading

namespace FlowCanvas

namespace Key
variable {key : Key} {name : String}

theorem text_same_iff : (text name).same key = true ↔ key = text name := by
  cases key with
  | text other => rw [same, beq_iff_eq, text.injEq, eq_comm]
  | null | flag _ | number _ | other _ _ => simp [same, number?]

theorem same_text_iff : key.same (text name) = true ↔ key = text name := by
  cases key <;> simp [same, number?]

end Key

def Value.fields : Value → Fields
  | .object fields => fields
  | _ => []

/-- A name from a list of things with different names stands for what it is the name of. -/
theorem find?_name_eq_some_iff {α : Type} {all : List α} {nameOf : α → String}
    (h : ∀ a, all.find? (nameOf · == nameOf a) = some a) {name : String} {a : α} :
    all.find? (nameOf · == name) = some a ↔ name = nameOf a := by
  constructor
  · intro hfound
    have hname := List.find?_some hfound
    exact (beq_iff_eq.1 hname).symm
  · rintro rfl
    exact h a

namespace Settings

section Groups
variable {g : Section} {v : Value} {fields : Fields}

def groupIn (v : Value) : Section → Fields
  | .edges => (v.fields.get Section.edges.name).fields
  | .layout => (v.fields.get Section.layout.name).fields
  | .top => v.fields

def optionIn (v : Value) (g : Section) (key : Key) : Option Value :=
  (groupIn v g).find? key

def Section.Knows (g : Section) (key : Key) : Prop :=
  ∃ name ∈ g.known, key = .text name

/-- The keys under which a value holds the options of its groups. -/
def IsGroupKey (key : Key) : Prop :=
  key = .text Section.edges.name ∨ key = .text Section.layout.name

/-- What a group knows apart from further groups. -/
def Section.options : Section → List String
  | .top => Section.top.known.filter fun name =>
      name != Section.edges.name && name != Section.layout.name
  | g => g.known

/-- A value that can hold the options of a group; null holds none. -/
def IsGroup (v : Value) : Prop :=
  v = .null ∨ ∃ fields, v = .object fields

def strays (g : Section) (fields : Fields) : List Key :=
  (fields.map (·.1)).filter fun key => !g.known.any fun name => key.same (.text name)

theorem mem_strays_iff {key : Key} :
    key ∈ strays g fields ↔ (∃ f ∈ fields, f.1 = key) ∧ ¬g.Knows key := by
  simp only [strays, List.mem_filter, List.mem_map, Bool.not_eq_true', Section.Knows,
    List.any_eq_false, Key.same_text_iff, not_exists, not_and]

theorem isEmpty_strays_iff : (strays g fields).isEmpty = true ↔ ∀ f ∈ fields, g.Knows f.1 := by
  rw [List.isEmpty_iff, List.eq_nil_iff_forall_not_mem]
  simp only [mem_strays_iff, not_and, not_not, forall_exists_index, and_imp,
    forall_apply_eq_imp_iff₂]

def nameOf? : Key → Option String
  | .text name => some name
  | _ => none

theorem group_object : group g (.object fields) =
    if (strays g fields).isEmpty then .ok fields
    else if ((strays g fields).filterMap nameOf?).length < (strays g fields).length then
      .error (.unnamedOption g)
    else .error (.unknownOptions g
      (((strays g fields).filterMap nameOf?).mergeSort fun a b => a ≤ b)) := rfl

theorem group_eq_ok_iff :
    group g v = .ok fields ↔ IsGroup v ∧ v.fields = fields ∧ ∀ f ∈ fields, g.Knows f.1 := by
  cases v with
  | object given =>
    have hgroup : IsGroup (.object given) := .inr ⟨given, rfl⟩
    rw [group_object, and_iff_right hgroup]
    constructor
    · intro h
      split at h
      · next hstrays =>
        obtain rfl := Except.ok.inj h
        exact ⟨rfl, isEmpty_strays_iff.1 hstrays⟩
      · split at h <;> cases h
    · rintro ⟨hfields, hknown⟩
      obtain rfl : given = fields := hfields
      rw [if_pos (isEmpty_strays_iff.2 hknown)]
  | null =>
    have hgroup : IsGroup .null := .inl rfl
    rw [group, Except.ok.injEq, and_iff_right hgroup]
    constructor
    · rintro rfl
      exact ⟨rfl, List.forall_mem_nil _⟩
    · exact And.left
  | flag _ | number _ | text _ | list _ | other _ _ => simp [group, IsGroup]

theorem find?_eq_none_of_not_knows (hknown : ∀ f ∈ fields, g.Knows f.1) {key : Key}
    (hkey : ¬g.Knows key) : fields.find? key = none := by
  rw [Fields.find?, Option.map_eq_none_iff, List.find?_eq_none]
  intro f hf hsame
  obtain ⟨name, hname, hfirst⟩ := hknown f hf
  rw [hfirst, Key.text_same_iff] at hsame
  exact hkey ⟨name, hname, hsame⟩

end Groups

/-- A reader of an option that takes just what is written for something fit. -/
structure Reads {α : Type} (read : Value → Except Error α) (write : α → Value)
    (IsFit : α → Prop) : Prop where
  eq_ok_iff : ∀ v a, read v = .ok a ↔ v = write a ∧ IsFit a
  injective : Function.Injective write

section Options
variable {fields : Fields} {name : String}

/-- An option is what is given for it, or else its default. -/
theorem Reads.option_eq_ok_iff {α : Type} {read : Value → Except Error α} {write : α → Value}
    {IsFit : α → Prop} (h : Reads read write IsFit) {default a : α} (hdefault : IsFit default) :
    option fields name default read = .ok a ↔
      some (write a) = (fields.find? (.text name)).or (some (write default)) ∧ IsFit a := by
  unfold option
  cases fields.find? (.text name) with
  | some v =>
    rw [h.eq_ok_iff, Option.some_or, Option.some.injEq, eq_comm (a := v)]
  | none =>
    rw [Option.none_or, Option.some.injEq, h.injective.eq_iff, Except.ok.injEq,
      eq_comm (a := default)]
    constructor
    · rintro rfl
      exact ⟨rfl, hdefault⟩
    · exact And.left

/-- A text with something in it that is not blank. -/
def IsKind (kind : String) : Prop :=
  ∃ c ∈ kind.toList, Text.isBlank c = false

theorem isKind_iff {kind : String} : IsKind kind ↔ ¬(Text.trim kind.toList).isEmpty = true := by
  rw [List.isEmpty_iff, ← Text.areBlank_iff, Text.AreBlank]
  simp [IsKind]

theorem reads_kind : Reads readKind .text IsKind where
  eq_ok_iff v kind := by
    cases v with
    | text s =>
      rw [Value.text.injEq, isKind_iff]
      exact ite_error_eq_ok_iff (p := fun s : String => (Text.trim s.toList).isEmpty = true)
    | null | flag _ | number _ | list _ | object _ | other _ _ => simp [readKind]
  injective := fun _ _ h => Value.text.inj h

theorem reads_flag (error : Value → Error) : Reads (readFlag error) .flag fun _ => True where
  eq_ok_iff v b := by cases v <;> simp [readFlag]
  injective := fun _ _ h => Value.flag.inj h

theorem reads_positive (error : Value → Error) :
    Reads (readPositive error) .number fun n => n.atMostZero = false where
  eq_ok_iff v n := by
    cases v with
    | number m =>
      rw [Value.number.injEq, ← Bool.not_eq_true]
      exact ite_error_eq_ok_iff (p := fun n : Number => n.atMostZero = true)
    | null | flag _ | text _ | list _ | object _ | other _ _ => simp [readPositive]
  injective := fun _ _ h => Value.number.inj h

def colorValue (color : Option String) : Value :=
  color.elim .null .text

theorem reads_color : Reads readColor colorValue fun _ => True where
  eq_ok_iff v color := by cases v <;> cases color <;> simp [readColor, colorValue]
  injective := by
    intro c d h
    cases c <;> cases d <;> simp_all [colorValue]

theorem reads_text (name : String) : Reads (readText name) .text fun _ => True where
  eq_ok_iff v s := by cases v <;> simp [readText]
  injective := fun _ _ h => Value.text.inj h

theorem readName_eq_ok_iff {α : Type} {ofName? : String → Option α} {nameOf : α → String}
    (h : ∀ s a, ofName? s = some a ↔ s = nameOf a) {error : String → Error} {s : String} {a : α} :
    readName ofName? error s = .ok a ↔ s = nameOf a := by
  rw [← h, readName]
  cases ofName? s <;> simp

theorem ofName?_direction_iff {d : Direction} : Direction.ofName? name = some d ↔ name = d.name :=
  find?_name_eq_some_iff Direction.ofName?_name

theorem ofName?_spacing_iff {s : Layout.Spacing} :
    Layout.Spacing.ofName? name = some s ↔ name = s.name :=
  find?_name_eq_some_iff Layout.Spacing.ofName?_name

theorem ofName?_algorithm_iff {a : Layout.Algorithm} :
    Layout.Algorithm.ofName? name = some a ↔ name = a.name :=
  find?_name_eq_some_iff Layout.Algorithm.ofName?_name

end Options

/-- What an option is given is what is written for it; else that is its default. -/
def Completes (g : Section) (given default written : Fields) : Prop :=
  ∀ name ∈ g.options, written.find? (.text name) =
    (given.find? (.text name)).or (default.find? (.text name))

theorem find?_color (e : EdgeDefaults) :
    (edgesValue e).fields.find? (.text "color") = some (colorValue e.color) := by
  obtain ⟨_, _, _, _ | color⟩ := e <;> rfl

theorem completes_edges_iff {given : Fields} {d e : EdgeDefaults} :
    Completes .edges given (edgesValue d).fields (edgesValue e).fields ↔
      some (.text e.kind) = (given.find? (.text "type")).or (some (.text d.kind)) ∧
      some (.flag e.animated) = (given.find? (.text "animated")).or (some (.flag d.animated)) ∧
      some (.number e.width) = (given.find? (.text "stroke_width")).or (some (.number d.width)) ∧
      some (colorValue e.color) =
        (given.find? (.text "color")).or (some (colorValue d.color)) := by
  have hoptions : Section.edges.options = ["type", "animated", "stroke_width", "color"] := by
    decide
  rw [Completes, hoptions]
  simp only [List.forall_mem_cons, List.not_mem_nil, false_implies, implies_true, and_true,
    find?_color]
  exact Iff.rfl

theorem completes_layout_iff {given : Fields} {d l : Layout.Options} :
    Completes .layout given (layoutValue d).fields (layoutValue l).fields ↔
      some (.text l.direction.name) =
        (given.find? (.text "direction")).or (some (.text d.direction.name)) ∧
      some (.text l.algorithm.name) =
        (given.find? (.text "algorithm")).or (some (.text d.algorithm.name)) ∧
      some (.text l.spacing.name) =
        (given.find? (.text "spacing")).or (some (.text d.spacing.name)) ∧
      some (.number l.timeout) =
        (given.find? (.text "timeout")).or (some (.number d.timeout)) := by
  have hoptions : Section.layout.options = ["direction", "algorithm", "spacing", "timeout"] := by
    decide
  rw [Completes, hoptions]
  simp only [List.forall_mem_cons, List.not_mem_nil, false_implies, implies_true, and_true]
  exact Iff.rfl

theorem completes_top_iff {given : Fields} {d s : Settings} :
    Completes .top given d.toValue.fields s.toValue.fields ↔
      some (.flag s.keepPositions) =
        (given.find? (.text "keep_positions")).or (some (.flag d.keepPositions)) ∧
      some (.flag s.followDocument) =
        (given.find? (.text "follow_document_direction")).or (some (.flag d.followDocument)) := by
  have hoptions : Section.top.options = ["keep_positions", "follow_document_direction"] := by
    decide
  rw [Completes, hoptions]
  simp only [List.forall_mem_cons, List.not_mem_nil, false_implies, implies_true, and_true]
  exact Iff.rfl

theorem readEdges_eq_ok_iff {v : Value} {e : EdgeDefaults} :
    readEdges v = .ok e ↔ IsGroup v ∧ (∀ f ∈ v.fields, Section.edges.Knows f.1) ∧
      Completes .edges v.fields (edgesValue {}).fields (edgesValue e).fields ∧
      IsKind e.kind ∧ e.width.atMostZero = false := by
  have hkindDefault : IsKind ({} : EdgeDefaults).kind := isKind_iff.2 (by decide)
  have hwidthDefault : ({} : EdgeDefaults).width.atMostZero = false := by decide +kernel
  simp only [readEdges, bind_eq_ok_iff, group_eq_ok_iff, completes_edges_iff,
    reads_kind.option_eq_ok_iff hkindDefault, (reads_flag _).option_eq_ok_iff trivial,
    (reads_positive _).option_eq_ok_iff hwidthDefault, reads_color.option_eq_ok_iff trivial]
  constructor
  · rintro ⟨fields, ⟨hgroup, rfl, hknown⟩, kind, ⟨hkind, hkindFit⟩, animated, ⟨hanimated, -⟩,
      width, ⟨hwidth, hwidthFit⟩, color, ⟨hcolor, -⟩, he⟩
    obtain rfl := Except.ok.inj he
    exact ⟨hgroup, hknown, ⟨hkind, hanimated, hwidth, hcolor⟩, hkindFit, hwidthFit⟩
  · rintro ⟨hgroup, hknown, ⟨hkind, hanimated, hwidth, hcolor⟩, hkindFit, hwidthFit⟩
    exact ⟨v.fields, ⟨hgroup, rfl, hknown⟩, e.kind, ⟨hkind, hkindFit⟩, e.animated,
      ⟨hanimated, trivial⟩, e.width, ⟨hwidth, hwidthFit⟩, e.color, ⟨hcolor, trivial⟩, rfl⟩

theorem readLayout_eq_ok_iff {v : Value} {l : Layout.Options} :
    readLayout v = .ok l ↔ IsGroup v ∧ (∀ f ∈ v.fields, Section.layout.Knows f.1) ∧
      Completes .layout v.fields (layoutValue {}).fields (layoutValue l).fields ∧
      l.timeout.atMostZero = false := by
  have htimeoutDefault : ({} : Layout.Options).timeout.atMostZero = false := by decide +kernel
  simp only [readLayout, bind_eq_ok_iff, group_eq_ok_iff, completes_layout_iff,
    (reads_text _).option_eq_ok_iff trivial, (reads_positive _).option_eq_ok_iff htimeoutDefault,
    readName_eq_ok_iff fun _ _ => ofName?_direction_iff,
    readName_eq_ok_iff fun _ _ => ofName?_spacing_iff,
    readName_eq_ok_iff fun _ _ => ofName?_algorithm_iff]
  constructor
  · rintro ⟨fields, ⟨hgroup, rfl, hknown⟩, _, ⟨hdirection, -⟩, _, ⟨halgorithm, -⟩, _,
      ⟨hspacing, -⟩, direction, rfl, spacing, rfl, algorithm, rfl, timeout,
      ⟨htimeout, htimeoutFit⟩, hl⟩
    obtain rfl := Except.ok.inj hl
    exact ⟨hgroup, hknown, ⟨hdirection, halgorithm, hspacing, htimeout⟩, htimeoutFit⟩
  · rintro ⟨hgroup, hknown, ⟨hdirection, halgorithm, hspacing, htimeout⟩, htimeoutFit⟩
    exact ⟨v.fields, ⟨hgroup, rfl, hknown⟩, _, ⟨hdirection, trivial⟩, _, ⟨halgorithm, trivial⟩, _,
      ⟨hspacing, trivial⟩, l.direction, rfl, l.spacing, rfl, l.algorithm, rfl, l.timeout,
      ⟨htimeout, htimeoutFit⟩, rfl⟩

structure AreKnown (v : Value) : Prop where
  edges : IsGroup (v.fields.get Section.edges.name)
  layout : IsGroup (v.fields.get Section.layout.name)
  knows : ∀ g, ∀ f ∈ groupIn v g, g.Knows f.1

/-- What settings keep to beyond the types of their parts. -/
structure IsFit (s : Settings) : Prop where
  kind : IsKind s.edges.kind
  width : s.edges.width.atMostZero = false
  timeout : s.layout.timeout.atMostZero = false

def IsCompletedBy (v : Value) (s : Settings) : Prop :=
  ∀ g, Completes g (groupIn v g) (groupIn ({} : Settings).toValue g) (groupIn s.toValue g)

theorem Section.forall_iff {P : Section → Prop} : (∀ g, P g) ↔ P edges ∧ P layout ∧ P top := by
  constructor
  · intro h
    exact ⟨h edges, h layout, h top⟩
  · rintro ⟨hedges, hlayout, htop⟩ (_ | _ | _)
    exacts [hedges, hlayout, htop]

/-- Fields are read as settings just if all options are known and the settings are fit and write
what is given, completed by the defaults. -/
theorem ofFields_eq_ok_iff {fields : Fields} {s : Settings} :
    ofFields fields = .ok s ↔
      AreKnown (.object fields) ∧ IsCompletedBy (.object fields) s ∧ s.IsFit := by
  simp only [ofFields, bind_eq_ok_iff, readEdges_eq_ok_iff, readLayout_eq_ok_iff, group_eq_ok_iff,
    (reads_flag _).option_eq_ok_iff trivial]
  constructor
  · rintro ⟨edges, ⟨hedges, hedgesKnown, hedgesFrom, hkind, hwidth⟩, layout,
      ⟨hlayout, hlayoutKnown, hlayoutFrom, htimeout⟩, top, ⟨-, rfl, htopKnown⟩, keepPositions,
      ⟨hkeep, -⟩, followDocument, ⟨hfollow, -⟩, hs⟩
    obtain rfl := Except.ok.inj hs
    refine ⟨⟨hedges, hlayout, ?_⟩, ?_, hkind, hwidth, htimeout⟩
    · exact Section.forall_iff.2 ⟨hedgesKnown, hlayoutKnown, htopKnown⟩
    · exact Section.forall_iff.2 ⟨hedgesFrom, hlayoutFrom, completes_top_iff.2 ⟨hkeep, hfollow⟩⟩
  · rintro ⟨hknown, hfrom, hfit⟩
    obtain ⟨hedgesKnown, hlayoutKnown, htopKnown⟩ := Section.forall_iff.1 hknown.knows
    obtain ⟨hedgesFrom, hlayoutFrom, htopFrom⟩ := Section.forall_iff.1 hfrom
    obtain ⟨hkeep, hfollow⟩ := completes_top_iff.1 htopFrom
    exact ⟨s.edges, ⟨hknown.edges, hedgesKnown, hedgesFrom, hfit.kind, hfit.width⟩, s.layout,
      ⟨hknown.layout, hlayoutKnown, hlayoutFrom, hfit.timeout⟩, fields,
      ⟨.inr ⟨fields, rfl⟩, rfl, htopKnown⟩, s.keepPositions, ⟨hkeep, trivial⟩, s.followDocument,
      ⟨hfollow, trivial⟩, rfl⟩

theorem ofValue_object (fields : Fields) : ofValue (.object fields) = ofFields fields := by
  cases fields <;> rfl

theorem ofValue_eq_ok_iff {payload : Value} {s : Settings} :
    ofValue payload = .ok s ↔
      ∃ fields, payload.orNoFields.asFields = .ok fields ∧ ofFields fields = .ok s := by
  simp only [ofValue, bind_eq_ok_iff, mapError_eq_ok_iff]

section Written
variable {g : Section} {v : Value} {s : Settings}

theorem map_fst_groupIn_toValue (s : Settings) (g : Section) :
    (groupIn s.toValue g).map (·.1) = g.known.map .text := by
  cases g <;> rfl

theorem areKnown_toValue (s : Settings) : AreKnown s.toValue where
  edges := .inr ⟨_, rfl⟩
  layout := .inr ⟨_, rfl⟩
  knows g f hf := by
    have hkey : f.1 ∈ g.known.map Key.text := by
      rw [← map_fst_groupIn_toValue s]
      exact List.mem_map_of_mem hf
    obtain ⟨name, hname, hkey⟩ := List.mem_map.1 hkey
    exact ⟨name, hname, hkey.symm⟩

theorem isCompletedBy_toValue (s : Settings) : IsCompletedBy s.toValue s := by
  refine Section.forall_iff.2 ⟨completes_edges_iff.2 ⟨rfl, rfl, rfl, ?_⟩,
    completes_layout_iff.2 ⟨rfl, rfl, rfl, rfl⟩, completes_top_iff.2 ⟨rfl, rfl⟩⟩
  show _ = ((edgesValue s.edges).fields.find? (.text "color")).or _
  rw [find?_color, Option.some_or]

/-- Whatever names an option, settings write what is given for it, or else its default. -/
theorem IsCompletedBy.optionIn_eq (h : IsCompletedBy v s) (hknown : AreKnown v) {key : Key}
    (hkey : g = .top → ¬IsGroupKey key) :
    optionIn s.toValue g key = (optionIn v g key).or (optionIn ({} : Settings).toValue g key) := by
  by_cases hknows : g.Knows key
  · obtain ⟨name, hname, rfl⟩ := hknows
    refine h g name ?_
    cases g with
    | edges | layout => exact hname
    | top => exact List.mem_filter.2 ⟨hname, by simpa [IsGroupKey] using hkey rfl⟩
  · have hwritten (s : Settings) : optionIn s.toValue g key = none :=
      find?_eq_none_of_not_knows ((areKnown_toValue s).knows g) hknows
    have hgiven : optionIn v g key = none :=
      find?_eq_none_of_not_knows (hknown.knows g) hknows
    rw [hwritten, hwritten, hgiven, Option.none_or]

end Written

end Settings
end FlowCanvas
