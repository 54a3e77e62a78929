import FlowCanvas.Canvas.Store
import FlowCanvas.Proofs.Fallible

namespace FlowCanvas

namespace Value

theorem isEmpty_orElse {v w : Value} (hw : w.isEmpty = false) : (v.orElse w).isEmpty = false := by
  unfold orElse
  split
  · exact hw
  · next hv => simpa using hv

theorem orElse_of_filled {v : Value} (h : v.isEmpty = false) (w : Value) : v.orElse w = v := by
  simp [orElse, h]

theorem orElse_of_empty {v : Value} (h : v.isEmpty = true) (w : Value) : v.orElse w = w := by
  simp [orElse, h]

theorem orElse_null {v : Value} (h : v.isEmpty = true → v = null) : v.orElse null = v := by
  cases hempty : v.isEmpty with
  | true => rw [orElse_of_empty hempty, h hempty]
  | false => exact orElse_of_filled hempty _

theorem isEmpty_text_eq_false_iff {s : String} : (text s).isEmpty = false ↔ s ≠ "" := by
  rw [Ne, ← String.isEmpty_iff, Bool.not_eq_true]
  rfl

theorem plain_text_orElse (s : String) :
    (((text s).orElse null).orElse (text "")).plain = s := by
  by_cases h : s = ""
  · subst h
    rfl
  · have hfilled := isEmpty_text_eq_false_iff.2 h
    rw [orElse_of_filled hfilled, orElse_of_filled hfilled]
    rfl

theorem asFields_object_orElse (fields : Fields) :
    ((object fields).orElse null).orNoFields.asFields = .ok fields := by
  cases fields <;> rfl

end Value

theorem get_optionalField (name other : String) (v : Value) :
    Fields.get name ((optionalField other v).map fun f => (.text f.1, f.2)) =
      if other = name then v.orElse .null else .null := by
  cases h : v.isEmpty <;> by_cases hname : other = name <;>
    simp [optionalField, Value.orElse, h, hname, Fields.get, Fields.find?, Key.same]

theorem optionalField_orElse (name : String) (v : Value) :
    optionalField name (v.orElse .null) = optionalField name v := by
  cases h : v.isEmpty with
  | true =>
    rw [Value.orElse_of_empty h, optionalField, optionalField, h]
    rfl
  | false => rw [Value.orElse_of_filled h]

namespace Node

theorem ofValue_eq_ok_iff {entry : Value} {n : Node} :
    ofValue entry = .ok n ↔ ∃ fields data,
      entry.asObject = .ok fields ∧ (fields.get "data").orNoFields.asObject = .ok data ∧
      fields.required "id" = .ok n.id ∧ n.kind = (fields.get "type").orElse (.text "process") ∧
      n.label =
        (((data.get "label").orElse (fields.get "label")).orElse (.text "")).plain ∧
      n.subLabel = data.get "subLabel" ∧ Point.ofValue (fields.get "position") = .ok n.position ∧
      (fields.get "style").orNoFields.asFields = .ok n.style := by
  unfold ofValue
  simp only [bind_eq_ok_iff]
  constructor
  · rintro ⟨fields, hfields, id, hid, data, hdata, position, hposition, style, hstyle, hn⟩
    obtain rfl := Except.ok.inj hn
    exact ⟨fields, data, hfields, hdata, hid, rfl, rfl, rfl, hposition, hstyle⟩
  · rintro ⟨fields, data, hfields, hdata, hid, hkind, hlabel, hsub, hposition, hstyle⟩
    refine ⟨fields, hfields, n.id, hid, data, hdata, n.position, hposition, n.style, hstyle, ?_⟩
    rw [← hkind, ← hlabel, ← hsub]
    rfl

/-- The node that is read again once a node has been written. -/
def reread (n : Node) : Node :=
  { n with
    kind := n.kind.orElse (.text "process")
    subLabel := n.subLabel.orElse .null
    position := some (n.position.getD Point.origin) }

theorem ofValue_toValue (n : Node) : ofValue n.toValue = .ok n.reread := by
  let data : Fields := (.text "label", .text n.label) ::
    (optionalField "subLabel" n.subLabel).map fun f => (.text f.1, f.2)
  let style : Fields := (optionalField "style" (.object n.style)).map fun f => (.text f.1, f.2)
  let fields : Fields := [(.text "id", .text n.id), (.text "type", n.kind),
    (.text "data", .object data),
    (.text "position", (n.position.getD Point.origin).toValue)] ++ style
  have hwritten : n.toValue = .object fields := by
    rw [toValue, Value.record, List.map_append]
    rfl
  rw [hwritten, ofValue_eq_ok_iff]
  refine ⟨fields, data, rfl, rfl, rfl, rfl, ?_, ?_, rfl, ?_⟩
  · -- An empty label is not looked up in another place: none is written there.
    have hother : fields.get "label" = .null :=
      get_optionalField "label" "style" (.object n.style)
    have hlabel : data.get "label" = .text n.label := rfl
    rw [hother, hlabel]
    exact (Value.plain_text_orElse n.label).symm
  · exact (get_optionalField "subLabel" "subLabel" n.subLabel).symm
  · have hstyle : fields.get "style" = (Value.object n.style).orElse .null :=
      get_optionalField "style" "style" (.object n.style)
    rw [hstyle]
    exact Value.asFields_object_orElse n.style

/-- Writing what was read again changes nothing, provided that the kind is given. -/
theorem toValue_reread {n : Node} (h : n.kind.isEmpty = false) : n.reread.toValue = n.toValue := by
  simp only [toValue, reread, Value.orElse_of_filled h, optionalField_orElse, Option.getD_some]

theorem isEmpty_kind_of_ofValue {entry : Value} {n : Node} (h : ofValue entry = .ok n) :
    n.kind.isEmpty = false := by
  obtain ⟨fields, data, -, -, -, hkind, -⟩ := ofValue_eq_ok_iff.1 h
  rw [hkind]
  exact Value.isEmpty_orElse rfl

theorem reread_eq_self {n : Node} (hkind : n.kind.isEmpty = false)
    (hsub : n.subLabel.isEmpty = true → n.subLabel = .null) (hposition : n.position.isSome) :
    n.reread = n := by
  obtain ⟨position, hposition⟩ := Option.isSome_iff_exists.1 hposition
  rw [reread, Value.orElse_of_filled hkind, Value.orElse_null hsub, hposition, Option.getD_some,
    ← hposition]

end Node

namespace Edge

theorem ofValue_eq_ok_iff {entry : Value} {e : Edge} :
    ofValue entry = .ok e ↔ ∃ fields,
      entry.asKeyed = .ok fields ∧ fields.required "id" = .ok e.id ∧
      fields.required "source" = .ok e.source ∧ fields.required "target" = .ok e.target ∧
      e.kind = (fields.get "type").orElse (.text "default") ∧
      e.animated = !(fields.get "animated").isEmpty ∧ e.label = fields.get "label" ∧
      (fields.get "style").orNoFields.asFields = .ok e.style := by
  unfold ofValue
  simp only [bind_eq_ok_iff]
  constructor
  · rintro ⟨fields, hfields, id, hid, source, hsource, target, htarget, style, hstyle, he⟩
    obtain rfl := Except.ok.inj he
    exact ⟨fields, hfields, hid, hsource, htarget, rfl, rfl, rfl, hstyle⟩
  · rintro ⟨fields, hfields, hid, hsource, htarget, hkind, hanimated, hlabel, hstyle⟩
    refine ⟨fields, hfields, e.id, hid, e.source, hsource, e.target, htarget, e.style, hstyle, ?_⟩
    rw [← hkind, ← hanimated, ← hlabel]
    rfl

def reread (e : Edge) : Edge :=
  { e with kind := e.kind.orElse (.text "default"), label := e.label.orElse .null }

theorem ofValue_toValue (e : Edge) : ofValue e.toValue = .ok e.reread := by
  let label : Fields := (optionalField "label" e.label).map fun f => (.text f.1, f.2)
  let fields : Fields := [(.text "id", .text e.id), (.text "source", .text e.source),
    (.text "target", .text e.target), (.text "type", e.kind), (.text "animated", .flag e.animated),
    (.text "style", .object e.style)] ++ label
  have hwritten : e.toValue = .object fields := by
    rw [toValue, Value.record, List.map_append]
    rfl
  rw [hwritten, ofValue_eq_ok_iff]
  refine ⟨fields, rfl, rfl, rfl, rfl, rfl, ?_, ?_, ?_⟩
  · exact (Bool.not_not e.animated).symm
  · exact (get_optionalField "label" "label" e.label).symm
  · show (Value.object e.style).orNoFields.asFields = .ok e.style
    cases e.style <;> rfl

theorem toValue_reread {e : Edge} (h : e.kind.isEmpty = false) : e.reread.toValue = e.toValue := by
  simp only [toValue, reread, Value.orElse_of_filled h, optionalField_orElse]

theorem isEmpty_kind_of_ofValue {entry : Value} {e : Edge} (h : ofValue entry = .ok e) :
    e.kind.isEmpty = false := by
  obtain ⟨fields, -, -, -, -, hkind, -⟩ := ofValue_eq_ok_iff.1 h
  rw [hkind]
  exact Value.isEmpty_orElse rfl

theorem reread_eq_self {e : Edge} (hkind : e.kind.isEmpty = false)
    (hlabel : e.label.isEmpty = true → e.label = .null) : e.reread = e := by
  rw [reread, Value.orElse_of_filled hkind, Value.orElse_null hlabel]

end Edge

namespace Snapshot

structure IsTyped (s : Snapshot) : Prop where
  nodes : ∀ n ∈ s.nodes, n.kind.isEmpty = false
  edges : ∀ e ∈ s.edges, e.kind.isEmpty = false

def reread (s : Snapshot) : Snapshot where
  nodes := s.nodes.map Node.reread
  edges := s.edges.map Edge.reread

theorem ofFields_of_entries {fields : Fields} {s : Snapshot}
    (hnodes : fields.get "nodes" = .list (s.nodes.map Node.toValue))
    (hedges : fields.get "edges" = .list (s.edges.map Edge.toValue)) :
    ofFields fields = .ok s.reread := by
  have hitems (name : String) (items : List Value) (h : fields.get name = .list items) :
      entries name fields = .ok items := by
    rw [entries, h]
    cases items <;> rfl
  simp only [ofFields, bind_eq_ok_iff]
  refine ⟨_, hitems _ _ hnodes, _, ?_, _, hitems _ _ hedges, _, ?_, rfl⟩
  · rw [List.mapM_map]
    exact mapM_eq_ok fun n _ => Node.ofValue_toValue n
  · rw [List.mapM_map]
    exact mapM_eq_ok fun e _ => Edge.ofValue_toValue e

theorem ofValue_toValue (s : Snapshot) : ofValue s.toValue = .ok s.reread :=
  ofFields_of_entries rfl rfl

theorem toValue_reread {s : Snapshot} (h : s.IsTyped) : s.reread.toValue = s.toValue := by
  have hnodes : s.reread.nodes.map Node.toValue = s.nodes.map Node.toValue := by
    rw [reread, List.map_map]
    exact List.map_congr_left fun n hn => Node.toValue_reread (h.nodes n hn)
  have hedges : s.reread.edges.map Edge.toValue = s.edges.map Edge.toValue := by
    rw [reread, List.map_map]
    exact List.map_congr_left fun e he => Edge.toValue_reread (h.edges e he)
  rw [toValue, toValue, hnodes, hedges]

theorem isTyped_of_ofValue {payload : Value} {s : Snapshot} (h : ofValue payload = .ok s) :
    s.IsTyped := by
  simp only [ofValue, ofFields, bind_eq_ok_iff] at h
  obtain ⟨fields, -, nodeEntries, -, nodes, hnodes, edgeEntries, -, edges, hedges, hs⟩ := h
  obtain rfl := Except.ok.inj hs
  refine ⟨fun n hn => ?_, fun e he => ?_⟩
  · obtain ⟨entry, -, hread⟩ := exists_mem_of_mapM hnodes n hn
    exact Node.isEmpty_kind_of_ofValue hread
  · obtain ⟨entry, -, hread⟩ := exists_mem_of_mapM hedges e he
    exact Edge.isEmpty_kind_of_ofValue hread

/-- What a payload is written as once it has been read. -/
def rewrite (payload : Value) : Except Misfit Value :=
  (ofValue payload).map toValue

theorem rewrite_rewritten {payload written : Value} (h : rewrite payload = .ok written) :
    rewrite written = .ok written := by
  cases hread : ofValue payload with
  | error misfit => simp [rewrite, hread, Except.map] at h
  | ok s =>
    obtain rfl : s.toValue = written := by simpa [rewrite, hread, Except.map] using h
    rw [rewrite, ofValue_toValue, Except.map, toValue_reread (isTyped_of_ofValue hread)]

end Snapshot

/-- A canvas with all kinds given is loaded from its file as one that is written alike, provided
that the JSON in the file is read as it was written. -/
theorem Store.load_save {s : Store} (h : s.snapshot.IsTyped)
    (hjson : Json.parse (Json.pretty s.snapshot.toValue) = .ok s.snapshot.toValue) :
    ∃ s', Store.load s.save = .ok s' ∧ s'.snapshot.toValue = s.snapshot.toValue := by
  refine ⟨.ofSnapshot s.snapshot.reread, ?_, Snapshot.toValue_reread h⟩
  let fields : Fields := [(.text "nodes", .list (s.nodes.map Node.toValue)),
    (.text "edges", .list (s.edges.map Edge.toValue))]
  have hfile : Json.parse s.save = .ok (.object fields) := hjson
  have hread : Snapshot.ofFields fields = .ok s.snapshot.reread :=
    Snapshot.ofFields_of_entries rfl rfl
  rw [load, hfile]
  simp only
  rw [hread]
  rfl

end FlowCanvas
