import FlowCanvas.Canvas.Store
import FlowCanvas.Proofs.Decimal.Range
import FlowCanvas.Proofs.Fallible

namespace FlowCanvas

namespace Number

/-- An integer has no double from half a place past the largest double on. -/
theorem ofInt?_eq_none_iff {n : ℤ} : ofInt? n = none ↔ Decimal.overflow ≤ |(n : ℚ)| := by
  have hvalue : (⟨n.natAbs, 0⟩ : Decimal).toRat = |(n : ℚ)| := by simp [Decimal.toRat]
  rw [← hvalue, ← Decimal.isInf_toFloat_iff]
  simp only [ofInt?]
  split
  · next hinfinite => simp [hinfinite]
  · next hfinite => simp [hfinite]

end Number

namespace Value

/-- An integer that no double is near to. -/
def IsPastDoubles : Value → Prop
  | .number (.int n) => Decimal.overflow ≤ |(n : ℚ)|
  | _ => False

theorem asFloat_eq_tooLarge_iff {v : Value} :
    v.asFloat = .error .tooLarge ↔ v.IsPastDoubles := by
  cases v with
  | number n =>
    cases n with
    | int n =>
      rw [asFloat, Number.asFloat, Number.toFloat?, IsPastDoubles, ← Number.ofInt?_eq_none_iff]
      cases Number.ofInt? n <;> simp
    | float x => simp [asFloat, Number.asFloat, Number.toFloat?, IsPastDoubles]
  | text s =>
    simp only [asFloat, IsPastDoubles, iff_false]
    split <;> simp
  | null | flag _ | list _ | object _ | other _ _ => simp [asFloat, IsPastDoubles]

theorem asObject_ne_tooLarge (v : Value) : v.asObject ≠ .error .tooLarge := by
  cases v <;> simp [asObject]

theorem asKeyed_ne_tooLarge (v : Value) : v.asKeyed ≠ .error .tooLarge := by
  cases v <;> simp [asKeyed]

theorem items_ne_tooLarge (v : Value) : v.items ≠ .error .tooLarge := by
  cases v <;> simp [items]

theorem asPair_ne_tooLarge (index : ℕ) (item : Value) : asPair index item ≠ .error .tooLarge := by
  unfold asPair
  split
  · simp
  · split <;> simp
  · simp

theorem pairsFrom_ne_tooLarge (index : ℕ) (items : List Value) :
    pairsFrom index items ≠ .error .tooLarge := by
  induction items generalizing index with
  | nil => simp [pairsFrom]
  | cons item r ih =>
    intro h
    rw [pairsFrom, bind_eq_error_iff] at h
    obtain h | ⟨pair, -, h⟩ := h
    · exact asPair_ne_tooLarge index item h
    · obtain h | ⟨pairs, -, h⟩ := bind_eq_error_iff.1 h
      · exact ih (index + 1) h
      · cases h

theorem asFields_ne_tooLarge (v : Value) : v.asFields ≠ .error .tooLarge := by
  have hpairs : (v.items >>= fun items => pairsFrom 0 items >>= fun pairs =>
      .ok (Fields.ofPairs pairs)) ≠ .error .tooLarge := by
    intro h
    obtain h | ⟨items, -, h⟩ := bind_eq_error_iff.1 h
    · exact items_ne_tooLarge v h
    · obtain h | ⟨pairs, -, h⟩ := bind_eq_error_iff.1 h
      · exact pairsFrom_ne_tooLarge 0 items h
      · cases h
  cases v with
  | object fields => simp [asFields]
  | null | flag _ | number _ | text _ | list _ | other _ _ => exact hpairs

end Value

theorem Fields.required_ne_tooLarge (name : String) (fields : Fields) :
    fields.required name ≠ .error .tooLarge := by
  unfold required
  split <;> simp

namespace Point

def IsPastDoubles (place : Fields) : Prop :=
  (∃ v, place.find? (.text "x") = some v ∧ v.IsPastDoubles) ∨
    (∃ x, coordinate "x" place = .ok x) ∧
      ∃ v, place.find? (.text "y") = some v ∧ v.IsPastDoubles

theorem coordinate_eq_tooLarge_iff {name : String} {place : Fields} :
    coordinate name place = .error .tooLarge ↔
      ∃ v, place.find? (.text name) = some v ∧ v.IsPastDoubles := by
  unfold coordinate
  cases place.find? (.text name) with
  | none => simp
  | some v => simpa using Value.asFloat_eq_tooLarge_iff

theorem ofValue_eq_tooLarge_iff {v : Value} :
    ofValue v = .error .tooLarge ↔ ∃ place, v = .object place ∧ IsPastDoubles place := by
  cases v with
  | object place =>
    simp only [ofValue, bind_eq_error_iff, coordinate_eq_tooLarge_iff, Value.object.injEq,
      exists_eq_left', IsPastDoubles]
    constructor
    · rintro (hx | ⟨x, hx, hy | ⟨y, -, h⟩⟩)
      · exact .inl hx
      · exact .inr ⟨⟨x, hx⟩, hy⟩
      · cases h
    · rintro (hx | ⟨⟨x, hx⟩, hy⟩)
      · exact .inl hx
      · exact .inr ⟨x, hx, .inl hy⟩
  | null | flag _ | number _ | text _ | list _ | other _ _ => simp [ofValue]

end Point

/-- A node entry that is read up to its position, and whose position cannot be held. -/
def Node.IsPastDoubles (entry : Value) : Prop :=
  ∃ fields id data place, entry.asObject = .ok fields ∧ fields.required "id" = .ok id ∧
    (fields.get "data").orNoFields.asObject = .ok data ∧
    fields.get "position" = .object place ∧ Point.IsPastDoubles place

theorem Node.ofValue_eq_tooLarge_iff {entry : Value} :
    ofValue entry = .error .tooLarge ↔ IsPastDoubles entry := by
  simp only [ofValue, bind_eq_error_iff, Value.asObject_ne_tooLarge, Fields.required_ne_tooLarge,
    Value.asFields_ne_tooLarge, Point.ofValue_eq_tooLarge_iff, false_or]
  constructor
  · rintro ⟨fields, hfields, id, hid, data, hdata, ⟨place, hplace, hpast⟩ | ⟨p, -, style, -, h⟩⟩
    · exact ⟨fields, id, data, place, hfields, hid, hdata, hplace, hpast⟩
    · cases h
  · rintro ⟨fields, id, data, place, hfields, hid, hdata, hplace, hpast⟩
    exact ⟨fields, hfields, id, hid, data, hdata, .inl ⟨place, hplace, hpast⟩⟩

theorem Edge.ofValue_ne_tooLarge (entry : Value) : ofValue entry ≠ .error .tooLarge := by
  simp only [ofValue, ne_eq, bind_eq_error_iff, Value.asKeyed_ne_tooLarge,
    Fields.required_ne_tooLarge, Value.asFields_ne_tooLarge, false_or, not_exists, not_and]
  rintro fields - id - source - target - style - h
  cases h

namespace Snapshot

def IsPastDoubles (fields : Fields) : Prop :=
  ∃ before entry after, entries "nodes" fields = .ok (before ++ entry :: after) ∧
    (∀ earlier ∈ before, ∃ n, Node.ofValue earlier = .ok n) ∧ Node.IsPastDoubles entry

theorem entries_ne_tooLarge (name : String) (fields : Fields) :
    entries name fields ≠ .error .tooLarge :=
  Value.items_ne_tooLarge _

theorem ofFields_eq_tooLarge_iff {fields : Fields} :
    ofFields fields = .error .tooLarge ↔ IsPastDoubles fields := by
  have hedges (list : List Value) : list.mapM Edge.ofValue ≠ .error .tooLarge := by
    intro h
    obtain ⟨before, entry, after, -, -, h⟩ := mapM_eq_error_iff.1 h
    exact Edge.ofValue_ne_tooLarge entry h
  simp only [ofFields, bind_eq_error_iff, entries_ne_tooLarge, hedges, false_or,
    mapM_eq_error_iff, Node.ofValue_eq_tooLarge_iff]
  constructor
  · rintro ⟨list, hlist, ⟨before, entry, after, rfl, hbefore, hpast⟩ | ⟨nodes, -, l, -, es, -, h⟩⟩
    · exact ⟨before, entry, after, hlist, hbefore, hpast⟩
    · cases h
  · rintro ⟨before, entry, after, hlist, hbefore, hpast⟩
    exact ⟨_, hlist, .inl ⟨before, entry, after, rfl, hbefore, hpast⟩⟩

end Snapshot

/-- A canvas file in which a node that lies too far out comes before all else that is wrong with
the entries. -/
def Store.IsPastDoubles (text : String) : Prop :=
  ∃ fields, Json.parse text = .ok (.object fields) ∧ Snapshot.IsPastDoubles fields

theorem Store.load_eq_tooLarge_iff {text : String} :
    load text = .error (.invalid .tooLarge) ↔ IsPastDoubles text := by
  unfold load IsPastDoubles
  cases Json.parse text with
  | error error => simp
  | ok payload =>
    cases payload with
    | object fields =>
      have hmap : ((Snapshot.ofFields fields).map ofSnapshot).mapError LoadError.invalid =
          .error (.invalid .tooLarge) ↔ Snapshot.ofFields fields = .error .tooLarge := by
        cases Snapshot.ofFields fields <;> simp [Except.map, Except.mapError]
      simpa [Snapshot.ofFields_eq_tooLarge_iff] using hmap
    | null | flag _ | number _ | text _ | list _ | other _ _ => simp

end FlowCanvas
