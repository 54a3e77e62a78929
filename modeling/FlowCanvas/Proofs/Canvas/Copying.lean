import Mathlib.Order.Lattice
import FlowCanvas.Canvas.Store

namespace FlowCanvas

namespace Value

mutual

/-- How many levels a value has: one for itself, and those of the deepest value that it holds. -/
def levels : Value → Nat
  | .list items => listLevels items + 1
  | .object fields => fieldLevels fields + 1
  | .null | .flag _ | .number _ | .text _ | .other _ _ => 1

def listLevels : List Value → Nat
  | [] => 0
  | v :: r => max (levels v) (listLevels r)

def fieldLevels : List (Key × Value) → Nat
  | [] => 0
  | (_, v) :: r => max (levels v) (fieldLevels r)

end

section
variable {depth : Nat}

theorem listLevels_le_iff {items : List Value} :
    listLevels items ≤ depth ↔ ∀ v ∈ items, v.levels ≤ depth := by
  induction items with
  | nil => simp [listLevels]
  | cons v r ih => simp [listLevels, ih]

theorem fieldLevels_le_iff {fields : Fields} :
    fieldLevels fields ≤ depth ↔ ∀ f ∈ fields, f.2.levels ≤ depth := by
  induction fields with
  | nil => simp [fieldLevels]
  | cons f r ih => simp [fieldLevels, ih]

theorem levels_pos (v : Value) : 0 < v.levels := by
  cases v <;> simp [levels]

end
end Value

/-- Where each of a list can be copied or not, the list can be copied just if each can. -/
theorem mapM_eq_ite {α : Type} {copy : α → Option α} {Fits : α → Prop} [DecidablePred Fits]
    (l : List α) (h : ∀ a ∈ l, copy a = if Fits a then some a else none) :
    l.mapM copy = if ∀ a ∈ l, Fits a then some l else none := by
  induction l with
  | nil => simp
  | cons a r ih =>
    have hr := ih fun b hb => h b (List.mem_cons_of_mem _ hb)
    rw [List.mapM_cons, h a List.mem_cons_self, hr]
    simp only [List.forall_mem_cons]
    by_cases ha : Fits a
    · by_cases hall : ∀ b ∈ r, Fits b
      · rw [if_pos ha, if_pos hall, if_pos ⟨ha, hall⟩]
        rfl
      · rw [if_pos ha, if_neg hall, if_neg (mt And.right hall)]
        rfl
    · rw [if_neg ha, if_neg (mt And.left ha)]
      rfl

theorem Value.copy_eq (depth : Nat) (v : Value) :
    v.copy depth = if v.levels ≤ depth then some v else none := by
  induction depth generalizing v with
  | zero =>
    rw [copy, if_neg]
    exact Nat.not_le.2 v.levels_pos
  | succ depth ih =>
    cases v with
    | list items =>
      rw [copy, mapM_eq_ite items fun v _ => ih v]
      simp only [levels, Nat.add_le_add_iff_right, listLevels_le_iff]
      split <;> rfl
    | object fields =>
      have hfield (f : Key × Value) : (f.2.copy depth).map (f.1, ·) =
          if f.2.levels ≤ depth then some f else none := by
        rw [ih]
        split <;> rfl
      rw [copy, mapM_eq_ite fields fun f _ => hfield f]
      simp only [levels, Nat.add_le_add_iff_right, fieldLevels_le_iff]
      split <;> rfl
    | null | flag _ | number _ | text _ | other _ _ => simp [copy, levels]

theorem Fields.copy_eq (depth : Nat) (fields : Fields) :
    fields.copy depth = if (Value.object fields).levels ≤ depth then some fields else none := by
  have hvalue := Value.copy_eq depth (.object fields)
  cases depth with
  | zero => simp [copy, Value.levels]
  | succ depth =>
    rw [Value.copy] at hvalue
    rw [copy]
    split at hvalue
    · next hfits => simpa [hfits] using hvalue
    · next hdeep => simpa [hdeep] using hvalue

def Node.values (n : Node) : List Value :=
  [n.kind, n.subLabel, .object n.style]

def Edge.values (e : Edge) : List Value :=
  [e.kind, e.label, .object e.style]

def Snapshot.values (s : Snapshot) : List Value :=
  s.nodes.flatMap Node.values ++ s.edges.flatMap Edge.values

def Snapshot.levels (s : Snapshot) : Nat :=
  Value.listLevels s.values

theorem Node.copy_eq (depth : Nat) (n : Node) :
    n.copy depth = if ∀ v ∈ n.values, v.levels ≤ depth then some n else none := by
  simp only [copy, Value.copy_eq, Fields.copy_eq, values, List.forall_mem_cons]
  split_ifs <;> simp_all

theorem Edge.copy_eq (depth : Nat) (e : Edge) :
    e.copy depth = if ∀ v ∈ e.values, v.levels ≤ depth then some e else none := by
  simp only [copy, Value.copy_eq, Fields.copy_eq, values, List.forall_mem_cons]
  split_ifs <;> simp_all

theorem Snapshot.levels_le_iff {depth : Nat} {s : Snapshot} :
    s.levels ≤ depth ↔ (∀ n ∈ s.nodes, ∀ v ∈ n.values, v.levels ≤ depth) ∧
      ∀ e ∈ s.edges, ∀ v ∈ e.values, v.levels ≤ depth := by
  simp only [levels, Value.listLevels_le_iff, values, List.forall_mem_append, List.mem_flatMap]
  constructor
  · exact fun ⟨hn, he⟩ =>
      ⟨fun n hmem v hv => hn v ⟨n, hmem, hv⟩, fun e hmem v hv => he v ⟨e, hmem, hv⟩⟩
  · exact fun ⟨hn, he⟩ =>
      ⟨fun v ⟨n, hmem, hv⟩ => hn n hmem v hv, fun v ⟨e, hmem, hv⟩ => he e hmem v hv⟩

/-- A canvas is copied as it is, unless it has more levels than copying can go into. -/
theorem Snapshot.copy_eq (depth : Nat) (s : Snapshot) :
    s.copy depth = if s.levels ≤ depth then some s else none := by
  rw [copy, mapM_eq_ite s.nodes fun n _ => n.copy_eq depth,
    mapM_eq_ite s.edges fun e _ => e.copy_eq depth]
  simp only [levels_le_iff]
  by_cases hnodes : ∀ n ∈ s.nodes, ∀ v ∈ n.values, v.levels ≤ depth
  · by_cases hedges : ∀ e ∈ s.edges, ∀ v ∈ e.values, v.levels ≤ depth
    · rw [if_pos hnodes, if_pos hedges, if_pos ⟨hnodes, hedges⟩]
      rfl
    · rw [if_pos hnodes, if_neg hedges, if_neg (mt And.right hedges)]
      rfl
  · rw [if_neg hnodes, if_neg (mt And.left hnodes)]
    rfl

theorem Store.copy_eq (depth : Nat) (s : Store) :
    s.copy depth = if s.snapshot.levels ≤ depth then some s.snapshot else none :=
  s.snapshot.copy_eq depth

end FlowCanvas
