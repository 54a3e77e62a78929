import FlowCanvas.Layout.Placement

namespace FlowCanvas

variable {κ : Type}

def Node.unplaced (n : Node κ) : Node κ :=
  { n with position := none }

def Node.placedBy (position? : String → Option (Point κ)) (n : Node κ) : Node κ :=
  { n with position := n.position.or (position? n.id) }

@[simp] theorem Node.placedBy_none : Node.placedBy (fun _ => none) = fun n : Node κ => n := by
  funext n
  simp [placedBy]

namespace Layout

theorem withPositions_eq (positions : Positions κ) (nodes : List (Node κ)) :
    withPositions positions nodes = nodes.map (Node.placedBy (Table.get? · positions)) := rfl

theorem get?_restrict (positions : Positions κ) (nodes : List (Node κ)) (id : String) :
    (restrict positions nodes).get? id =
      if id ∈ nodes.map (·.id) then positions.get? id else none := by
  have hstart : (if id ∈ nodes.map (·.id) then positions.get? id else none) =
      if id ∈ nodes.map (·.id) then (positions.get? id).or (Table.get? id [])
      else Table.get? id [] := by
    simp
  rw [hstart, restrict]
  clear hstart
  generalize ([] : Positions κ) = table
  induction nodes generalizing table with
  | nil => simp
  | cons n r ih =>
    rw [List.foldl_cons, ih]
    by_cases hid : id = n.id
    · cases hp : positions.get? n.id <;> simp [hid, hp, Table.get?_put]
    · cases hp : positions.get? n.id <;> simp [hid, Table.get?_put]

/-- There are positions for all nodes that have none. -/
def Covers (positions : Positions κ) (nodes : List (Node κ)) : Prop :=
  ∀ n ∈ pending nodes, (positions.get? n.id).isSome

theorem isSome_position_withPositions {positions : Positions κ} {nodes : List (Node κ)}
    (h : Covers positions nodes) : ∀ n ∈ withPositions positions nodes, n.position.isSome := by
  intro n hn
  rw [withPositions_eq] at hn
  obtain ⟨m, hm, rfl⟩ := List.mem_map.1 hn
  cases hp : m.position with
  | some p => simp [Node.placedBy, hp]
  | none =>
    have hpending : m ∈ pending nodes := List.mem_filter.2 ⟨hm, by simp [hp]⟩
    simpa [Node.placedBy, hp] using h m hpending

theorem eq_ok_of_engineError?_eq_none {options : Options} {nodes : List (Node κ)}
    {outcome : Except EngineFailure (Positions κ)}
    (h : engineError? options nodes outcome = none) :
    ∃ positions, outcome = .ok positions ∧ Covers positions nodes := by
  unfold engineError? at h
  split at h
  · cases h
  · split at h
    · cases h
    · cases h
    · cases h
    · next positions =>
      refine ⟨positions, rfl, ?_⟩
      simpa [Covers, Table.has_eq, Option.isSome_iff_ne_none] using h

variable [Coordinate κ]

theorem withoutEngine?_of_pending_eq_nil {options : Options} {nodes : List (Node κ)}
    (h : pending nodes = []) : withoutEngine? options nodes = some ⟨nodes, false, none⟩ := by
  simp [withoutEngine?, h]

section Covering
variable (positions : Positions κ) (nodes : List (Node κ))

theorem isSome_get?_gridFrom (width index : Nat) (direction : Direction) (ids : List String)
    (id : String) :
    ((gridFrom width index direction positions ids).get? id).isSome ↔
      id ∈ ids ∨ (positions.get? id).isSome := by
  induction ids generalizing positions index with
  | nil => simp [gridFrom]
  | cons first r ih =>
    rw [gridFrom, ih, Table.get?_put, List.mem_cons]
    by_cases h : id = first
    · simp [h]
    · simp [h]

theorem isSome_get?_grid {ids : List String} {id : String} (h : id ∈ ids)
    (direction : Direction) : ((grid ids direction : Positions κ).get? id).isSome :=
  (isSome_get?_gridFrom _ _ _ _ _ _).2 (.inl h)

/-- Moving positions moves none away. -/
theorem isSome_get?_placeAfter (points : List (Point κ)) (direction : Direction) (id : String) :
    ((placeAfter points positions direction).get? id).isSome = (positions.get? id).isSome := by
  unfold placeAfter
  split
  · rfl
  · rfl
  · simp only
    split
    · rw [Table.get?_map fun p : Point κ => Point.mk (p.x - _ + _) p.y, Option.isSome_map]
    · rw [Table.get?_map fun p : Point κ => Point.mk p.x (p.y - _ + _), Option.isSome_map]

theorem exists_onGrid_eq (options : Options) (error : Error) :
    ∃ positions, Covers positions nodes ∧
      (onGrid options nodes error).nodes = withPositions positions nodes := by
  refine ⟨_, ?_, rfl⟩
  intro n hn
  rw [isSome_get?_placeAfter]
  exact isSome_get?_grid (List.mem_map_of_mem hn) _

theorem exists_byEngine_eq (options : Options) (outcome : Except EngineFailure (Positions κ)) :
    ∃ positions, Covers positions nodes ∧
      (byEngine options nodes outcome).nodes = withPositions positions nodes := by
  cases herror : engineError? options nodes outcome with
  | some error =>
    simp only [byEngine, herror]
    exact exists_onGrid_eq nodes options error
  | none =>
    obtain ⟨positions, rfl, hcovers⟩ := eq_ok_of_engineError?_eq_none herror
    simp only [byEngine, herror]
    refine ⟨_, ?_, rfl⟩
    intro n hn
    rw [isSome_get?_placeAfter, get?_restrict, if_pos (List.mem_map_of_mem hn)]
    exact hcovers n hn

/-- Whatever the engine answers, placement fills in positions that cover the nodes. -/
theorem exists_place_eq_withPositions (options : Options)
    (outcome : Except EngineFailure (Positions κ)) :
    ∃ positions, Covers positions nodes ∧
      (place options nodes outcome).nodes = withPositions positions nodes := by
  unfold place withoutEngine?
  split
  · next hnone =>
    -- With nothing pending, no position at all is as good as any.
    have hpending : pending nodes = [] := List.isEmpty_iff.1 hnone
    refine ⟨[], ?_, ?_⟩
    · simp [Covers, hpending]
    · simp [withPositions_eq]
  · split
    · exact exists_onGrid_eq nodes options _
    · exact exists_byEngine_eq nodes options outcome

theorem exists_place_eq (options : Options) (outcome : Except EngineFailure (Positions κ)) :
    ∃ position?, (place options nodes outcome).nodes = nodes.map (Node.placedBy position?) := by
  obtain ⟨positions, -, hplace⟩ := exists_place_eq_withPositions nodes options outcome
  exact ⟨_, hplace.trans (withPositions_eq positions nodes)⟩

theorem isSome_position_of_mem_place (options : Options)
    (outcome : Except EngineFailure (Positions κ)) :
    ∀ n ∈ (place options nodes outcome).nodes, n.position.isSome := by
  obtain ⟨positions, hcovers, hplace⟩ := exists_place_eq_withPositions nodes options outcome
  rw [hplace]
  exact isSome_position_withPositions hcovers

theorem isFallback_place (options : Options) (outcome : Except EngineFailure (Positions κ)) :
    (place options nodes outcome).isFallback = (place options nodes outcome).error.isSome := by
  unfold place withoutEngine?
  split
  · rfl
  · split
    · rfl
    · show (byEngine options nodes outcome).isFallback =
        (byEngine options nodes outcome).error.isSome
      unfold byEngine
      split <;> rfl

end Covering
end Layout
end FlowCanvas
