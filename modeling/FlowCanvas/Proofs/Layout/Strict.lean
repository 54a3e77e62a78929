import FlowCanvas.Proofs.Fallible
import FlowCanvas.Proofs.Layout.Placement

namespace FlowCanvas.Strict
open Layout

/-- What can stop a step for good. -/
inductive Breakdown where
  | missingKey (key : String)
  /-- The greatest or least of nothing. -/
  | emptyExtremum
  | zeroDivisor
  | invalidTimeout (limit : Number)
  /-- A time limit past the range of doubles, which cannot be shown. -/
  | unshownTimeout (limit : Number)
  /-- A value or a canvas with more levels than a copy can go into. -/
  | tooDeep

variable {κ : Type}

def lookup {α : Type} (key : String) (table : Table α) : Except Breakdown α :=
  match table.get? key with
  | some value => .ok value
  | none => .error (.missingKey key)

def withPositions (positions : Positions κ) (nodes : List (Node κ)) :
    Except Breakdown (List (Node κ)) :=
  nodes.mapM fun n => match n.position with
    | some _ => .ok n
    | none => do return { n with position := some (← lookup n.id positions) }

def restrict (positions : Positions κ) (nodes : List (Node κ)) : Except Breakdown (Positions κ) :=
  nodes.foldlM (fun table n => do return Table.put n.id (← lookup n.id positions) table) []

def timedOut (limit : Number) : Except Breakdown Error :=
  if limit.toFloat?.isNone then .error (.unshownTimeout limit) else .ok (.timedOut limit)

def engineError (options : Options) (nodes : List (Node κ))
    (outcome : Except EngineFailure (Positions κ)) : Except Breakdown (Option Error) :=
  if hasRunOut options then (timedOut options.timeout).map some
  else match outcome with
    | .error .timedOut => (timedOut options.timeout).map some
    | outcome => .ok (engineError? options nodes outcome)

section Coordinates
variable [Coordinate κ]

def greatest : List κ → Except Breakdown κ
  | [] => .error .emptyExtremum
  | first :: rest => .ok (Layout.greatest first rest)

def least : List κ → Except Breakdown κ
  | [] => .error .emptyExtremum
  | first :: rest => .ok (Layout.least first rest)

def placeAfter (points : List (Point κ)) (positions : Positions κ) (direction : Direction) :
    Except Breakdown (Positions κ) :=
  if points.isEmpty || positions.isEmpty then .ok positions
  else if direction.isHorizontal then do
    let start := (← greatest (points.map (·.x))) + Coordinate.ofNat columnWidth
    let left ← least (positions.map (·.2.x))
    return positions.map fun (id, p) => (id, ⟨p.x - left + start, p.y⟩)
  else do
    let start := (← greatest (points.map (·.y))) + Coordinate.ofNat rowHeight
    let top ← least (positions.map (·.2.y))
    return positions.map fun (id, p) => (id, ⟨p.x, p.y - top + start⟩)

def cell (columns index : Nat) (direction : Direction) : Except Breakdown (Nat × Nat) :=
  if columns = 0 then .error .zeroDivisor else .ok (Layout.cell columns index direction)

def gridFrom (columns index : Nat) (direction : Direction) (positions : Positions κ) :
    List String → Except Breakdown (Positions κ)
  | [] => .ok positions
  | id :: r => do
    let c ← cell columns index direction
    gridFrom columns (index + 1) direction (positions.put id (cellPoint c)) r

def grid (ids : List String) (direction : Direction) : Except Breakdown (Positions κ) :=
  gridFrom (columns ids.length) 0 direction [] ids

def onGrid (options : Options) (nodes : List (Node κ)) (error : Error) :
    Except Breakdown (Placement κ) := do
  let positions ← grid ((pending nodes).map (·.id)) options.direction
  let moved ← placeAfter (kept nodes) positions options.direction
  return ⟨← withPositions moved nodes, true, some error⟩

def withoutEngine (options : Options) (nodes : List (Node κ)) :
    Except Breakdown (Option (Placement κ)) :=
  if (pending nodes).isEmpty then .ok (some ⟨nodes, false, none⟩)
  else if options.timeout.toFloat?.isNone then
    (onGrid options nodes (.crashed Misfit.tooLarge.message)).map some
  else .ok none

def byEngine (options : Options) (nodes : List (Node κ))
    (outcome : Except EngineFailure (Positions κ)) : Except Breakdown (Placement κ) := do
  match ← engineError options nodes outcome, outcome with
  | some error, _ => onGrid options nodes error
  | none, .error _ => return ⟨nodes, false, none⟩
  | none, .ok positions =>
    let placed ← restrict positions (pending nodes)
    let moved ← placeAfter (kept nodes) placed options.direction
    return ⟨← withPositions moved nodes, false, none⟩

end Coordinates

section Lookups
variable {positions : Positions κ} {nodes : List (Node κ)}

/-- With positions for all nodes that have none, no look-up fails. -/
theorem withPositions_eq (h : Covers positions nodes) :
    withPositions positions nodes = .ok (Layout.withPositions positions nodes) := by
  apply mapM_eq_ok
  intro n hn
  obtain ⟨id, kind, label, subLabel, position, style⟩ := n
  cases position with
  | some point => rfl
  | none =>
    obtain ⟨point, hpoint⟩ := Option.isSome_iff_exists.1 (h _ (List.mem_filter.2 ⟨hn, rfl⟩))
    simp [lookup, hpoint, bind, Except.bind, pure, Except.pure]

theorem restrict_eq (h : ∀ n ∈ nodes, (positions.get? n.id).isSome) :
    restrict positions nodes = .ok (Layout.restrict positions nodes) := by
  apply foldlM_eq_ok
  intro table n hn
  obtain ⟨point, hpoint⟩ := Option.isSome_iff_exists.1 (h n hn)
  simp [lookup, hpoint, bind, Except.bind, pure, Except.pure]

theorem engineError_eq {options : Options} (h : options.timeout.toFloat?.isSome)
    (outcome : Except EngineFailure (Positions κ)) :
    engineError options nodes outcome = .ok (engineError? options nodes outcome) := by
  have htimedOut : timedOut options.timeout = .ok (.timedOut options.timeout) := by
    rw [timedOut, if_neg (by simpa [Option.isSome_iff_ne_none] using h)]
  unfold engineError
  split
  · next hrunOut => simp [engineError?, hrunOut, htimedOut, Except.map]
  · next hrunOut =>
    split
    · simp [engineError?, hrunOut, htimedOut, Except.map]
    · rfl

end Lookups

section Coordinates
variable [Coordinate κ]

theorem placeAfter_eq (points : List (Point κ)) (positions : Positions κ) (direction : Direction) :
    placeAfter points positions direction = .ok (Layout.placeAfter points positions direction) := by
  cases points with
  | nil => rfl
  | cons point points =>
    cases positions with
    | nil => rfl
    | cons first rest =>
      simp only [placeAfter, Layout.placeAfter, List.isEmpty_cons, Bool.or_false,
        Bool.false_eq_true, if_false]
      split <;> rfl

theorem columns_ne_zero {n : Nat} (h : n ≠ 0) : columns n ≠ 0 := by
  unfold columns
  cases hfound : (List.range n).find? fun c => n ≤ c * c with
  | none => simpa using h
  | some c =>
    have hc : n ≤ c * c := by simpa using List.find?_some hfound
    rw [Option.getD_some]
    rintro rfl
    omega

theorem grid_eq (ids : List String) (direction : Direction) :
    (grid ids direction : Except Breakdown (Positions κ)) = .ok (Layout.grid ids direction) := by
  have hfrom (width : Nat) (hwidth : width ≠ 0) (index : Nat) (positions : Positions κ)
      (ids : List String) : gridFrom width index direction positions ids =
        .ok (Layout.gridFrom width index direction positions ids) := by
    induction ids generalizing index positions with
    | nil => rfl
    | cons id r ih =>
      rw [gridFrom, cell, if_neg hwidth]
      exact ih _ _
  cases ids with
  | nil => rfl
  | cons id r => exact hfrom _ (columns_ne_zero (by simp)) _ _ _

section
variable (nodes : List (Node κ)) (points : List (Point κ)) (direction : Direction)

theorem covers_grid : Covers (Layout.placeAfter points
    (Layout.grid ((pending nodes).map (·.id)) direction) direction) nodes := by
  intro n hn
  rw [isSome_get?_placeAfter]
  exact isSome_get?_grid (List.mem_map_of_mem hn) _

variable {nodes}

theorem covers_restrict {positions : Positions κ} (h : Covers positions nodes) :
    Covers (Layout.placeAfter points (Layout.restrict positions (pending nodes)) direction)
      nodes := by
  intro n hn
  rw [isSome_get?_placeAfter, get?_restrict, if_pos (List.mem_map_of_mem hn)]
  exact h n hn

end

theorem onGrid_eq (options : Options) (nodes : List (Node κ)) (error : Error) :
    onGrid options nodes error = .ok (Layout.onGrid options nodes error) := by
  have hcovers := covers_grid nodes (kept nodes) options.direction
  simp [onGrid, grid_eq, placeAfter_eq, withPositions_eq hcovers, Layout.onGrid, bind, Except.bind,
    pure, Except.pure]

theorem withoutEngine_eq (options : Options) (nodes : List (Node κ)) :
    withoutEngine options nodes = .ok (withoutEngine? options nodes) := by
  unfold withoutEngine withoutEngine?
  split
  · rfl
  · split
    · rw [onGrid_eq]
      rfl
    · rfl

/-- A time limit that can be shown is all that an engine's answer needs to be worked in. -/
theorem byEngine_eq {options : Options} (h : options.timeout.toFloat?.isSome)
    (nodes : List (Node κ)) (outcome : Except EngineFailure (Positions κ)) :
    byEngine options nodes outcome = .ok (Layout.byEngine options nodes outcome) := by
  rw [byEngine, engineError_eq h]
  cases herror : engineError? options nodes outcome with
  | some error =>
    simp only [Layout.byEngine, herror]
    exact onGrid_eq options nodes error
  | none =>
    obtain ⟨positions, rfl, hcovers⟩ := eq_ok_of_engineError?_eq_none herror
    have hmoved := covers_restrict (kept nodes) options.direction hcovers
    simp [Layout.byEngine, herror, restrict_eq hcovers, placeAfter_eq, withPositions_eq hmoved,
      bind, Except.bind, pure, Except.pure]

end Coordinates
end FlowCanvas.Strict
