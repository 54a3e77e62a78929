import Mathlib.Algebra.Order.Ring.Rat
import Mathlib.Data.List.Forall2
import Mathlib.Order.Bounds.Basic
import Mathlib.Tactic.Linarith
import FlowCanvas.Proofs.Layout.Placement

namespace FlowCanvas

def Direction.along {κ : Type} (d : Direction) (p : Point κ) : κ :=
  if d.isHorizontal then p.x else p.y

/-- How far new nodes are kept away from the others: a column or a row. -/
def Direction.gap (d : Direction) : ℚ :=
  if d.isHorizontal then Layout.columnWidth else Layout.rowHeight

def Point.moved (d : Direction) (distance : ℚ) (p : Point ℚ) : Point ℚ :=
  if d.isHorizontal then ⟨p.x + distance, p.y⟩ else ⟨p.x, p.y + distance⟩

@[simp] theorem Direction.along_moved (d : Direction) (distance : ℚ) (p : Point ℚ) :
    d.along (p.moved d distance) = d.along p + distance := by
  unfold along Point.moved
  split <;> rfl

@[simp] theorem Point.moved_zero (d : Direction) (p : Point ℚ) : p.moved d 0 = p := by
  unfold moved
  split <;> simp

namespace Layout

section Extremes

theorem isGreatest_foldl {α : Type} [LinearOrder α] (first : α) (rest : List α) :
    IsGreatest {c | c ∈ first :: rest}
      (rest.foldl (fun best c => if best < c then c else best) first) := by
  -- The best so far takes the place of the first element.
  induction rest generalizing first with
  | nil => simp
  | cons c r ih =>
    obtain ⟨hmem, hbound⟩ := ih (if first < c then c else first)
    rw [List.foldl_cons]
    constructor
    · rcases List.mem_cons.1 hmem with heq | hmem
      · rw [heq]
        split <;> simp
      · exact List.mem_cons_of_mem _ (List.mem_cons_of_mem _ hmem)
    · have hbest := hbound List.mem_cons_self
      have hboth : first ≤ (if first < c then c else first) ∧
          c ≤ (if first < c then c else first) := by
        split
        · next hlt => exact ⟨hlt.le, le_rfl⟩
        · next hnot => exact ⟨le_rfl, not_lt.1 hnot⟩
      intro d hd
      rcases List.mem_cons.1 hd with rfl | hd
      · exact hboth.1.trans hbest
      · rcases List.mem_cons.1 hd with rfl | hd
        · exact hboth.2.trans hbest
        · exact hbound (List.mem_cons_of_mem _ hd)

theorem isGreatest_greatest (first : ℚ) (rest : List ℚ) :
    IsGreatest {c | c ∈ first :: rest} (greatest first rest) := by
  simpa only [greatest, Coordinate.before, decide_eq_true_eq] using isGreatest_foldl first rest

theorem isLeast_least (first : ℚ) (rest : List ℚ) :
    IsLeast {c | c ∈ first :: rest} (least first rest) := by
  simp only [least, Coordinate.before, decide_eq_true_eq]
  exact isGreatest_foldl (α := ℚᵒᵈ) first rest

end Extremes

section Moving
variable (points : List (Point ℚ)) (positions : Positions ℚ) (d : Direction)

theorem placeAfter_cons_cons (point : Point ℚ) (first : String × Point ℚ)
    (rest : Positions ℚ) :
    placeAfter (point :: points) (first :: rest) d =
      (first :: rest).map fun e => (e.1, e.2.moved d
        (greatest (d.along point) (points.map d.along) + d.gap -
          least (d.along first.2) (rest.map fun e => d.along e.2))) := by
  have hmove (a b c : ℚ) : a - b + c = a + (c - b) := by linarith
  unfold placeAfter Direction.along Direction.gap Point.moved
  cases d.isHorizontal <;>
    simp only [hmove, Coordinate.ofNat, if_true, if_false, Bool.false_eq_true]

theorem isLeast_map_add {cs : List ℚ} {m : ℚ} (h : IsLeast {c | c ∈ cs} m) (distance : ℚ) :
    IsLeast {c | c ∈ cs.map (· + distance)} (m + distance) := by
  constructor
  · exact List.mem_map.2 ⟨m, h.1, rfl⟩
  · intro c hc
    obtain ⟨b, hb, rfl⟩ := List.mem_map.1 hc
    have hle := h.2 hb
    linarith

/-- Positions are moved by one distance, which is none if no point is kept. Otherwise the first of
them comes to stand one gap after the last kept point. -/
theorem exists_placeAfter_eq :
    ∃ distance, placeAfter points positions d =
        positions.map (fun e => (e.1, e.2.moved d distance)) ∧
      (points = [] → distance = 0) ∧
      (points ≠ [] → positions ≠ [] → ∃ last,
        IsGreatest {c | c ∈ points.map d.along} last ∧
        IsLeast {c | c ∈ (placeAfter points positions d).map fun e => d.along e.2}
          (last + d.gap)) := by
  cases points with
  | nil => exact ⟨0, by simp [placeAfter], fun _ => rfl, fun hnone => absurd rfl hnone⟩
  | cons point points =>
    cases positions with
    | nil =>
      refine ⟨0, rfl, fun hnone => ?_, fun _ hnone => absurd rfl hnone⟩
      cases hnone
    | cons first rest =>
      refine ⟨_, placeAfter_cons_cons points d point first rest, fun hnone => ?_, fun _ _ => ?_⟩
      · cases hnone
      · refine ⟨_, isGreatest_greatest (d.along point) (points.map d.along), ?_⟩
        -- The distance takes the least new coordinate to one gap after the greatest kept one.
        have hleast := isLeast_map_add
          (isLeast_least (d.along first.2) (rest.map fun e => d.along e.2))
          (greatest (d.along point) (points.map d.along) + d.gap -
            least (d.along first.2) (rest.map fun e => d.along e.2))
        rw [add_sub_cancel] at hleast
        rw [placeAfter_cons_cons]
        simpa only [List.map_cons, List.map_map, Function.comp_def, Direction.along_moved]
          using hleast

end Moving

section Tables
variable {κ : Type} (positions : Positions κ) (nodes : List (Node κ))

theorem isUnique_restrict : (restrict positions nodes).IsUnique := by
  unfold restrict
  apply List.foldlRecOn
  · exact List.nodup_nil
  · intro table htable n _
    split
    · exact htable.put _ _
    · exact htable

theorem isUnique_gridFrom [Coordinate κ] (h : Table.IsUnique positions) (width index : Nat)
    (d : Direction) (ids : List String) : (gridFrom width index d positions ids).IsUnique := by
  induction ids generalizing index positions with
  | nil => exact h
  | cons id r ih => exact ih _ (h.put _ _) _

/-- A table for the new nodes: it has one position for each of them and none for anything else. -/
structure IsForNew (nodes : List (Node κ)) (table : Positions κ) : Prop where
  unique : table.IsUnique
  isSome_iff : ∀ id, (table.get? id).isSome ↔ id ∈ (pending nodes).map (·.id)

variable {positions nodes}

theorem isForNew_grid [Coordinate κ] (d : Direction) :
    IsForNew nodes (grid ((pending nodes).map (·.id)) d) := by
  refine ⟨isUnique_gridFrom [] List.nodup_nil _ _ _ _, fun id => ?_⟩
  rw [grid, isSome_get?_gridFrom]
  simp

theorem isForNew_restrict (h : Covers positions nodes) :
    IsForNew nodes (restrict positions (pending nodes)) := by
  refine ⟨isUnique_restrict _ _, fun id => ?_⟩
  rw [get?_restrict]
  split
  · next hmem =>
    obtain ⟨n, hn, rfl⟩ := List.mem_map.1 hmem
    exact iff_of_true (h n hn) hmem
  · next hnot => exact iff_of_false (by simp) hnot

end Tables

section New
variable {κ : Type}

def newPoints (nodes placed : List (Node κ)) : List (Point κ) :=
  (nodes.zip placed).filterMap fun (n, n') => if n.position.isNone then n'.position else none

theorem pending_ne_nil_iff {nodes : List (Node κ)} :
    pending nodes ≠ [] ↔ ∃ n ∈ nodes, n.position = none := by
  simp [pending, List.filter_eq_nil_iff]

theorem newPoints_withPositions (positions : Positions κ) (nodes : List (Node κ)) :
    newPoints nodes (withPositions positions nodes) =
      (pending nodes).filterMap fun n => positions.get? n.id := by
  induction nodes with
  | nil => rfl
  | cons n r ih =>
    cases hposition : n.position with
    | none =>
      have hpending : pending (n :: r) = n :: pending r := by simp [pending, hposition]
      rw [hpending, List.filterMap_cons, ← ih]
      simp only [newPoints, withPositions, List.map_cons, List.zip_cons_cons, List.filterMap_cons,
        hposition, Option.isNone_none, if_true, Option.none_or]
    | some p =>
      have hpending : pending (n :: r) = pending r := by simp [pending, hposition]
      rw [hpending, ← ih]
      simp only [newPoints, withPositions, List.map_cons, List.zip_cons_cons, List.filterMap_cons,
        hposition, Option.isNone_some, Bool.false_eq_true, if_false]

theorem mem_newPoints_iff {positions : Positions κ} {nodes : List (Node κ)}
    (h : IsForNew nodes positions) {p : Point κ} :
    p ∈ newPoints nodes (withPositions positions nodes) ↔ p ∈ positions.map (·.2) := by
  rw [newPoints_withPositions, List.mem_filterMap, List.mem_map]
  constructor
  · rintro ⟨n, -, hn⟩
    exact ⟨(n.id, p), h.unique.mem_iff.2 hn, rfl⟩
  · rintro ⟨⟨id, p⟩, hmem, rfl⟩
    have hfound := h.unique.mem_iff.1 hmem
    have hid : id ∈ (pending nodes).map (·.id) := by
      rw [← h.isSome_iff, hfound]
      rfl
    obtain ⟨n, hn, rfl⟩ := List.mem_map.1 hid
    exact ⟨n, hn, hfound⟩

variable (options : Options) (nodes : List (Node κ))
  (outcome : Except EngineFailure (Positions κ))

/-- What comes of asking an engine: a time limit that has always run out leaves a timeout. -/
def Options.heard (options : Options) (outcome : Except EngineFailure (Positions κ)) :
    Except EngineFailure (Positions κ) :=
  if hasRunOut options then .error .timedOut else outcome

def FallsShort (nodes : List (Node κ)) : Except EngineFailure (Positions κ) → Prop
  | .error _ => True
  | .ok positions => ∃ n ∈ nodes, n.position = none ∧ positions.get? n.id = none

theorem isSome_engineError?_iff : (engineError? options nodes outcome).isSome ↔
    FallsShort nodes (options.heard outcome) := by
  unfold engineError? Options.heard
  split
  · simp [FallsShort]
  · rcases outcome with (error | _ | message) | positions
    · simp [FallsShort]
    · simp [FallsShort]
    · simp [FallsShort]
    · have hcovered : ((pending nodes).map (·.id)).filter (!positions.has ·) = [] ↔
          ¬ FallsShort nodes (.ok positions) := by
        rw [List.filter_eq_nil_iff, List.forall_mem_map]
        simp [FallsShort, pending, Table.has_eq]
      simp only [List.isEmpty_iff]
      split
      · next hnone => simpa using hcovered.1 hnone
      · next hsome => simpa using not_not.1 (mt hcovered.2 hsome)

variable [Coordinate κ]

/-- Where new nodes are before they are moved: on the grid if it is used, and otherwise where the
engine has them. -/
def source : Positions κ :=
  match (place options nodes outcome).error, outcome with
  | none, .ok positions => restrict positions (pending nodes)
  | _, _ => grid ((pending nodes).map (·.id)) options.direction

theorem error_byEngine : (byEngine options nodes outcome).error =
    engineError? options nodes outcome := by
  unfold byEngine
  cases herror : engineError? options nodes outcome with
  | some error => rfl
  | none => cases outcome <;> rfl

theorem place_of_pending_eq_nil (h : pending nodes = []) :
    place options nodes outcome = ⟨nodes, false, none⟩ := by
  rw [place, withoutEngine?_of_pending_eq_nil h, Option.getD_some]

theorem place_eq_byEngine (h : pending nodes ≠ []) (htime : options.timeout.toFloat?.isSome) :
    place options nodes outcome = byEngine options nodes outcome := by
  have htime' : options.timeout.toFloat?.isNone = false := by
    simpa [Option.isSome_iff_ne_none] using htime
  simp [place, withoutEngine?, h, htime']

theorem place_eq_onGrid (h : pending nodes ≠ []) (htime : options.timeout.toFloat?.isNone) :
    place options nodes outcome = onGrid options nodes (.crashed Misfit.tooLarge.message) := by
  simp [place, withoutEngine?, h, htime]

theorem source_eq_grid {error : Error} (h : (place options nodes outcome).error = some error) :
    source options nodes outcome = grid ((pending nodes).map (·.id)) options.direction := by
  simp only [source, h]

/-- The new nodes come from a table of their own, moved past the kept ones. -/
theorem isForNew_source : IsForNew nodes (source options nodes outcome) ∧
    (place options nodes outcome).nodes =
      withPositions (placeAfter (kept nodes) (source options nodes outcome) options.direction)
        nodes := by
  by_cases hpending : pending nodes = []
  · have hplace := place_of_pending_eq_nil options nodes outcome hpending
    have hcovers (positions : Positions κ) : Covers positions nodes := by simp [Covers, hpending]
    have hempty : source options nodes outcome = [] := by
      cases outcome <;> simp only [source, hplace, hpending] <;> rfl
    refine ⟨?_, ?_⟩
    · have hrestrict := isForNew_restrict (hcovers [])
      rw [hpending] at hrestrict
      rw [hempty]
      exact hrestrict
    · have hnone : placeAfter (kept nodes) ([] : Positions κ) options.direction = [] := by
        cases kept nodes <;> rfl
      rw [hplace, hempty, hnone, withPositions_eq]
      simp
  · -- Either the grid is used, or the answer covers the nodes.
    have hgrid (error : Error) (h : place options nodes outcome = onGrid options nodes error) :
        IsForNew nodes (source options nodes outcome) ∧
          (place options nodes outcome).nodes = withPositions (placeAfter (kept nodes)
            (source options nodes outcome) options.direction) nodes := by
      rw [source_eq_grid options nodes outcome (congrArg Placement.error h), h]
      exact ⟨isForNew_grid _, rfl⟩
    by_cases htime : options.timeout.toFloat?.isNone
    · exact hgrid _ (place_eq_onGrid options nodes outcome hpending htime)
    · have hplace := place_eq_byEngine options nodes outcome hpending
        (by simpa [Option.isSome_iff_ne_none] using htime)
      cases herror : engineError? options nodes outcome with
      | some error => exact hgrid error (by simp only [hplace, byEngine, herror])
      | none =>
        obtain ⟨positions, rfl, hcovers⟩ := eq_ok_of_engineError?_eq_none herror
        have hsource : source options nodes (.ok positions) =
            restrict positions (pending nodes) := by
          simp only [source, hplace, error_byEngine, herror]
        rw [hsource]
        refine ⟨isForNew_restrict hcovers, ?_⟩
        simp only [hplace, byEngine, herror]

theorem withoutEngine?_eq_none_iff {options : Options} (htime : options.timeout.toFloat?.isSome)
    {nodes : List (Node κ)} :
    withoutEngine? options nodes = none ↔ ∃ n ∈ nodes, n.position = none := by
  rw [← pending_ne_nil_iff, withoutEngine?]
  by_cases hpending : pending nodes = []
  · simp [hpending]
  · simp [hpending, Option.isSome_iff_ne_none.1 htime]

/-- The grid is used if nodes are to be placed and the engine does not place them all. -/
theorem isSome_error_place_iff (htime : options.timeout.toFloat?.isSome) :
    (place options nodes outcome).error.isSome ↔
      (∃ n ∈ nodes, n.position = none) ∧ FallsShort nodes (options.heard outcome) := by
  rw [← pending_ne_nil_iff]
  by_cases hpending : pending nodes = []
  · simp [place_of_pending_eq_nil options nodes outcome hpending, hpending]
  · rw [place_eq_byEngine options nodes outcome hpending htime, error_byEngine,
      isSome_engineError?_iff]
    simp [hpending]

end New

section Settling

/-- How a node comes out of a placement: it stands where it stood, or else where a table has it,
moved along the flow. Nothing else changes. -/
structure Settles (table : Positions ℚ) (d : Direction) (distance : ℚ) (n n' : Node ℚ) : Prop where
  same : n'.unplaced = n.unplaced
  kept : ∀ p, n.position = some p → n'.position = some p
  moved : n.position = none →
    ∃ p, table.get? n.id = some p ∧ n'.position = some (p.moved d distance)

variable {nodes : List (Node ℚ)} {table : Positions ℚ} {d : Direction} {distance : ℚ}

theorem Settles.of_restrict {n n' : Node ℚ}
    (h : Settles (restrict table (pending nodes)) d distance n n') :
    Settles table d distance n n' := by
  refine ⟨h.same, h.kept, fun hnone => ?_⟩
  obtain ⟨p, hp, hmoved⟩ := h.moved hnone
  rw [get?_restrict] at hp
  split at hp
  · exact ⟨p, hp, hmoved⟩
  · cases hp

theorem get?_map_moved (id : String) :
    Table.get? id (table.map fun e => (e.1, e.2.moved d distance)) =
      (table.get? id).map (Point.moved d distance) :=
  Table.get?_map (Point.moved d distance) id table

theorem IsForNew.map_moved (h : IsForNew nodes table) :
    IsForNew nodes (table.map fun e => (e.1, e.2.moved d distance)) := by
  refine ⟨?_, fun id => ?_⟩
  · rw [Table.IsUnique, List.map_map]
    exact h.unique
  · rw [get?_map_moved, Option.isSome_map]
    exact h.isSome_iff id

theorem forall₂_settles (h : IsForNew nodes table) :
    List.Forall₂ (Settles table d distance) nodes
      (withPositions (table.map fun e => (e.1, e.2.moved d distance)) nodes) := by
  rw [withPositions_eq, List.forall₂_map_right_iff, List.forall₂_same]
  intro n hn
  refine ⟨rfl, fun p hp => ?_, fun hnone => ?_⟩
  · simp [Node.placedBy, hp]
  · have hid : n.id ∈ (pending nodes).map (·.id) := by
      apply List.mem_map_of_mem
      exact List.mem_filter.2 ⟨hn, by simp [hnone]⟩
    obtain ⟨p, hp⟩ := Option.isSome_iff_exists.1 ((h.isSome_iff _).2 hid)
    refine ⟨p, hp, ?_⟩
    simp [Node.placedBy, hnone, get?_map_moved, hp]

/-- A placement moves the positions of the new nodes by one distance. The first new node stands one
gap past the last kept one, if there are both. -/
theorem exists_distance (options : Options) (nodes : List (Node ℚ))
    (outcome : Except EngineFailure (Positions ℚ)) :
    let placed := (place options nodes outcome).nodes
    let d := options.direction
    ∃ distance,
      List.Forall₂ (Settles (source options nodes outcome) d distance) nodes placed ∧
      (kept nodes = [] → distance = 0) ∧
      (kept nodes ≠ [] → pending nodes ≠ [] → ∃ last,
        IsGreatest {c | c ∈ (kept nodes).map d.along} last ∧
        IsLeast {c | c ∈ (newPoints nodes placed).map d.along} (last + d.gap)) := by
  intro placed d
  obtain ⟨hnew, hplaced⟩ := isForNew_source options nodes outcome
  obtain ⟨distance, hmoved, hzero, hpast⟩ :=
    exists_placeAfter_eq (kept nodes) (source options nodes outcome) d
  have hnodes : placed = withPositions ((source options nodes outcome).map
      fun e => (e.1, e.2.moved d distance)) nodes := by
    rw [← hmoved]
    exact hplaced
  refine ⟨distance, ?_, hzero, fun hkept hpending => ?_⟩
  · rw [hnodes]
    exact forall₂_settles hnew
  · have hsource : source options nodes outcome ≠ [] := by
      intro hnone
      obtain ⟨n, hn⟩ := List.exists_mem_of_ne_nil _ hpending
      have hfound := (hnew.isSome_iff n.id).2 (List.mem_map_of_mem hn)
      rw [hnone] at hfound
      cases hfound
    obtain ⟨last, hgreatest, hleast⟩ := hpast hkept hsource
    refine ⟨last, hgreatest, ?_⟩
    -- The new nodes stand just at the moved points, each at the one under its id.
    have hpoints : {c | c ∈ (newPoints nodes placed).map d.along} =
        {c | c ∈ (placeAfter (kept nodes) (source options nodes outcome) d).map
          fun e => d.along e.2} := by
      ext c
      rw [hmoved, hnodes, ← Function.comp_def d.along, ← List.map_map]
      show c ∈ List.map d.along _ ↔ c ∈ List.map d.along _
      simp only [List.mem_map (f := d.along), mem_newPoints_iff hnew.map_moved]
    rw [hpoints]
    exact hleast

end Settling

/-- Placement keeps all nodes in their order and changes positions only, where there are none. The
engine is asked just if some are to be filled in, and the grid is used just if its answer falls
short. The new nodes stand as the engine has them, or else as they do on a grid of their own, all
moved by one distance along the flow: by none if no node is kept, and otherwise so that the first of
them stands one row or column past the last of the kept ones. -/
theorem new_nodes_stand_past_kept_ones (options : Options)
    (htime : options.timeout.toFloat?.isSome) (nodes : List (Node ℚ))
    (outcome : Except EngineFailure (Positions ℚ)) :
    let placed := place options nodes outcome
    let d := options.direction
    (withoutEngine? options nodes = none ↔ ∃ n ∈ nodes, n.position = none) ∧
    (placed.isFallback = true ↔ placed.error.isSome) ∧
    (placed.error.isSome ↔
      (∃ n ∈ nodes, n.position = none) ∧ FallsShort nodes (options.heard outcome)) ∧
    ∃ table distance,
      (placed.error.isSome → table = grid ((pending nodes).map (·.id)) d) ∧
      (placed.error = none → pending nodes ≠ [] → outcome = .ok table) ∧
      List.Forall₂ (Settles table d distance) nodes placed.nodes ∧
      (kept nodes = [] → distance = 0) ∧
      (kept nodes ≠ [] → pending nodes ≠ [] → ∃ last,
        IsGreatest {c | c ∈ (kept nodes).map d.along} last ∧
        IsLeast {c | c ∈ (newPoints nodes placed.nodes).map d.along} (last + d.gap)) := by
  intro placed d
  obtain ⟨distance, hsettles, hzero, hpast⟩ := exists_distance options nodes outcome
  have hfallback : placed.isFallback = placed.error.isSome := isFallback_place nodes options outcome
  refine ⟨withoutEngine?_eq_none_iff htime, by rw [hfallback],
    isSome_error_place_iff options nodes outcome htime, ?_⟩
  cases herror : placed.error with
  | some error =>
    refine ⟨source options nodes outcome, distance, fun _ => ?_, ?_, hsettles, hzero, hpast⟩
    · exact source_eq_grid options nodes outcome herror
    · intro hnone
      cases hnone
  | none =>
    by_cases hpending : pending nodes = []
    · refine ⟨source options nodes outcome, distance, ?_, ?_, hsettles, hzero, hpast⟩
      · intro hsome
        cases hsome
      · exact fun _ hnew => absurd hpending hnew
    · have hanswer : engineError? options nodes outcome = none := by
        rw [← error_byEngine, ← place_eq_byEngine options nodes outcome hpending htime]
        exact herror
      obtain ⟨positions, rfl, -⟩ := eq_ok_of_engineError?_eq_none hanswer
      have hsource : source options nodes (.ok positions) = restrict positions (pending nodes) := by
        simp only [source, herror, placed]
      -- Positions that nothing asks for are left out, which no new node notices.
      rw [hsource] at hsettles
      refine ⟨positions, distance, ?_, fun _ _ => rfl, ?_, hzero, hpast⟩
      · intro hsome
        cases hsome
      · exact hsettles.imp fun _ _ hn => hn.of_restrict

def mixedNodes : List (Node ℚ) :=
  let node (id : String) (position : Option (Point ℚ)) : Node ℚ :=
    { id, kind := .text "mobile", label := id, subLabel := .null, position, style := [] }
  [node "b" none, node "a" (some ⟨5, 7⟩), node "c" none]

def mixedAnswer : Positions ℚ :=
  [("c", ⟨10, 3⟩), ("x", ⟨-100, 0⟩), ("b", ⟨-2, 1⟩)]

theorem mixed_nodes_stand_apart :
    let options : Options := { direction := .left }
    let placed := (place options mixedNodes (.ok mixedAnswer)).nodes
    options.timeout.toFloat?.isSome ∧
    (∃ distance, List.Forall₂ (Settles mixedAnswer .left distance) mixedNodes placed) ∧
    (∃ last, IsGreatest {c | c ∈ (kept mixedNodes).map Direction.left.along} last ∧
      IsLeast {c | c ∈ (newPoints mixedNodes placed).map Direction.left.along}
        (last + Direction.left.gap)) ∧
    placed.map (·.position) = [some ⟨285, 1⟩, some ⟨5, 7⟩, some ⟨297, 3⟩] := by
  intro options placed
  have htime : options.timeout.toFloat?.isSome := rfl
  obtain ⟨-, -, -, table, distance, -, htable, hsettles, -, hpast⟩ :=
    new_nodes_stand_past_kept_ones options htime mixedNodes (.ok mixedAnswer)
  have herror : (place options mixedNodes (.ok mixedAnswer)).error = none := rfl
  have hnew : pending mixedNodes ≠ [] := List.cons_ne_nil _ _
  have hkept : kept mixedNodes ≠ [] := List.cons_ne_nil _ _
  obtain rfl := Except.ok.inj (htable herror hnew)
  exact ⟨htime, ⟨distance, hsettles⟩, hpast hkept hnew, by with_unfolding_all rfl⟩

end Layout
end FlowCanvas
