import Mathlib
import FlowCanvas.Layout.Footprint
import FlowCanvas.Proofs.Decimal.Rounding
import FlowCanvas.Proofs.Layout.Separation

namespace FlowCanvas

namespace NodeKind

/-- The layout engine takes sizes in inches and gives positions in points. -/
def pointsPerInch : ℚ := 72

def width (kind : NodeKind) : ℚ :=
  kind.footprint.width.toRat * pointsPerInch

def height (kind : NodeKind) : ℚ :=
  kind.footprint.height.toRat * pointsPerInch

/-- The room that a node takes, to the right of its corner and below. -/
def room (kind : NodeKind) (corner : Point ℚ) : Set (ℚ × ℚ) :=
  Set.Icc corner.x (corner.x + kind.width) ×ˢ Set.Icc corner.y (corner.y + kind.height)

theorem width_nonneg (kind : NodeKind) : 0 ≤ kind.width := by
  cases kind <;> norm_num [width, footprint, Decimal.toRat, pointsPerInch]

theorem height_nonneg (kind : NodeKind) : 0 ≤ kind.height := by
  cases kind <;> norm_num [height, footprint, Decimal.toRat, pointsPerInch]

theorem width_lt_columnWidth (kind : NodeKind) : kind.width < Layout.columnWidth := by
  cases kind <;> norm_num [width, footprint, Decimal.toRat, pointsPerInch, Layout.columnWidth]

theorem height_lt_rowHeight {kind : NodeKind} (hkind : kind ≠ .mobile) :
    kind.height < Layout.rowHeight := by
  cases kind
  case mobile => exact absurd rfl hkind
  all_goals norm_num [height, footprint, Decimal.toRat, pointsPerInch, Layout.rowHeight]

theorem mobile_height : NodeKind.mobile.height = 1008 / 5 := by
  norm_num [height, footprint, Decimal.toRat, pointsPerInch]

end NodeKind

namespace Layout

theorem disjoint_Icc_iff {a b l m : ℚ} (hl : 0 ≤ l) (hm : 0 ≤ m) :
    Disjoint (Set.Icc a (a + l)) (Set.Icc b (b + m)) ↔ a + l < b ∨ b + m < a := by
  rw [Set.disjoint_iff_inter_eq_empty, Set.Icc_inter_Icc, Set.Icc_eq_empty_iff, le_inf_iff,
    sup_le_iff, sup_le_iff]
  constructor
  · intro h
    by_contra hmeet
    obtain ⟨hab, hba⟩ := not_or.1 hmeet
    exact h ⟨⟨by linarith, not_lt.1 hab⟩, not_lt.1 hba, by linarith⟩
  · rintro (h | h) ⟨⟨-, hab⟩, hba, -⟩
    · exact absurd h (not_lt.2 hab)
    · exact absurd h (not_lt.2 hba)

theorem disjoint_room_iff {old new : NodeKind} {q p : Point ℚ} :
    Disjoint (old.room q) (new.room p) ↔
      (q.x + old.width < p.x ∨ p.x + new.width < q.x) ∨
        (q.y + old.height < p.y ∨ p.y + new.height < q.y) := by
  unfold NodeKind.room
  rw [Set.disjoint_prod, disjoint_Icc_iff old.width_nonneg new.width_nonneg,
    disjoint_Icc_iff old.height_nonneg new.height_nonneg]

variable (options : Options) (nodes : List (Node ℚ))
  (outcome : Except EngineFailure (Positions ℚ))

/-- A new node stands at least one row or column past every kept one. -/
theorem exists_along_add_gap_le {old new new' : Node ℚ} {q : Point ℚ} (hold : old ∈ nodes)
    (hq : old.position = some q)
    (hpair : (new, new') ∈ nodes.zip (place options nodes outcome).nodes)
    (hnew : new.position = none) :
    new'.unplaced = new.unplaced ∧ ∃ p, new'.position = some p ∧
      options.direction.along q + options.direction.gap ≤ options.direction.along p := by
  obtain ⟨distance, hsettles, -, hpast⟩ := exists_distance options nodes outcome
  have hsettle := List.forall₂_zip hsettles hpair
  obtain ⟨r, -, hp⟩ := hsettle.moved hnew
  refine ⟨hsettle.same, _, hp, ?_⟩
  have hmem : q ∈ kept nodes := List.mem_filterMap.2 ⟨old, hold, hq⟩
  have hpending : pending nodes ≠ [] :=
    pending_ne_nil_iff.2 ⟨new, (List.of_mem_zip hpair).1, hnew⟩
  obtain ⟨last, hgreatest, hleast⟩ := hpast (List.ne_nil_of_mem hmem) hpending
  have hkept : options.direction.along q ≤ last := hgreatest.2 (List.mem_map_of_mem hmem)
  have hstart : last + options.direction.gap ≤
      options.direction.along (r.moved options.direction distance) := by
    apply hleast.2
    apply List.mem_map_of_mem
    refine List.mem_filterMap.2 ⟨(new, new'), hpair, ?_⟩
    simp only [hnew, Option.isNone_none, if_true, hp]
  linarith

/-- A new node overlaps a kept one just if the flow is vertical, the kept one is a mobile screen,
and the new one begins above its lower end and stands under or over it. -/
theorem new_nodes_overlap_iff {old new new' : Node ℚ} {q : Point ℚ} {oldKind newKind : NodeKind}
    (hold : old ∈ nodes) (hq : old.position = some q)
    (hpair : (new, new') ∈ nodes.zip (place options nodes outcome).nodes)
    (hnew : new.position = none) (holdKind : NodeKind.ofDrawn old.kind = .ok oldKind)
    (hnewKind : NodeKind.ofDrawn new.kind = .ok newKind) :
    NodeKind.ofDrawn new'.kind = .ok newKind ∧ ∃ p, new'.position = some p ∧
      (¬ Disjoint (oldKind.room q) (newKind.room p) ↔
        options.direction.isHorizontal = false ∧ oldKind = .mobile ∧
          p.y ≤ q.y + 1008 / 5 ∧ q.x ≤ p.x + newKind.width ∧ p.x ≤ q.x + oldKind.width) := by
  obtain ⟨hsame, p, hp, hpast⟩ :=
    exists_along_add_gap_le options nodes outcome hold hq hpair hnew
  have hkind := congrArg (fun n : Node ℚ => NodeKind.ofDrawn n.kind) hsame
  refine ⟨hkind.trans hnewKind, p, hp, ?_⟩
  rw [disjoint_room_iff]
  cases hflow : options.direction.isHorizontal with
  | true =>
    -- The new node begins a whole column further to the right.
    have hwidth := oldKind.width_lt_columnWidth
    simp only [Direction.along, Direction.gap, hflow, if_true] at hpast
    have hapart : q.x + oldKind.width < p.x := by linarith
    simp [hapart]
  | false =>
    simp only [Direction.along, Direction.gap, hflow, Bool.false_eq_true, if_false] at hpast
    by_cases hmobile : oldKind = .mobile
    · subst hmobile
      have hrow : (0 : ℚ) ≤ rowHeight := Nat.cast_nonneg _
      have hnewHeight := newKind.height_nonneg
      have hbelow : ¬ p.y + newKind.height < q.y := by linarith
      rw [NodeKind.mobile_height]
      simp only [hbelow, or_false, not_or, not_lt, true_and]
      tauto
    · have hheight := NodeKind.height_lt_rowHeight hmobile
      have hapart : q.y + oldKind.height < p.y := by linarith
      simp [hapart, hmobile]

def keptScreen : Node ℚ :=
  { id := "m", kind := .text "mobile", label := "M", subLabel := .null, position := some ⟨0, 0⟩,
    style := [] }

def stepAt (position : Option (Point ℚ)) : Node ℚ :=
  { id := "n", kind := .text "process", label := "N", subLabel := .null, position, style := [] }

/-- The engine can place a new step beside the screen. -/
theorem step_clear_of_screen :
    let placed := (place {} [keptScreen, stepAt none] (.ok [("n", ⟨300, 0⟩)])).nodes
    placed = [keptScreen, stepAt (some ⟨300, 160⟩)] ∧
      Disjoint (NodeKind.mobile.room ⟨0, 0⟩) (NodeKind.process.room ⟨300, 160⟩) := by
  intro placed
  have hplaced : placed = [keptScreen, stepAt (some ⟨300, 160⟩)] := by with_unfolding_all rfl
  have hpair : (stepAt none, stepAt (some ⟨300, 160⟩)) ∈
      [keptScreen, stepAt none].zip placed := by
    rw [hplaced]
    exact List.mem_cons_of_mem _ List.mem_cons_self
  have hmobile : NodeKind.ofDrawn keptScreen.kind = .ok .mobile := by decide +kernel
  have hprocess : NodeKind.ofDrawn (stepAt none).kind = .ok .process := by decide +kernel
  obtain ⟨-, p, hp, hoverlap⟩ := new_nodes_overlap_iff {} [keptScreen, stepAt none]
    (.ok [("n", ⟨300, 0⟩)]) List.mem_cons_self rfl hpair rfl hmobile hprocess
  obtain rfl := Option.some.inj hp
  refine ⟨hplaced, ?_⟩
  by_contra hnot
  obtain ⟨-, -, -, -, hx⟩ := hoverlap.1 hnot
  norm_num [NodeKind.width, NodeKind.footprint, Decimal.toRat, NodeKind.pointsPerInch] at hx

/-- Placed at the corner of the screen, a new step is moved by one row only and covers a part of the
screen. -/
theorem step_overlaps_screen :
    let placed := (place {} [keptScreen, stepAt none] (.ok [("m", ⟨0, 0⟩), ("n", ⟨0, 0⟩)])).nodes
    placed = [keptScreen, stepAt (some ⟨0, 160⟩)] ∧
      NodeKind.ofDrawn keptScreen.kind = .ok .mobile ∧
      NodeKind.ofDrawn (stepAt none).kind = .ok .process ∧
      ¬ Disjoint (NodeKind.mobile.room ⟨0, 0⟩) (NodeKind.process.room ⟨0, 160⟩) ∧
      Set.Icc 0 115 ×ˢ Set.Icc 160 201 ⊆
        NodeKind.mobile.room ⟨0, 0⟩ ∩ NodeKind.process.room ⟨0, 160⟩ := by
  intro placed
  refine ⟨by with_unfolding_all rfl, by decide +kernel, by decide +kernel, ?_, ?_⟩
  · rw [disjoint_room_iff]
    norm_num [NodeKind.width, NodeKind.height, NodeKind.footprint, Decimal.toRat,
      NodeKind.pointsPerInch]
  · rintro ⟨x, y⟩ ⟨⟨hx, hx'⟩, hy, hy'⟩
    norm_num [NodeKind.room, NodeKind.width, NodeKind.height, NodeKind.footprint, Decimal.toRat,
      NodeKind.pointsPerInch] at hx hx' hy hy' ⊢
    refine ⟨⟨⟨hx, ?_⟩, ?_, ?_⟩, ⟨hx, hy⟩, ?_, ?_⟩ <;> linarith

end Layout
end FlowCanvas
