import Mathlib.Algebra.Order.Floor.Div
import Mathlib.Data.List.Nodup
import Mathlib.Data.Rat.Cast.Order
import Mathlib.Data.Set.Function
import Mathlib.Order.Bounds.Basic
import Mathlib.Tactic.NormNum
import FlowCanvas.Layout.Grid

namespace FlowCanvas

theorem Table.put_of_not_has {α : Type} {key : String} {table : Table α}
    (h : table.has key = false) (value : α) : table.put key value = table ++ [(key, value)] := by
  induction table with
  | nil => rfl
  | cons p r ih =>
    obtain ⟨hkey, hrest⟩ := Bool.or_eq_false_iff.1 h
    rw [Table.put, if_neg (of_decide_eq_false hkey), ih hrest, List.cons_append]

namespace Layout

theorem isLeast_columns (n : ℕ) : IsLeast {c | n ≤ c * c} (columns n) := by
  unfold columns
  cases hfound : (List.range n).find? fun c => n ≤ c * c with
  | some c =>
    obtain ⟨hc, -, hbelow⟩ := List.find?_range_eq_some.1 hfound
    refine ⟨of_decide_eq_true hc, fun k hk => ?_⟩
    by_contra hlt
    have hk' : n ≤ k * k := hk
    simpa [hk'] using hbelow k (not_le.1 hlt)
  | none =>
    -- No number below `n` is large enough, and `n` itself is.
    have hbelow := List.find?_range_eq_none.1 hfound
    refine ⟨Nat.le_mul_self n, fun k hk => ?_⟩
    by_contra hlt
    have hk' : n ≤ k * k := hk
    simpa [hk'] using hbelow k (not_le.1 hlt)

section Shape
variable {n : ℕ}

theorem columns_pos (hn : 0 < n) : 0 < columns n := by
  by_contra hzero
  have hsquare : n ≤ columns n * columns n := (isLeast_columns n).1
  have : columns n = 0 := by omega
  simp [this] at hsquare
  omega

theorem columns_le (n : ℕ) : columns n ≤ n :=
  (isLeast_columns n).2 (Nat.le_mul_self n)

/-- The cells of `n` nodes, row by row: the column of each and its row. -/
def cells (n : ℕ) : List (ℕ × ℕ) :=
  (List.range n).map fun index => (index % columns n, index / columns n)

def rows (n : ℕ) : ℕ :=
  n ⌈/⌉ columns n

theorem lt_rows_iff (hn : 0 < n) {row : ℕ} : row < rows n ↔ columns n * row < n := by
  rw [rows, ← not_le, ceilDiv_le_iff_le_mul (columns_pos hn), not_le]

theorem mem_cells_iff (hn : 0 < n) {column row : ℕ} :
    (column, row) ∈ cells n ↔ column < columns n ∧ columns n * row + column < n := by
  have hpos := columns_pos hn
  simp only [cells, List.mem_map, List.mem_range, Prod.mk.injEq]
  constructor
  · rintro ⟨index, hindex, rfl, rfl⟩
    rw [Nat.div_add_mod]
    exact ⟨Nat.mod_lt _ hpos, hindex⟩
  · rintro ⟨hcolumn, hplace⟩
    refine ⟨columns n * row + column, hplace, ?_, ?_⟩
    · rw [Nat.mul_add_mod, Nat.mod_eq_of_lt hcolumn]
    · rw [Nat.mul_add_div hpos, Nat.div_eq_of_lt hcolumn, add_zero]

/-- Cells come in reading order: from left to right, and then from top to bottom. -/
theorem cells_in_reading_order (n : ℕ) :
    (cells n).Pairwise fun a b => a.2 < b.2 ∨ a.2 = b.2 ∧ a.1 < b.1 := by
  rw [cells, List.pairwise_map]
  refine List.pairwise_lt_range.imp fun {i j} hij => ?_
  have hi := Nat.div_add_mod i (columns n)
  have hj := Nat.div_add_mod j (columns n)
  rcases (Nat.div_le_div_right hij.le : i / columns n ≤ j / columns n).lt_or_eq with hrow | hrow
  · exact .inl hrow
  · rw [hrow] at hi
    exact .inr ⟨hrow, by omega⟩

theorem nodup_cells (n : ℕ) : (cells n).Nodup := by
  refine (cells_in_reading_order n).imp fun {a b} hab heq => ?_
  subst heq
  omega

theorem rows_le_columns (hn : 0 < n) : rows n ≤ columns n :=
  (ceilDiv_le_iff_le_mul (columns_pos hn)).2 (isLeast_columns n).1

end Shape

section Positions
variable {κ : Type} [Coordinate κ]

/-- The cell of a grid that is filled row by row, turned for a horizontal flow. -/
def turned (d : Direction) (c : ℕ × ℕ) : ℕ × ℕ :=
  if d.isHorizontal then c.swap else c

theorem cell_eq (width index : ℕ) (d : Direction) :
    cell width index d = turned d (index % width, index / width) := by
  unfold cell turned
  split <;> rfl

theorem gridFrom_eq (width index : ℕ) (d : Direction) {ids : List String} (hids : ids.Nodup)
    {positions : Positions κ} (hnew : ∀ id ∈ ids, positions.has id = false) :
    gridFrom width index d positions ids = positions ++
      ids.zip ((List.range' index ids.length).map fun i => cellPoint (cell width i d)) := by
  induction ids generalizing index positions with
  | nil => simp [gridFrom]
  | cons id r ih =>
    obtain ⟨hid, hr⟩ := List.nodup_cons.1 hids
    obtain ⟨hnewId, hnewRest⟩ := List.forall_mem_cons.1 hnew
    rw [gridFrom, Table.put_of_not_has hnewId, ih (index + 1) hr]
    · simp [List.range'_succ]
    · intro other hother
      have hne : id ≠ other := fun heq => hid (heq ▸ hother)
      simpa [Table.has, hne] using hnewRest other hother

theorem grid_eq {ids : List String} (hids : ids.Nodup) (d : Direction) :
    (grid ids d : Positions κ) =
      ids.zip ((cells ids.length).map fun c => cellPoint (turned d c)) := by
  rw [grid, gridFrom_eq _ 0 d hids (by simp [Table.has]), List.nil_append, cells, List.map_map,
    List.range_eq_range']
  simp only [cell_eq]
  rfl

theorem turned_injective (d : Direction) : Function.Injective (turned d) := by
  intro a b h
  unfold turned at h
  split at h
  · exact Prod.swap_injective h
  · exact h

theorem turned_lt_columns {n : ℕ} (d : Direction) {c : ℕ × ℕ} (hc : c ∈ cells n) :
    (turned d c).1 < columns n ∧ (turned d c).2 < columns n := by
  have hn : 0 < n := by simpa [cells] using List.length_pos_of_mem hc
  obtain ⟨hcolumn, hplace⟩ := (mem_cells_iff hn).1 hc
  have hrow : c.2 < rows n := (lt_rows_iff hn).2 (by omega)
  have hdown := hrow.trans_le (rows_le_columns hn)
  unfold turned
  split
  · exact ⟨hdown, hcolumn⟩
  · exact ⟨hcolumn, hdown⟩

/-- Where whole numbers up to the edge of the grid have coordinates of their own, so have the
cells. -/
theorem nodup_points {ids : List String} (hids : ids.Nodup) (d : Direction)
    (hexact : Set.InjOn (Coordinate.ofNat : ℕ → κ) (Set.Iio (columns ids.length * columnWidth))) :
    ((grid ids d : Positions κ).map (·.2)).Nodup := by
  rw [grid_eq hids, List.map_snd_zip (by simp [cells])]
  refine List.Nodup.map_on (fun a ha b hb heq => ?_) (nodup_cells _)
  apply turned_injective d
  -- One bound does for both coordinates: there are no more rows than columns, and
  -- rows stand closer together.
  have ha' := turned_lt_columns d ha
  have hb' := turned_lt_columns d hb
  have hx := congrArg Point.x heq
  have hy := congrArg Point.y heq
  simp only [cellPoint, columnWidth, rowHeight] at hx hy hexact
  ext
  · have hcolumn := hexact (Set.mem_Iio.2 (by omega)) (Set.mem_Iio.2 (by omega)) hx
    omega
  · have hrow := hexact (Set.mem_Iio.2 (by omega)) (Set.mem_Iio.2 (by omega)) hy
    omega

end Positions

structure FillsRows (columns rows : ℕ) (cells : List (ℕ × ℕ)) : Prop where
  inside : ∀ c ∈ cells, c.1 < columns ∧ c.2 < rows
  everyColumn : ∀ column < columns, ∃ row, (column, row) ∈ cells
  everyRow : ∀ row < rows, ∃ column, (column, row) ∈ cells
  /-- Every row but the last is full. -/
  full : ∀ row, row + 1 < rows → ∀ column < columns, (column, row) ∈ cells
  /-- From left to right, and then from top to bottom. -/
  ordered : cells.Pairwise fun a b => a.2 < b.2 ∨ a.2 = b.2 ∧ a.1 < b.1

theorem fillsRows_cells {n : ℕ} (hn : 0 < n) : FillsRows (columns n) (rows n) (cells n) where
  inside := by
    intro c hc
    obtain ⟨hcolumn, hplace⟩ := (mem_cells_iff hn).1 hc
    exact ⟨hcolumn, (lt_rows_iff hn).2 (by omega)⟩
  everyColumn := by
    intro column hcolumn
    have hle := columns_le n
    exact ⟨0, (mem_cells_iff hn).2 ⟨hcolumn, by omega⟩⟩
  everyRow := by
    intro row hrow
    exact ⟨0, (mem_cells_iff hn).2 ⟨columns_pos hn, (lt_rows_iff hn).1 hrow⟩⟩
  full := by
    intro row hrow column hcolumn
    have hnext := (lt_rows_iff hn).1 hrow
    rw [Nat.mul_add_one] at hnext
    exact (mem_cells_iff hn).2 ⟨hcolumn, by omega⟩
  ordered := cells_in_reading_order n

/-- The grid of `n` nodes has the least number `c` of columns with `n ≤ c * c`, and no more rows
than columns. In a vertical flow the nodes take its cells row by row, and in a horizontal flow the
same cells with rows and columns exchanged, a column being 280 and a row 160 apart. No two nodes get
the same position, as long as the coordinates tell whole numbers apart. -/
theorem grid_fills_rows {ids : List String} (hids : ids.Nodup) (hne : ids ≠ []) :
    ∃ c cells, IsLeast {k | ids.length ≤ k * k} c ∧ ids.length ⌈/⌉ c ≤ c ∧
      cells.length = ids.length ∧ FillsRows c (ids.length ⌈/⌉ c) cells ∧
      ∀ (κ : Type) [Coordinate κ] (d : Direction),
        (grid ids d : Positions κ) =
          ids.zip ((if d.isHorizontal then cells.map Prod.swap else cells).map fun cell =>
            ⟨Coordinate.ofNat (cell.1 * 280), Coordinate.ofNat (cell.2 * 160)⟩) ∧
        (Set.InjOn (Coordinate.ofNat : ℕ → κ) (Set.Iio (c * 280)) →
          ((grid ids d : Positions κ).map (·.2)).Nodup) := by
  have hn : 0 < ids.length := List.length_pos_iff.2 hne
  refine ⟨columns ids.length, cells ids.length, isLeast_columns _, rows_le_columns hn,
    by simp [cells], fillsRows_cells hn, fun κ _ d => ⟨?_, nodup_points hids d⟩⟩
  rw [grid_eq hids]
  unfold turned
  split
  · rw [List.map_map]
    rfl
  · rfl

theorem injective_ofNat_rat : Function.Injective (Coordinate.ofNat : ℕ → ℚ) :=
  Nat.cast_injective

/-- Five nodes stand in three columns, the last two in a second row, or in a horizontal flow in a
second column. -/
theorem five_nodes_fill_rows :
    let ids := ["a", "b", "c", "d", "e"]
    ids.Nodup ∧ ids ≠ [] ∧
      (grid ids .down : Positions ℚ) =
        [("a", ⟨0, 0⟩), ("b", ⟨280, 0⟩), ("c", ⟨560, 0⟩), ("d", ⟨0, 160⟩), ("e", ⟨280, 160⟩)] ∧
      (grid ids .right : Positions ℚ) =
        [("a", ⟨0, 0⟩), ("b", ⟨0, 160⟩), ("c", ⟨0, 320⟩), ("d", ⟨280, 0⟩), ("e", ⟨280, 160⟩)] ∧
      ((grid ids .right : Positions ℚ).map (·.2)).Nodup := by
  intro ids
  have hids : ids.Nodup := by decide
  have hne : ids ≠ [] := List.cons_ne_nil _ _
  obtain ⟨c, cells, -, -, -, -, hgrid⟩ := grid_fills_rows hids hne
  obtain ⟨-, hdistinct⟩ := hgrid ℚ .right
  have hcells : Layout.cells ids.length = [(0, 0), (1, 0), (2, 0), (0, 1), (1, 1)] := by decide
  refine ⟨hids, hne, ?_, ?_, hdistinct injective_ofNat_rat.injOn⟩
  · rw [grid_eq hids, hcells]
    norm_num [ids, turned, Direction.isHorizontal, cellPoint, Coordinate.ofNat, columnWidth,
      rowHeight]
  · rw [grid_eq hids, hcells]
    norm_num [ids, turned, Direction.isHorizontal, cellPoint, Coordinate.ofNat, columnWidth,
      rowHeight]

end Layout
end FlowCanvas
