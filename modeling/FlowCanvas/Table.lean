namespace FlowCanvas

abbrev Table (α : Type) := List (String × α)

namespace Table
variable {α : Type}

def get? (key : String) (table : Table α) : Option α :=
  table.lookup key

def put (key : String) (value : α) : Table α → Table α
  | [] => [(key, value)]
  | (k, v) :: r => if k = key then (k, value) :: r else (k, v) :: put key value r

def has (key : String) (table : Table α) : Bool :=
  table.any (·.1 = key)

@[simp] theorem get?_nil (key : String) : get? key ([] : Table α) = none := rfl

theorem get?_cons (key k : String) (v : α) (r : Table α) :
    get? key ((k, v) :: r) = if key = k then some v else get? key r := by
  by_cases h : key = k
  · simp [get?, h]
  · have hb : (key == k) = false := by simpa using h
    simp [get?, List.lookup_cons, hb, h]

/-- Setting a key gives it the value and leaves all other keys alone. -/
theorem get?_put (key other : String) (value : α) (table : Table α) :
    get? other (put key value table) = if other = key then some value else get? other table := by
  induction table with
  | nil => simp [put, get?_cons]
  | cons p r ih =>
    obtain ⟨k, v⟩ := p
    by_cases h : k = key
    · subst h
      simp only [put, if_true, get?_cons]
      split <;> rfl
    · simp only [put, h, if_false, get?_cons, ih]
      split
      · next h2 => simp [h2, h]
      · rfl

/-- After many settings a key has the value that it was given last. -/
theorem get?_foldl_put {ι : Type} (keyOf : ι → String) (valueOf : ι → α) (key : String)
    (xs : List ι) (table : Table α) :
    get? key (xs.foldl (fun table x => put (keyOf x) (valueOf x) table) table) =
      ((xs.filter (keyOf · = key)).getLast?.map valueOf).or (get? key table) := by
  induction xs generalizing table with
  | nil => rfl
  | cons x xs ih =>
    rw [List.foldl_cons, ih, get?_put]
    by_cases hkey : keyOf x = key
    · rw [List.filter_cons_of_pos (by simpa using hkey), List.getLast?_cons, if_pos hkey.symm]
      cases (xs.filter (keyOf · = key)).getLast? <;> rfl
    · rw [List.filter_cons_of_neg (by simpa using hkey), if_neg (Ne.symm hkey)]

theorem has_eq (key : String) (table : Table α) : has key table = (get? key table).isSome := by
  induction table with
  | nil => rfl
  | cons p r ih =>
    rw [get?_cons, has, List.any_cons, ← has, ih]
    by_cases h : key = p.1
    · simp [h]
    · simp [h, Ne.symm h]

theorem get?_map {β : Type} (f : α → β) (key : String) (table : Table α) :
    get? key (table.map fun p => (p.1, f p.2)) = (get? key table).map f := by
  induction table with
  | nil => rfl
  | cons p r ih =>
    rw [List.map_cons, get?_cons, get?_cons, ih]
    split <;> rfl

def IsUnique (table : Table α) : Prop :=
  (table.map (·.1)).Nodup

theorem map_fst_put (key : String) (value : α) (table : Table α) :
    (put key value table).map (·.1) =
      if has key table then table.map (·.1) else table.map (·.1) ++ [key] := by
  induction table with
  | nil => rfl
  | cons p r ih =>
    obtain ⟨k, v⟩ := p
    by_cases h : k = key
    · simp [put, has, h]
    · have hhas : has key ((k, v) :: r) = has key r := by simp [has, h]
      rw [put, if_neg h, List.map_cons, ih, hhas]
      split <;> rfl

theorem IsUnique.put {table : Table α} (h : IsUnique table) (key : String) (value : α) :
    IsUnique (put key value table) := by
  rw [IsUnique, map_fst_put]
  split
  · exact h
  · next hnew =>
    have hkey : key ∉ table.map (·.1) := by simpa [has] using hnew
    refine List.nodup_append.2 ⟨h, by simp, ?_⟩
    intro k hk k' hk' heq
    obtain rfl := List.mem_singleton.1 hk'
    exact hkey (heq ▸ hk)

theorem IsUnique.foldl_put {ι : Type} (keyOf : ι → String) (valueOf : ι → α) (xs : List ι)
    {table : Table α} (h : IsUnique table) :
    IsUnique (xs.foldl (fun table x => Table.put (keyOf x) (valueOf x) table) table) := by
  induction xs generalizing table with
  | nil => exact h
  | cons x xs ih => exact ih (h.put (keyOf x) (valueOf x))

theorem IsUnique.mem_iff {table : Table α} (h : IsUnique table) {key : String} {value : α} :
    (key, value) ∈ table ↔ get? key table = some value := by
  induction table with
  | nil => simp
  | cons p r ih =>
    obtain ⟨k, v⟩ := p
    obtain ⟨hnew, hrest⟩ := List.nodup_cons.1 h
    rw [List.mem_cons, get?_cons]
    by_cases hkey : key = k
    · subst hkey
      have hnone : (key, value) ∉ r := by
        intro hmem
        exact hnew (List.mem_map.2 ⟨_, hmem, rfl⟩)
      simp [hnone, eq_comm]
    · simp [hkey, ih hrest]

end Table
end FlowCanvas
