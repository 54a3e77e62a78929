import Mathlib.Data.List.Basic

namespace FlowCanvas
variable {α β ε : Type}

theorem bind_eq_ok_iff {x : Except ε α} {f : α → Except ε β} {b : β} :
    x >>= f = .ok b ↔ ∃ a, x = .ok a ∧ f a = .ok b := by
  cases x with
  | error e => simp [bind, Except.bind]
  | ok a => simp [bind, Except.bind]

theorem bind_eq_error_iff {x : Except ε α} {f : α → Except ε β} {e : ε} :
    x >>= f = .error e ↔ x = .error e ∨ ∃ a, x = .ok a ∧ f a = .error e := by
  cases x with
  | error e => simp [bind, Except.bind]
  | ok a => simp [bind, Except.bind]

theorem ite_error_eq_ok_iff {p : α → Prop} [DecidablePred p] {e : ε} {a b : α} :
    (if p a then .error e else .ok a) = Except.ok b ↔ a = b ∧ ¬p b := by
  by_cases h : p a
  · simp only [if_pos h, reduceCtorEq, false_iff, not_and, not_not]
    rintro rfl
    exact h
  · simp only [if_neg h, Except.ok.injEq, iff_self_and]
    rintro rfl
    exact h

@[simp] theorem mapError_eq_ok_iff {ε' : Type} {f : ε → ε'} {x : Except ε α} {a : α} :
    x.mapError f = .ok a ↔ x = .ok a := by
  cases x with
  | error e => simp [Except.mapError]
  | ok b => simp [Except.mapError]

section
variable {xs : List α}

theorem mapM_eq_ok {f : α → Except ε β} {g : α → β} (h : ∀ x ∈ xs, f x = .ok (g x)) :
    xs.mapM f = .ok (xs.map g) := by
  induction xs with
  | nil => rfl
  | cons x xs ih =>
    have hhead := h x List.mem_cons_self
    have hrest := ih fun y hy => h y (List.mem_cons_of_mem _ hy)
    simp [List.mapM_cons, hhead, hrest, bind, Except.bind, pure, Except.pure]

/-- When steps go through together, and what they then give. -/
theorem mapM_eq_ok_iff {f : α → Except ε β} {P : α → Prop} {g : α → β}
    (h : ∀ x ∈ xs, ∀ {y}, f x = .ok y ↔ P x ∧ g x = y) {ys : List β} :
    xs.mapM f = .ok ys ↔ (∀ x ∈ xs, P x) ∧ xs.map g = ys := by
  induction xs generalizing ys with
  | nil => simp [pure, Except.pure]
  | cons x xs ih =>
    have hhead := fun y => h x List.mem_cons_self (y := y)
    have hrest (zs : List β) : xs.mapM f = .ok zs ↔ (∀ x ∈ xs, P x) ∧ xs.map g = zs :=
      ih fun y hy => h y (List.mem_cons_of_mem _ hy)
    simp only [List.mapM_cons, bind_eq_ok_iff, hhead, hrest, List.forall_mem_cons, List.map_cons]
    constructor
    · rintro ⟨y, ⟨hx, rfl⟩, zs, ⟨hxs, rfl⟩, hys⟩
      exact ⟨⟨hx, hxs⟩, Except.ok.inj hys⟩
    · rintro ⟨⟨hx, hxs⟩, rfl⟩
      exact ⟨g x, ⟨hx, rfl⟩, xs.map g, ⟨hxs, rfl⟩, rfl⟩

/-- Steps fail together at the first of them that fails. -/
theorem mapM_eq_error_iff {f : α → Except ε β} {e : ε} :
    xs.mapM f = .error e ↔ ∃ before x after, xs = before ++ x :: after ∧
      (∀ y ∈ before, ∃ b, f y = .ok b) ∧ f x = .error e := by
  induction xs with
  | nil => simp [pure, Except.pure]
  | cons y ys ih =>
    simp only [List.mapM_cons, bind_eq_error_iff, ih]
    constructor
    · rintro (hy | ⟨b, hy, ⟨before, x, after, rfl, hbefore, hx⟩ | ⟨bs, -, h⟩⟩)
      · exact ⟨[], y, ys, rfl, by simp, hy⟩
      · exact ⟨y :: before, x, after, rfl, List.forall_mem_cons.2 ⟨⟨b, hy⟩, hbefore⟩, hx⟩
      · cases h
    · rintro ⟨before, x, after, hsplit, hbefore, hx⟩
      cases before with
      | nil =>
        obtain ⟨rfl, -⟩ := List.cons.inj hsplit
        exact .inl hx
      | cons z before =>
        obtain ⟨rfl, rfl⟩ := List.cons.inj hsplit
        obtain ⟨⟨b, hy⟩, hbefore⟩ := List.forall_mem_cons.1 hbefore
        exact .inr ⟨b, hy, .inl ⟨before, x, after, rfl, hbefore, hx⟩⟩

theorem foldlM_eq_ok {f : β → α → Except ε β} {g : β → α → β}
    (h : ∀ state, ∀ x ∈ xs, f state x = .ok (g state x)) (state : β) :
    xs.foldlM f state = .ok (xs.foldl g state) := by
  induction xs generalizing state with
  | nil => rfl
  | cons x xs ih =>
    have hhead := h state x List.mem_cons_self
    have hrest := ih (fun state y hy => h state y (List.mem_cons_of_mem _ hy)) (g state x)
    simp [List.foldlM_cons, hhead, hrest, bind, Except.bind]

theorem length_eq_of_mapM {f : α → Except ε β} {ys : List β}
    (h : xs.mapM f = .ok ys) : ys.length = xs.length := by
  induction xs generalizing ys with
  | nil =>
    cases h
    rfl
  | cons x xs ih =>
    simp only [List.mapM_cons, bind_eq_ok_iff] at h
    obtain ⟨first, -, rest, hrest, hys⟩ := h
    obtain rfl := Except.ok.inj hys
    rw [List.length_cons, List.length_cons, ih hrest]

theorem exists_mem_of_mapM {f : α → Except ε β} {ys : List β} (h : xs.mapM f = .ok ys) :
    ∀ y ∈ ys, ∃ x ∈ xs, f x = .ok y := by
  induction xs generalizing ys with
  | nil =>
    cases h
    simp
  | cons x xs ih =>
    simp only [List.mapM_cons, bind_eq_ok_iff] at h
    obtain ⟨first, hx, rest, hxs, hys⟩ := h
    obtain rfl := Except.ok.inj hys
    intro y hy
    rcases List.mem_cons.1 hy with rfl | hy
    · exact ⟨x, List.mem_cons_self, hx⟩
    · obtain ⟨z, hz, hfz⟩ := ih hxs y hy
      exact ⟨z, List.mem_cons_of_mem _ hz, hfz⟩

theorem exists_ok_of_mapM {f : α → Except ε β} {ys : List β} (h : xs.mapM f = .ok ys) :
    ∀ x ∈ xs, ∃ y, f x = .ok y := by
  induction xs generalizing ys with
  | nil => simp
  | cons x xs ih =>
    simp only [List.mapM_cons, bind_eq_ok_iff] at h
    obtain ⟨first, hx, rest, hxs, -⟩ := h
    exact List.forall_mem_cons.2 ⟨⟨first, hx⟩, ih hxs⟩

end
end FlowCanvas
