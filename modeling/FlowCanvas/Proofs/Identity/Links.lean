import FlowCanvas.Proofs.Identity.Assignment

namespace FlowCanvas.Identity

theorem eq_of_append_dash_eq {a b ds es : List Char} (hds : '-' ∉ ds) (hes : '-' ∉ es)
    (h : a ++ '-' :: ds = b ++ '-' :: es) : ds = es := by
  -- Read backwards, the part after the last dash is what comes before the first one.
  have hlast (c ts : List Char) (hts : '-' ∉ ts) :
      (c ++ '-' :: ts).reverse.takeWhile (· ≠ '-') = ts.reverse := by
    have hall : ∀ d ∈ ts.reverse, decide (d ≠ '-') = true := by
      intro d hd
      have hmem := List.mem_reverse.1 hd
      simpa using fun heq : d = '-' => hts (heq ▸ hmem)
    rw [List.reverse_append, List.reverse_cons, List.append_assoc, List.singleton_append,
      List.takeWhile_append_of_pos hall]
    simp
  have hrev := congrArg (fun l => l.reverse.takeWhile (· ≠ '-')) h
  simp only [hlast a ds hds, hlast b es hes] at hrev
  exact List.reverse_injective hrev

theorem dash_not_mem_digits (n : Nat) : '-' ∉ Nat.toDigits 10 n := by
  intro h
  have hdigit := Nat.isDigit_of_mem_toDigits (by decide) (by decide) h
  exact absurd hdigit (by decide)

theorem toList_linkId (source target : String) (i : Nat) :
    (linkId source target i).toList =
      ("e-" ++ source ++ "-" ++ target).toList ++ '-' :: Nat.toDigits 10 i := by
  simp [linkId, String.toList_append]

/-- The number of a connection can be read off its id. -/
theorem index_eq_of_linkId_eq {source target source' target' : String} {i j : Nat}
    (h : linkId source target i = linkId source' target' j) : i = j := by
  have hchars := congrArg String.toList h
  rw [toList_linkId, toList_linkId] at hchars
  have hdigits := eq_of_append_dash_eq (dash_not_mem_digits i) (dash_not_mem_digits j) hchars
  simpa using congrArg (Nat.ofDigitChars 10 · 0) hdigits

variable (assignments : List Assignment)

theorem forall₂_linkFrom (index : Nat) (edges : List EdgeDecl) :
    List.Forall₂ (fun e l => l.decl = e ∧ l.source = canvasId assignments e.source ∧
      l.target = canvasId assignments e.target) edges (linkFrom assignments index edges) := by
  induction edges generalizing index with
  | nil => exact .nil
  | cons e r ih => exact .cons ⟨rfl, rfl, rfl⟩ (ih (index + 1))

theorem decl_mem_of_mem_linkFrom {index : Nat} {edges : List EdgeDecl} {l : Link}
    (h : l ∈ linkFrom assignments index edges) : l.decl ∈ edges := by
  induction edges generalizing index with
  | nil => cases h
  | cons e r ih =>
    rcases List.mem_cons.1 h with rfl | h
    · exact List.mem_cons_self
    · exact List.mem_cons_of_mem _ (ih h)

theorem exists_index_of_mem_linkFrom {index : Nat} {edges : List EdgeDecl} {l : Link}
    (h : l ∈ linkFrom assignments index edges) :
    ∃ i, index ≤ i ∧ l.id = linkId l.source l.target i := by
  induction edges generalizing index with
  | nil => simp [linkFrom] at h
  | cons e r ih =>
    rcases List.mem_cons.1 h with rfl | h
    · exact ⟨index, Nat.le_refl _, rfl⟩
    · obtain ⟨i, hi, hid⟩ := ih h
      exact ⟨i, by omega, hid⟩

theorem nodup_ids_linkFrom (index : Nat) (edges : List EdgeDecl) :
    ((linkFrom assignments index edges).map (·.id)).Nodup := by
  induction edges generalizing index with
  | nil => exact List.nodup_nil
  | cons e r ih =>
    rw [linkFrom, List.map_cons, List.nodup_cons]
    refine ⟨?_, ih (index + 1)⟩
    intro h
    obtain ⟨l, hl, hid⟩ := List.mem_map.1 h
    obtain ⟨i, hi, hlink⟩ := exists_index_of_mem_linkFrom assignments hl
    have := index_eq_of_linkId_eq (hlink.symm.trans hid)
    omega

end FlowCanvas.Identity
