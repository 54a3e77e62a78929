import Mathlib.Data.List.Nodup
import Mathlib.Data.List.Perm.Subperm
import FlowCanvas.Identity

namespace FlowCanvas.Identity

theorem numbered_injective (base : String) : Function.Injective (numbered base) := by
  intro i j h
  have hdigits := congrArg String.toList h
  simp only [numbered, String.toList_append] at hdigits
  have hvalue := congrArg (Nat.ofDigitChars 10 · 0) (List.append_cancel_left hdigits)
  simpa [Nat.toString_eq_ofList_toDigits] using hvalue

theorem Counters.last_set (counters : Counters) (base other : String) (n : Nat) :
    (counters.set base n).last other = if other = base then n else counters.last other := by
  by_cases h : other = base
  · simp [Counters.last, Counters.set, h]
  · have hb : (other == base) = false := by simpa using h
    simp [Counters.last, Counters.set, List.lookup_cons, hb, h]

/-- Some candidate is free, because the candidates are distinct and outnumber the taken ids. -/
theorem exists_free (base : String) (claimed : List String) (last : Nat) :
    ∃ i < claimed.length + 1, numbered base (last + 1 + i) ∉ claimed := by
  by_contra! h
  let candidates := (List.range (claimed.length + 1)).map fun i => numbered base (last + 1 + i)
  have hdistinct : candidates.Nodup := by
    apply List.Nodup.map _ List.nodup_range
    intro i j hij
    have := numbered_injective base hij
    omega
  have htaken : candidates ⊆ claimed := by
    intro id hid
    obtain ⟨i, hi, rfl⟩ := List.mem_map.1 hid
    exact h i (List.mem_range.1 hi)
  have hlength := (List.subperm_of_subset hdistinct htaken).length_le
  simp only [candidates, List.length_map, List.length_range] at hlength
  omega

theorem nextFree_spec (base : String) (claimed : List String) (last : Nat) :
    last < nextFree base claimed last ∧
      nextFree base claimed last ≤ last + 1 + claimed.length ∧
      numbered base (nextFree base claimed last) ∉ claimed ∧
      ∀ j, last < j → j < nextFree base claimed last → numbered base j ∈ claimed := by
  obtain ⟨i, hi, hfree⟩ := exists_free base claimed last
  unfold nextFree
  rw [List.find?_map]
  cases hf : (List.range (claimed.length + 1)).find?
      ((fun k => !claimed.contains (numbered base k)) ∘ (last + 1 + ·)) with
  | none =>
    have htaken := List.find?_range_eq_none.1 hf i hi
    simp [hfree] at htaken
  | some k =>
    obtain ⟨hk, hmem, hleast⟩ := List.find?_range_eq_some.1 hf
    have hbound := List.mem_range.1 hmem
    simp only [Option.map_some, Option.getD_some]
    refine ⟨by omega, by omega, by simpa using hk, ?_⟩
    intro j hj hjk
    -- The search starts right above the counter, so it has passed every number in between.
    have htaken := hleast (j - (last + 1)) (by omega)
    simpa [Nat.add_sub_of_le (Nat.succ_le_of_lt hj)] using htaken

theorem nextFree_eq_iff {base : String} {claimed : List String} {last k : Nat} :
    nextFree base claimed last = k ↔
      last < k ∧ numbered base k ∉ claimed ∧
        ∀ j, last < j → j < k → numbered base j ∈ claimed := by
  obtain ⟨habove, -, hfree, hleast⟩ := nextFree_spec base claimed last
  constructor
  · rintro rfl
    exact ⟨habove, hfree, hleast⟩
  · rintro ⟨hk, hkfree, hkleast⟩
    by_contra hne
    rcases Nat.lt_or_gt_of_ne hne with hlt | hlt
    · exact hfree (hkleast _ habove hlt)
    · exact hkfree (hleast _ hk hlt)

theorem nextFree_of_subset {base : String} {claimed more : List String} {last : Nat}
    (hsub : claimed ⊆ more) (hfree : numbered base (nextFree base claimed last) ∉ more) :
    nextFree base more last = nextFree base claimed last := by
  obtain ⟨habove, -, -, hleast⟩ := nextFree_spec base claimed last
  exact nextFree_eq_iff.2 ⟨habove, hfree, fun j hj hjk => hsub (hleast j hj hjk)⟩

theorem mint_of_not_mem {base : String} {claimed : List String} (counters : Counters)
    (h : base ∉ claimed) : mint base claimed counters = (base, counters) := by
  simp [mint, h]

theorem mint_of_mem {base : String} {claimed : List String} (counters : Counters)
    (h : base ∈ claimed) :
    mint base claimed counters =
      (numbered base (nextFree base claimed (counters.last base)),
        counters.set base (nextFree base claimed (counters.last base))) := by
  simp [mint, h]

theorem mint_not_mem (base : String) (claimed : List String) (counters : Counters) :
    (mint base claimed counters).1 ∉ claimed := by
  by_cases h : base ∈ claimed
  · rw [mint_of_mem counters h]
    exact (nextFree_spec base claimed _).2.2.1
  · simpa [mint_of_not_mem counters h] using h

theorem mint_eq_or_numbered (base : String) (claimed : List String) (counters : Counters) :
    (mint base claimed counters).1 = base ∨
      ∃ k, 1 ≤ k ∧ (mint base claimed counters).1 = numbered base k := by
  by_cases h : base ∈ claimed
  · rw [mint_of_mem counters h]
    have habove := (nextFree_spec base claimed (counters.last base)).1
    exact .inr ⟨_, by omega, rfl⟩
  · exact .inl (by rw [mint_of_not_mem counters h])

theorem mint_last_of_ne {base other : String} (claimed : List String) (counters : Counters)
    (h : other ≠ base) : (mint base claimed counters).2.last other = counters.last other := by
  by_cases hb : base ∈ claimed
  · rw [mint_of_mem counters hb, Counters.last_set, if_neg h]
  · rw [mint_of_not_mem counters hb]

/-- With more ids taken, minting gives the same id as long as that id stays free. -/
theorem mint_of_subset {base : String} {claimed more : List String} {counters counters' : Counters}
    (hsub : claimed ⊆ more) (hfree : (mint base claimed counters).1 ∉ more)
    (hlast : counters'.last base = counters.last base) :
    (mint base more counters').1 = (mint base claimed counters).1 := by
  by_cases h : base ∈ claimed
  · rw [mint_of_mem counters h] at hfree ⊢
    rw [mint_of_mem counters' (hsub h), hlast, nextFree_of_subset hsub hfree]
  · rw [mint_of_not_mem counters h] at hfree ⊢
    rw [mint_of_not_mem counters' hfree]

end FlowCanvas.Identity
