import Mathlib.Order.Interval.Finset.Nat
import FlowCanvas.Proofs.Identity.Minting

namespace FlowCanvas.Identity

structure Trial where
  name : String
  last : String → Nat

def Trial.next (base : String) (t : Trial) : Trial where
  name := numbered base (t.last base + 1)
  last := Function.update t.last base (t.last base + 1)

/-- A search from one trial that ends at another, by how many names it looks up. -/
inductive Search (base : String) (claimed : List String) : Trial → Nat → Trial → Prop
  | free {t : Trial} (h : t.name ∉ claimed) : Search base claimed t 1 t
  | taken {t found : Trial} {tests : Nat} (h : t.name ∈ claimed)
      (rest : Search base claimed (t.next base) tests found) :
      Search base claimed t (tests + 1) found

variable {base : String} {claimed : List String}

theorem Search.unique {t found found' : Trial} {tests tests' : Nat}
    (h : Search base claimed t tests found) (h' : Search base claimed t tests' found') :
    tests' = tests ∧ found' = found := by
  induction h generalizing tests' with
  | free hfree =>
    cases h' with
    | free => exact ⟨rfl, rfl⟩
    | taken htaken => exact absurd htaken hfree
  | taken htaken _ ih =>
    cases h' with
    | free hfree => exact absurd htaken hfree
    | taken _ rest =>
      obtain ⟨rfl, rfl⟩ := ih rest
      exact ⟨rfl, rfl⟩

/-- While the numbers are taken the search goes on, and it ends at the first free one. -/
theorem search_of_taken {t : Trial} (d : Nat) (hname : t.name ∈ claimed)
    (htaken : ∀ j, t.last base < j → j < t.last base + d + 1 → numbered base j ∈ claimed)
    (hfree : numbered base (t.last base + d + 1) ∉ claimed) :
    Search base claimed t (d + 2) ⟨numbered base (t.last base + d + 1),
      Function.update t.last base (t.last base + d + 1)⟩ := by
  induction d generalizing t with
  | zero => exact .taken hname (.free hfree)
  | succ d ih =>
    have hlast : (t.next base).last base = t.last base + 1 := Function.update_self ..
    have hstep : t.last base + 1 + d + 1 = t.last base + (d + 1) + 1 := by omega
    have hrest := ih (t := t.next base) (htaken _ (by omega) (by omega))
      (fun j hj hjd => htaken j (by omega) (by omega)) (by rwa [hlast, hstep])
    rw [hlast, hstep, Trial.next, Function.update_idem] at hrest
    exact .taken hname hrest

theorem numbered_ne_base (base : String) (k : Nat) : numbered base k ≠ base := by
  intro h
  have hlength := congrArg String.length h
  simp only [numbered, String.length_append] at hlength
  have : "_".length = 1 := rfl
  omega

section Passed
variable (base : String) (claimed : List String) (last : Nat)

def passed : Finset String :=
  (Finset.Ioo last (nextFree base claimed last)).image (numbered base)

theorem card_passed : (passed base claimed last).card = nextFree base claimed last - last - 1 := by
  rw [passed, Finset.card_image_of_injective _ (numbered_injective base), Nat.card_Ioo]

theorem base_not_mem_passed : base ∉ passed base claimed last := by
  intro hmem
  obtain ⟨k, -, hk⟩ := Finset.mem_image.1 hmem
  exact numbered_ne_base base k hk

theorem passed_subset : passed base claimed last ⊆ claimed.toFinset := by
  obtain ⟨-, -, -, hleast⟩ := nextFree_spec base claimed last
  intro id hid
  obtain ⟨j, hj, rfl⟩ := Finset.mem_image.1 hid
  obtain ⟨hlast, hnext⟩ := Finset.mem_Ioo.1 hj
  simpa using hleast j hlast hnext

theorem nextFree_le_card (h : base ∈ claimed) :
    nextFree base claimed last ≤ last + claimed.toFinset.card := by
  have habove := (nextFree_spec base claimed last).1
  have hle := Finset.card_le_card
    (Finset.insert_subset (by simpa using h) (passed_subset base claimed last))
  rw [Finset.card_insert_of_notMem (base_not_mem_passed base claimed last), card_passed] at hle
  omega

end Passed

variable (base claimed) (counters : Counters)

def minted : Trial where
  name := (mint base claimed counters).1
  last := (mint base claimed counters).2.last

theorem minted_of_not_mem (h : base ∉ claimed) :
    minted base claimed counters = ⟨base, counters.last⟩ := by
  rw [minted, mint_of_not_mem counters h]

theorem minted_of_mem (h : base ∈ claimed) :
    minted base claimed counters =
      ⟨numbered base (nextFree base claimed (counters.last base)),
        Function.update counters.last base (nextFree base claimed (counters.last base))⟩ := by
  rw [minted, mint_of_mem counters h, Trial.mk.injEq]
  refine ⟨rfl, funext fun other => ?_⟩
  rw [Counters.last_set, Function.update_apply]

theorem exists_search : ∃ tests ≤ claimed.toFinset.card + 1,
    Search base claimed ⟨base, counters.last⟩ tests (minted base claimed counters) := by
  by_cases h : base ∈ claimed
  · obtain ⟨habove, -, hfree, hleast⟩ := nextFree_spec base claimed (counters.last base)
    have hle := nextFree_le_card base claimed (counters.last base) h
    obtain ⟨d, hd⟩ := Nat.exists_eq_add_of_lt habove
    rw [minted_of_mem base claimed counters h]
    rw [hd] at hfree hleast hle ⊢
    exact ⟨d + 2, by omega, search_of_taken d h hleast hfree⟩
  · rw [minted_of_not_mem base claimed counters h]
    exact ⟨1, by omega, .free h⟩

/-- Whatever ids are taken and wherever the counters stand, looking for a new id ends, with what
`mint` gives, and no more names are looked up than there are taken ids and one more. The id is free:
it is the base, and no counter moves, or, if that is taken, the base with the least number above its
counter that is free, and only that counter moves to it. -/
theorem mint_ends_search :
    (∃ tests, Search base claimed ⟨base, counters.last⟩ tests (minted base claimed counters)) ∧
    (∀ tests found, Search base claimed ⟨base, counters.last⟩ tests found →
      found = minted base claimed counters ∧ tests ≤ claimed.toFinset.card + 1) ∧
    (mint base claimed counters).1 ∉ claimed ∧
    if base ∈ claimed then
      ∃ k, IsLeast {k | counters.last base < k ∧ numbered base k ∉ claimed} k ∧
        (mint base claimed counters).1 = numbered base k ∧
        (mint base claimed counters).2.last = Function.update counters.last base k
    else mint base claimed counters = (base, counters) := by
  obtain ⟨tests, htests, hsearch⟩ := exists_search base claimed counters
  refine ⟨⟨tests, hsearch⟩, fun tests' found hfound => ?_, mint_not_mem base claimed counters, ?_⟩
  · obtain ⟨rfl, rfl⟩ := hsearch.unique hfound
    exact ⟨rfl, htests⟩
  · split
    · next h =>
      obtain ⟨habove, -, hfree, hleast⟩ := nextFree_spec base claimed (counters.last base)
      have hminted := Trial.mk.inj (minted_of_mem base claimed counters h)
      refine ⟨_, ⟨⟨habove, hfree⟩, fun k hk => ?_⟩, hminted.1, hminted.2⟩
      by_contra! hlt
      exact hk.2 (hleast k hk.1 hlt)
    · next h => exact mint_of_not_mem counters h

end FlowCanvas.Identity
