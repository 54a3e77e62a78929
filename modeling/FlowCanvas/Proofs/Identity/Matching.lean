import Mathlib.Data.List.Nodup
import FlowCanvas.Identity

namespace FlowCanvas.Identity

/-- The first live node with a label key; a blank key names none. -/
def bearer (nodes : List Node) (key : String) : Option Node :=
  if key.isEmpty then none else nodes.find? (Label.matchKey ·.label = key)

theorem lookup_filter_ne (table : List (String × Node)) (key other : String) :
    (table.filter (·.1 ≠ other)).lookup key = if key = other then none else table.lookup key := by
  induction table with
  | nil => simp
  | cons p r ih =>
    obtain ⟨k, n⟩ := p
    by_cases hp : k = other
    · rw [List.filter_cons_of_neg (by simpa using hp), ih]
      by_cases hk : key = other
      · simp [hk]
      · have hb : (key == k) = false := by simpa [hp] using hk
        simp [List.lookup_cons, hb, hk]
    · rw [List.filter_cons_of_pos (by simpa using hp), List.lookup_cons, List.lookup_cons, ih]
      by_cases hk : key = k
      · simp [hk, hp]
      · have hb : (key == k) = false := by simpa using hk
        simp [hb]

theorem lookup_labelIndex (nodes : List Node) (key : String) :
    (labelIndex nodes).lookup key = bearer nodes key := by
  induction nodes with
  | nil => simp [labelIndex, bearer]
  | cons n r ih =>
    by_cases hn : (Label.matchKey n.label).isEmpty
    · simp only [labelIndex, hn, if_true, ih, bearer, List.find?_cons]
      by_cases hkey : key.isEmpty
      · simp [hkey]
      · have hne : Label.matchKey n.label ≠ key := by
          rintro rfl
          exact hkey hn
        simp [hkey, hne]
    · simp only [labelIndex, hn, if_false, Bool.false_eq_true, List.lookup_cons]
      rw [lookup_filter_ne, ih]
      by_cases hkey : key = Label.matchKey n.label
      · simp [bearer, hkey, hn]
      · have hb : (key == Label.matchKey n.label) = false := by simpa using hkey
        simp [bearer, hb, hkey, Ne.symm hkey]

theorem bearer_eq_some_iff {nodes : List Node} {key : String} {n : Node} :
    bearer nodes key = some n ↔ key ≠ "" ∧ nodes.find? (Label.matchKey ·.label = key) = some n := by
  by_cases h : key = "" <;> simp [bearer, String.isEmpty_iff, h]

theorem mem_of_bearer {nodes : List Node} {key : String} {n : Node}
    (h : bearer nodes key = some n) : n ∈ nodes ∧ Label.matchKey n.label = key := by
  have hf := (bearer_eq_some_iff.1 h).2
  exact ⟨List.mem_of_find?_eq_some hf, by simpa using List.find?_some hf⟩

theorem key_eq_of_bearer_id_eq {nodes : List Node} (hids : (nodes.map (·.id)).Nodup)
    {key other : String} {n m : Node} (hn : bearer nodes key = some n)
    (hm : bearer nodes other = some m) (hid : n.id = m.id) : key = other := by
  obtain ⟨hnmem, rfl⟩ := mem_of_bearer hn
  obtain ⟨hmmem, rfl⟩ := mem_of_bearer hm
  rw [List.inj_on_of_nodup_map hids hnmem hmmem hid]

section Pairing
variable {index : List (String × Node)} {claimed : List String} {decls : List NodeDecl}
  {d : NodeDecl} {n : Node}

def takenIds (pairs : List (NodeDecl × Option Node)) : List String :=
  pairs.filterMap fun p => p.2.map (·.id)

theorem mem_takenIds {pairs : List (NodeDecl × Option Node)} {id : String} :
    id ∈ takenIds pairs ↔ ∃ d n, (d, some n) ∈ pairs ∧ n.id = id := by
  simp only [takenIds, List.mem_filterMap, Option.map_eq_some_iff]
  constructor
  · rintro ⟨⟨d, o⟩, hp, n, rfl, hid⟩
    exact ⟨d, n, hp, hid⟩
  · rintro ⟨d, n, hp, hid⟩
    exact ⟨(d, some n), hp, n, rfl, hid⟩

def sameKey (d e : NodeDecl) : Bool :=
  Label.matchKey e.label = Label.matchKey d.label

theorem pair_cons (index : List (String × Node)) (claimed : List String) (d : NodeDecl)
    (r : List NodeDecl) :
    (∃ n, index.lookup (Label.matchKey d.label) = some n ∧ n.id ∉ claimed ∧
        pair index claimed (d :: r) = (d, some n) :: pair index (n.id :: claimed) r) ∨
      (∀ n, index.lookup (Label.matchKey d.label) = some n → n.id ∈ claimed) ∧
        pair index claimed (d :: r) = (d, none) :: pair index claimed r := by
  cases hl : index.lookup (Label.matchKey d.label) with
  | none => exact .inr ⟨by simp, by simp [pair, hl]⟩
  | some n =>
    by_cases hn : n.id ∈ claimed
    · exact .inr ⟨by simpa using hn, by simp [pair, hl, hn, Option.filter_some]⟩
    · exact .inl ⟨n, rfl, hn, by simp [pair, hl, hn, Option.filter_some]⟩

@[simp] theorem map_fst_pair (index : List (String × Node)) (claimed : List String)
    (decls : List NodeDecl) : (pair index claimed decls).map (·.1) = decls := by
  induction decls generalizing claimed with
  | nil => rfl
  | cons d r ih =>
    obtain ⟨n, -, -, h⟩ | ⟨-, h⟩ := pair_cons index claimed d r <;> simp [h, ih]

theorem lookup_of_mem_pair (h : (d, some n) ∈ pair index claimed decls) :
    index.lookup (Label.matchKey d.label) = some n := by
  induction decls generalizing claimed with
  | nil => simp [pair] at h
  | cons e r ih =>
    obtain ⟨m, hm, -, hp⟩ | ⟨-, hp⟩ := pair_cons index claimed e r
    · rw [hp] at h
      rcases List.mem_cons.1 h with heq | h
      · cases heq
        exact hm
      · exact ih h
    · rw [hp] at h
      exact ih (by simpa using h)

/-- No live node is taken over twice, and none that was spoken for before. -/
theorem nodup_takenIds (index : List (String × Node)) (claimed : List String)
    (decls : List NodeDecl) :
    (takenIds (pair index claimed decls)).Nodup ∧
      ∀ id ∈ takenIds (pair index claimed decls), id ∉ claimed := by
  induction decls generalizing claimed with
  | nil => simp [pair, takenIds]
  | cons d r ih =>
    obtain ⟨n, -, hn, hp⟩ | ⟨-, hp⟩ := pair_cons index claimed d r
    · obtain ⟨hnodup, hfree⟩ := ih (n.id :: claimed)
      have htaken : takenIds (pair index claimed (d :: r)) =
          n.id :: takenIds (pair index (n.id :: claimed) r) := by
        simp [hp, takenIds]
      rw [htaken]
      refine ⟨List.nodup_cons.2 ⟨fun h => hfree _ h List.mem_cons_self, hnodup⟩, ?_⟩
      intro id hid
      rcases List.mem_cons.1 hid with rfl | hid
      · exact hn
      · exact fun h => hfree id hid (List.mem_cons_of_mem _ h)
    · simpa [hp, takenIds] using ih claimed

theorem not_mem_pair_of_claimed
    (hclaimed : ∀ m, index.lookup (Label.matchKey d.label) = some m → m.id ∈ claimed) :
    (d, some n) ∉ pair index claimed decls := by
  intro h
  have hlookup := lookup_of_mem_pair h
  have hmem : n.id ∈ takenIds (pair index claimed decls) := mem_takenIds.2 ⟨d, n, h, rfl⟩
  exact (nodup_takenIds index claimed decls).2 _ hmem (hclaimed n hlookup)

/-- Only the first declaration with a key takes a live node over. -/
theorem find?_sameKey_of_mem_pair (h : (d, some n) ∈ pair index claimed decls) :
    decls.find? (sameKey d) = some d := by
  -- Every node that is taken over adds its id to those that are spoken for.
  induction decls generalizing claimed with
  | nil => simp [pair] at h
  | cons e r ih =>
    by_cases hkey : Label.matchKey e.label = Label.matchKey d.label
    · -- The head takes the key, or finds it taken: nothing is left of it for the tail.
      have hsame : sameKey d e = true := by simpa [sameKey] using hkey
      rw [List.find?_cons_of_pos hsame]
      obtain ⟨m, hm, -, hp⟩ | ⟨hm, hp⟩ := pair_cons index claimed e r
      · rw [hp] at h
        rcases List.mem_cons.1 h with heq | h
        · cases heq
          rfl
        · have hlookup := lookup_of_mem_pair h
          refine absurd h (not_mem_pair_of_claimed fun m' hm' => ?_)
          rw [← hkey, hm] at hm'
          cases hm'
          exact List.mem_cons_self
      · rw [hp] at h
        have h : (d, some n) ∈ pair index claimed r := by simpa using h
        exact absurd h (not_mem_pair_of_claimed (hkey ▸ hm))
    · have hsame : ¬sameKey d e = true := by simpa [sameKey] using hkey
      rw [List.find?_cons_of_neg hsame]
      obtain ⟨m, -, -, hp⟩ | ⟨-, hp⟩ := pair_cons index claimed e r
      · rw [hp] at h
        rcases List.mem_cons.1 h with heq | h
        · cases heq
          exact absurd rfl hkey
        · exact ih h
      · rw [hp] at h
        exact ih (by simpa using h)

/-- If different keys lead to different ids, the first declaration with a key does take over its
live node. -/
theorem mem_pair_of_find?_sameKey
    (hinj : ∀ key other m m', index.lookup key = some m → index.lookup other = some m' →
      m.id = m'.id → key = other)
    (hfirst : decls.find? (sameKey d) = some d)
    (hlookup : index.lookup (Label.matchKey d.label) = some n) (hn : n.id ∉ claimed) :
    (d, some n) ∈ pair index claimed decls := by
  induction decls generalizing claimed with
  | nil => simp at hfirst
  | cons e r ih =>
    by_cases hsame : sameKey d e = true
    · rw [List.find?_cons_of_pos hsame] at hfirst
      cases hfirst
      obtain ⟨m, hm, -, hp⟩ | ⟨hm, -⟩ := pair_cons index claimed d r
      · rw [hlookup] at hm
        cases hm
        simp [hp]
      · exact absurd (hm n hlookup) hn
    · rw [List.find?_cons_of_neg hsame] at hfirst
      obtain ⟨m, hm, -, hp⟩ | ⟨-, hp⟩ := pair_cons index claimed e r
      · -- The head has another key, so it cannot have spoken for the node.
        have hne : n.id ≠ m.id := by
          intro hid
          have hkey := hinj _ _ n m hlookup hm hid
          exact hsame (by simp [sameKey, hkey])
        rw [hp]
        exact List.mem_cons_of_mem _ (ih hfirst (by simp [hne, hn]))
      · rw [hp]
        exact List.mem_cons_of_mem _ (ih hfirst hn)

end Pairing

/-- The live node that a declaration takes over: that of its label key, if it is the first
declaration with the key. -/
def predecessor (decls : List NodeDecl) (nodes : List Node) (d : NodeDecl) : Option Node :=
  if decls.find? (sameKey d) = some d then bearer nodes (Label.matchKey d.label) else none

theorem predecessor_eq_some_iff {decls : List NodeDecl} {nodes : List Node} {d : NodeDecl}
    {n : Node} :
    predecessor decls nodes d = some n ↔
      decls.find? (sameKey d) = some d ∧ bearer nodes (Label.matchKey d.label) = some n := by
  by_cases h : decls.find? (sameKey d) = some d <;> simp [predecessor, h]

theorem mem_pair_iff {decls : List NodeDecl} {nodes : List Node}
    (hids : (nodes.map (·.id)).Nodup) {d : NodeDecl} {n : Node} :
    (d, some n) ∈ pair (labelIndex nodes) [] decls ↔ predecessor decls nodes d = some n := by
  rw [predecessor_eq_some_iff]
  constructor
  · intro h
    exact ⟨find?_sameKey_of_mem_pair h, lookup_labelIndex nodes _ ▸ lookup_of_mem_pair h⟩
  · rintro ⟨hfirst, hbearer⟩
    refine mem_pair_of_find?_sameKey ?_ hfirst (by rw [lookup_labelIndex, hbearer]) (by simp)
    intro key other m m' hm hm' hid
    rw [lookup_labelIndex] at hm hm'
    exact key_eq_of_bearer_id_eq hids hm hm' hid

theorem pair_eq_map {decls : List NodeDecl} (hdecls : decls.Nodup) {nodes : List Node}
    (hids : (nodes.map (·.id)).Nodup) :
    pair (labelIndex nodes) [] decls = decls.map fun d => (d, predecessor decls nodes d) := by
  let pairs := pair (labelIndex nodes) [] decls
  have hfst : pairs.map (·.1) = decls := map_fst_pair _ _ _
  have hsnd : ∀ p ∈ pairs, p = (p.1, predecessor decls nodes p.1) := by
    rintro ⟨d, o⟩ hp
    cases o with
    | some n => rw [(mem_pair_iff hids).1 hp]
    | none =>
      cases hpre : predecessor decls nodes d with
      | none => rfl
      | some n =>
        -- A declaration occurs in one pair only, so it cannot stand there without its node.
        have hmem := (mem_pair_iff hids).2 hpre
        have heq := List.inj_on_of_nodup_map (hfst ▸ hdecls) hp hmem rfl
        cases heq
  calc
    pairs = pairs.map fun p => (p.1, predecessor decls nodes p.1) := by
      conv_lhs => rw [← List.map_id pairs]
      exact List.map_congr_left hsnd
    _ = (pairs.map (·.1)).map fun d => (d, predecessor decls nodes d) := by
      rw [List.map_map]
      rfl
    _ = decls.map fun d => (d, predecessor decls nodes d) := by rw [hfst]

end FlowCanvas.Identity
