import Mathlib.Data.List.Induction
import FlowCanvas.Proofs.Canvas.Store

namespace FlowCanvas

/-- Every edge joins nodes of the diagram and every node has a position. -/
def Snapshot.IsWhole (d : Snapshot) : Prop :=
  (∀ e ∈ d.edges, e.source ∈ d.nodes.map (·.id) ∧ e.target ∈ d.nodes.map (·.id)) ∧
    ∀ n ∈ d.nodes, n.position.isSome

instance (d : Snapshot) : Decidable d.IsWhole :=
  inferInstanceAs (Decidable (_ ∧ _))

theorem Snapshot.isWhole_empty : Snapshot.empty.IsWhole := by
  simp [Snapshot.IsWhole, Snapshot.empty]

/-- What a rejection complains about: the first edge that leaves the diagram or else, if no edge
does, the first node without a position. -/
inductive Store.Rejection.Blames (d : Snapshot) : Rejection → Prop
  | edge {before after : List Edge} {e : Edge} (h : d.edges = before ++ e :: after)
      (joined : ∀ f ∈ before, joins d.nodes f = true) (outside : joins d.nodes e = false) :
      Blames d (.outsideEdge e.id)
  | node {before after : List Node} {n : Node} (joined : ∀ e ∈ d.edges, joins d.nodes e = true)
      (h : d.nodes = before ++ n :: after) (placed : ∀ m ∈ before, m.position.isSome)
      (unplaced : n.position = none) : Blames d (.unplacedNode n.id)

namespace Store

def offer (s : Store) (d : Snapshot) : Store × Option Rejection :=
  match s.commit d.nodes d.edges with
  | .ok s' => (s', none)
  | .error r => (s, some r)

def offerAll (s : Store) (ds : List Snapshot) : Store :=
  ds.foldl (fun s d => (s.offer d).1) s

section Offer
variable {s : Store} {d : Snapshot}

theorem isWhole_iff :
    d.IsWhole ↔ (∀ e ∈ d.edges, joins d.nodes e = true) ∧ ∀ n ∈ d.nodes, n.position.isSome := by
  simp only [Snapshot.IsWhole, joins_iff]

theorem offer_of_isWhole (hlock : s.lock = none) (h : d.IsWhole) :
    s.offer d = (⟨d.nodes, d.edges, s.commits + 1, none⟩, none) := by
  have hcommit := commit_eq_ok_iff.2 ⟨⟨hlock, isWhole_iff.1 h⟩, rfl⟩
  rw [offer, hcommit, ← hlock]

theorem blames_of_rejection? {r : Rejection} (hlock : s.lock = none)
    (h : s.rejection? d.nodes d.edges = some r) : r.Blames d := by
  unfold rejection? at h
  rw [hlock] at h
  cases hedge : d.edges.find? (!joins d.nodes ·) with
  | some e =>
    simp only [hedge, Option.some.injEq] at h
    obtain ⟨houtside, before, after, hsplit, hbefore⟩ := List.find?_eq_some_iff_append.1 hedge
    subst h
    exact .edge hsplit (by simpa using hbefore) (by simpa using houtside)
  | none =>
    have hjoined : ∀ e ∈ d.edges, joins d.nodes e = true := by simpa using hedge
    cases hnode : d.nodes.find? (·.position.isNone) with
    | none => simp [hedge, hnode] at h
    | some n =>
      simp only [hedge, hnode, Option.some.injEq] at h
      obtain ⟨hunplaced, before, after, hsplit, hbefore⟩ := List.find?_eq_some_iff_append.1 hnode
      subst h
      exact .node hjoined hsplit (by simpa [Option.isSome_iff_ne_none] using hbefore)
        (by simpa using hunplaced)

theorem offer_of_not_isWhole (hlock : s.lock = none) (h : ¬ d.IsWhole) :
    ∃ r, r.Blames d ∧ s.offer d = (s, some r) := by
  cases hrejection : s.rejection? d.nodes d.edges with
  | none => exact absurd (isWhole_iff.2 (rejection?_eq_none_iff.1 hrejection).2) h
  | some r =>
    refine ⟨r, blames_of_rejection? hlock hrejection, ?_⟩
    rw [offer, commit, hrejection]

end Offer

/-- The canvas after some offers: it holds the last diagram among them that is whole, and has
counted those that are. -/
def after (ds : List Snapshot) : Store where
  nodes := ((ds.filter (·.IsWhole)).getLastD .empty).nodes
  edges := ((ds.filter (·.IsWhole)).getLastD .empty).edges
  commits := ds.countP (·.IsWhole)
  lock := none

theorem offer_after (ds : List Snapshot) (d : Snapshot) :
    ((after ds).offer d).1 = after (ds ++ [d]) := by
  by_cases h : d.IsWhole
  · rw [offer_of_isWhole rfl h]
    simp [after, h]
  · obtain ⟨r, -, hoffer⟩ := offer_of_not_isWhole (s := after ds) rfl h
    rw [hoffer]
    simp [after, h]

theorem offerAll_empty (ds : List Snapshot) : Store.empty.offerAll ds = after ds := by
  induction ds using List.reverseRecOn with
  | nil => rfl
  | append_singleton ds d ih =>
    have hlast : Store.empty.offerAll (ds ++ [d]) = ((Store.empty.offerAll ds).offer d).1 := by
      simp [offerAll]
    rw [hlast, ih, offer_after]

theorem isWhole_snapshot_after (ds : List Snapshot) : (after ds).snapshot.IsWhole := by
  have hmem : (ds.filter (·.IsWhole)).getLastD .empty = .empty ∨
      (ds.filter (·.IsWhole)).getLastD .empty ∈ ds.filter (·.IsWhole) := by
    cases hlast : (ds.filter (·.IsWhole)).getLast? with
    | none => exact .inl (by rw [List.getLastD_eq_getLast?, hlast]; rfl)
    | some d =>
      right
      rw [List.getLastD_eq_getLast?, hlast]
      exact List.mem_of_getLast? hlast
  show ((ds.filter (·.IsWhole)).getLastD .empty).IsWhole
  rcases hmem with hempty | hmem
  · rw [hempty]
    exact Snapshot.isWhole_empty
  · simpa using (List.mem_filter.1 hmem).2

/-- Whatever has been offered to an empty canvas, it is whole; it holds the last whole diagram among
the offers and has counted them. The next offer is accepted just if it is whole. An accepted one
becomes the content and adds one to the count. A rejected one is blamed for what is wrong with it
and changes nothing. -/
theorem canvas_stays_whole (ds : List Snapshot) (d : Snapshot) :
    let s := Store.empty.offerAll ds
    s.snapshot.IsWhole ∧
    s.snapshot = (ds.filter (·.IsWhole)).getLastD .empty ∧ s.commits = ds.countP (·.IsWhole) ∧
    ((s.offer d).2 = none ↔ d.IsWhole) ∧
    ((s.offer d).2 = none → (s.offer d).1.snapshot = d ∧ (s.offer d).1.commits = s.commits + 1) ∧
    ∀ r, (s.offer d).2 = some r → r.Blames d ∧ (s.offer d).1 = s := by
  intro s
  have hs : s = after ds := offerAll_empty ds
  have hlock : s.lock = none := by rw [hs]; rfl
  refine ⟨by rw [hs]; exact isWhole_snapshot_after ds, by rw [hs]; rfl, by rw [hs]; rfl, ?_⟩
  by_cases h : d.IsWhole
  · rw [offer_of_isWhole hlock h]
    exact ⟨by simp [h], fun _ => ⟨rfl, rfl⟩, by simp⟩
  · obtain ⟨r, hblames, hoffer⟩ := offer_of_not_isWhole hlock h
    rw [hoffer]
    refine ⟨by simp [h], by simp, fun r' hr' => ?_⟩
    obtain rfl := Option.some.inj hr'
    exact ⟨hblames, rfl⟩

end Store
end FlowCanvas
