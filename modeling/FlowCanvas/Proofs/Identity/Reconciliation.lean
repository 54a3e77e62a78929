import Mathlib.Data.List.Forall2
import FlowCanvas.Proofs.Identity.Assignment

namespace FlowCanvas.Identity

/-- A declaration takes over a live node: they are the first declaration and the first live node
with one label key, which is not blank. -/
structure TakesOver (document : Document) (live : Snapshot) (d : NodeDecl) (n : Node) : Prop where
  named : Label.matchKey d.label ≠ ""
  first : document.nodes.find? (sameKey d) = some d
  bearer : live.nodes.find? (Label.matchKey ·.label = Label.matchKey d.label) = some n

theorem takesOver_iff {document : Document} {live : Snapshot} {d : NodeDecl} {n : Node} :
    TakesOver document live d n ↔ predecessor document.nodes live.nodes d = some n := by
  rw [predecessor_eq_some_iff, bearer_eq_some_iff]
  exact ⟨fun h => ⟨h.first, h.named, h.bearer⟩, fun h => ⟨h.2.1, h.1, h.2.2⟩⟩

variable {document : Document} {edges : List EdgeDecl} {live : Snapshot} {keepPositions : Bool}
  {a : Assignment}

/-- With distinct ids an assignment has the live node that its declaration takes over. -/
theorem live_eq_predecessor (hdecls : document.ids.Nodup)
    (hlive : (live.nodes.map (·.id)).Nodup)
    (ha : a ∈ (reconcile document edges live keepPositions).assignments) :
    a.live = predecessor document.nodes live.nodes a.decl := by
  have hmem : (a.decl, a.live) ∈ pairs document live :=
    (mem_pairs_iff document edges live keepPositions).2 ⟨a, ha, rfl, rfl⟩
  rw [pairs, pair_eq_map hdecls.of_map hlive] at hmem
  obtain ⟨d, -, heq⟩ := List.mem_map.1 hmem
  obtain ⟨rfl, hpre⟩ := Prod.mk.inj heq
  exact hpre.symm

theorem takesOver_iff_live (hdecls : document.ids.Nodup) (hlive : (live.nodes.map (·.id)).Nodup)
    (ha : a ∈ (reconcile document edges live keepPositions).assignments) {n : Node} :
    TakesOver document live a.decl n ↔ a.live = some n := by
  rw [takesOver_iff, live_eq_predecessor hdecls hlive ha]

theorem id_mem_takenIds (hlive : (live.nodes.map (·.id)).Nodup) {d : NodeDecl} {n : Node}
    (h : TakesOver document live d n) : n.id ∈ takenIds (pairs document live) :=
  mem_takenIds.2 ⟨d, n, (mem_pair_iff hlive).2 (takesOver_iff.1 h), rfl⟩

theorem id_mem_reused_iff (ha : a ∈ (reconcile document edges live keepPositions).assignments) :
    a.id ∈ (reconcile document edges live keepPositions).reused ↔ a.live.isSome := by
  simp only [Reconciliation.reused, List.mem_map, List.mem_filter]
  constructor
  · rintro ⟨b, ⟨hb, hsome⟩, hid⟩
    rwa [← List.inj_on_of_nodup_map (nodup_ids_reconcile _ _ _ _) hb ha hid]
  · intro hsome
    exact ⟨a, ⟨ha, hsome⟩, rfl⟩

theorem reused_append_created_perm (r : Reconciliation) :
    (r.reused ++ r.created).Perm (r.assignments.map (·.id)) := by
  have hnone : (fun a : Assignment => a.live.isNone) = fun a => !a.live.isSome := by
    funext a
    cases a.live <;> rfl
  rw [Reconciliation.reused, Reconciliation.created, ← List.map_append, hnone]
  exact (List.filter_append_perm _ _).map _

/-- Every declared id, and nothing else, becomes an id of its own. A declaration takes over the id
and the style of a live node, and its position if positions are kept, exactly if it is the first
with its label key and the node bears the key; all other declarations keep their declared id or get
it numbered, and never the id of a node that is taken over. -/
theorem reconcile_gives_identities (document : Document) (edges : List EdgeDecl) (live : Snapshot)
    (keepPositions : Bool) (hdecls : document.ids.Nodup)
    (hlive : (live.nodes.map (·.id)).Nodup) :
    let r := reconcile document edges live keepPositions
    r.identity.map (·.1) = document.ids ∧
    (r.identity.map (·.2)).Nodup ∧
    List.Forall₂ (fun d n =>
      (d.id, n.id) ∈ r.identity ∧
      (n.id ∈ r.reused ↔ ∃ m, TakesOver document live d m) ∧
      (∀ m, TakesOver document live d m →
        n.id = m.id ∧ n.style = m.style ∧
          n.position = if keepPositions then m.position else none) ∧
      ((¬∃ m, TakesOver document live d m) →
        (n.id = d.id ∨ ∃ k : Nat, 1 ≤ k ∧ n.id = d.id ++ "_" ++ toString k) ∧
        (∀ e m, TakesOver document live e m → n.id ≠ m.id) ∧
        n.style = [] ∧ n.position = none)) document.nodes r.nodes ∧
    (r.reused ++ r.created).Perm (r.nodes.map (·.id)) ∧
    (r.reused ++ r.created).Nodup := by
  intro r
  have hnodup : (r.assignments.map (·.id)).Nodup := nodup_ids_reconcile _ _ _ _
  have hperm := reused_append_created_perm r
  have hids : r.nodes.map (·.id) = r.assignments.map (·.id) := by
    rw [reconcile_nodes, List.map_map]
    rfl
  refine ⟨?_, ?_, ?_, hids ▸ hperm, hperm.nodup_iff.2 hnodup⟩
  · rw [Reconciliation.identity, List.map_map, Document.ids,
      ← map_decl_reconcile document edges live keepPositions, List.map_map]
    rfl
  · rw [Reconciliation.identity, List.map_map]
    exact hnodup
  · rw [← map_decl_reconcile document edges live keepPositions, reconcile_nodes,
      List.forall₂_map_left_iff, List.forall₂_map_right_iff, List.forall₂_same]
    intro a ha
    have htakes {m : Node} := takesOver_iff_live (n := m) hdecls hlive ha
    refine ⟨List.mem_map_of_mem ha, ?_, ?_, ?_⟩
    · simp only [htakes]
      exact (id_mem_reused_iff ha).trans Option.isSome_iff_exists
    · intro m hm
      have hsome := htakes.1 hm
      exact ⟨id_of_live ha hsome, by simp [Assignment.node, hsome],
        by simp [Assignment.node, hsome]⟩
    · intro hnot
      have hnone : a.live = none := by
        by_contra hsome
        obtain ⟨m, hm⟩ := Option.ne_none_iff_exists'.1 hsome
        exact hnot ⟨m, htakes.2 hm⟩
      -- A minted id was free when all nodes that are taken over had been spoken for.
      obtain ⟨hfree, hid⟩ := id_of_minted ha hnone
      refine ⟨hid, ?_, by simp [Assignment.node, hnone], by simp [Assignment.node, hnone]⟩
      intro e m hm heq
      have htaken : a.id ∈ takenIds (pairs document live) := by
        rw [show a.id = m.id from heq]
        exact id_mem_takenIds hlive hm
      exact hfree htaken

/-- A declared id that a live node bears under another label: the later declaration takes the node
over, so the earlier one gets a number. -/
def crossed : Document where
  direction := .down
  title := none
  nodes := [
    { id := "n7", label := "Other", kind := .process, subLabel := none, word := "process",
      explicitId := true, line := 1 },
    { id := "login", label := "LOGIN", kind := .process, subLabel := none, word := "process",
      explicitId := true, line := 2 }]
  edges := []

def crossedCanvas : Snapshot where
  nodes := [
    { id := "n7", kind := .text "process", label := "Login", subLabel := .null, position := none,
      style := [] }]
  edges := []

theorem reconcile_crossed :
    crossed.ids.Nodup ∧ (crossedCanvas.nodes.map (·.id)).Nodup ∧
      ((reconcile crossed [] crossedCanvas false).identity.map (·.2)).Nodup ∧
      (reconcile crossed [] crossedCanvas false).identity = [("n7", "n7_1"), ("login", "n7")] := by
  have h := reconcile_gives_identities crossed [] crossedCanvas false (by decide) (by decide)
  exact ⟨by decide, by decide, h.2.1, by decide +kernel⟩

end FlowCanvas.Identity
