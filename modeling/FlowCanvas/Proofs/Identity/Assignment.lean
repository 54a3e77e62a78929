import FlowCanvas.Proofs.Identity.Matching
import FlowCanvas.Proofs.Identity.Minting

namespace FlowCanvas.Identity

section Assigning
variable {claimed : List String} {counters : Counters} {pairs : List (NodeDecl × Option Node)}
  {a : Assignment}

/-- One step of assigning: the head gets the id of its live node or a new one, which is spoken for
from then on. -/
theorem assign_cons (claimed : List String) (counters : Counters) (d : NodeDecl)
    (live : Option Node) (r : List (NodeDecl × Option Node)) :
    ∃ id rest,
      assign claimed counters ((d, live) :: r) =
        ⟨d, live, id⟩ :: assign (id :: claimed) rest r ∧
      ((∃ n, live = some n ∧ id = n.id ∧ rest = counters) ∨
        (live = none ∧ mint d.id claimed counters = (id, rest))) := by
  cases live with
  | some n => exact ⟨n.id, counters, rfl, .inl ⟨n, rfl, rfl, rfl⟩⟩
  | none => exact ⟨_, _, rfl, .inr ⟨rfl, rfl⟩⟩

/-- Assigning keeps the declarations, their order and their live nodes. -/
theorem map_pair_assign (claimed : List String) (counters : Counters)
    (pairs : List (NodeDecl × Option Node)) :
    (assign claimed counters pairs).map (fun a => (a.decl, a.live)) = pairs := by
  induction pairs generalizing claimed counters with
  | nil => rfl
  | cons p r ih =>
    obtain ⟨d, live⟩ := p
    cases live <;> simp [assign, ih]

/-- A declaration that takes a live node over gets its id. -/
theorem id_of_live {n : Node} (ha : a ∈ assign claimed counters pairs) (hn : a.live = some n) :
    a.id = n.id := by
  induction pairs generalizing claimed counters with
  | nil => simp [assign] at ha
  | cons p r ih =>
    obtain ⟨id, rest, hassign, hid⟩ := assign_cons claimed counters p.1 p.2 r
    rw [hassign] at ha
    rcases List.mem_cons.1 ha with rfl | ha
    · obtain ⟨m, hm, rfl, -⟩ | ⟨hnone, -⟩ := hid
      · exact congrArg Node.id (Option.some.inj (hm.symm.trans hn))
      · exact absurd (hnone.symm.trans hn) (by simp)
    · exact ih ha

/-- A declaration that takes no live node over gets an id that was free, its own or a numbered
one. -/
theorem id_of_minted (ha : a ∈ assign claimed counters pairs) (hn : a.live = none) :
    a.id ∉ claimed ∧ (a.id = a.decl.id ∨ ∃ k, 1 ≤ k ∧ a.id = numbered a.decl.id k) := by
  induction pairs generalizing claimed counters with
  | nil => simp [assign] at ha
  | cons p r ih =>
    obtain ⟨id, rest, hassign, hid⟩ := assign_cons claimed counters p.1 p.2 r
    rw [hassign] at ha
    rcases List.mem_cons.1 ha with rfl | ha
    · obtain ⟨m, hm, -⟩ | ⟨-, hmint⟩ := hid
      · exact absurd (hm.symm.trans hn) (by simp)
      · have hfree := mint_not_mem p.1.id claimed counters
        have hform := mint_eq_or_numbered p.1.id claimed counters
        rw [hmint] at hfree hform
        exact ⟨hfree, hform⟩
    · obtain ⟨hfree, hform⟩ := ih ha
      exact ⟨fun h => hfree (List.mem_cons_of_mem _ h), hform⟩

theorem id_mem_takenIds_or_free (ha : a ∈ assign claimed counters pairs) :
    a.id ∈ takenIds pairs ∨ a.id ∉ claimed := by
  cases hn : a.live with
  | none => exact .inr (id_of_minted ha hn).1
  | some n =>
    have hmem : (a.decl, a.live) ∈ pairs := by
      rw [← map_pair_assign claimed counters pairs]
      exact List.mem_map_of_mem ha
    rw [hn] at hmem
    exact .inl (mem_takenIds.2 ⟨a.decl, n, hmem, (id_of_live ha hn).symm⟩)

theorem nodup_ids_assign (hnodup : (takenIds pairs).Nodup) (hclaimed : takenIds pairs ⊆ claimed) :
    ((assign claimed counters pairs).map (·.id)).Nodup := by
  induction pairs generalizing claimed counters with
  | nil => simp [assign]
  | cons p r ih =>
    obtain ⟨d, live⟩ := p
    obtain ⟨id, rest, hassign, hid⟩ := assign_cons claimed counters d live r
    have hr : takenIds r ⊆ id :: claimed := by
      intro other hother
      apply List.mem_cons_of_mem _
      apply hclaimed
      cases live <;> simp_all [takenIds]
    -- What the head gets is no id that is taken over later on.
    have hnew : id ∉ takenIds r := by
      obtain ⟨n, rfl, rfl, -⟩ | ⟨rfl, hmint⟩ := hid
      · exact (List.nodup_cons.1 hnodup).1
      · intro hmem
        have hfree := mint_not_mem d.id claimed counters
        rw [hmint] at hfree
        exact hfree (hclaimed hmem)
    have hnodupRest : (takenIds r).Nodup := by
      cases live with
      | some n => exact (List.nodup_cons.1 hnodup).2
      | none => exact hnodup
    rw [hassign, List.map_cons, List.nodup_cons]
    refine ⟨?_, ih hnodupRest hr⟩
    intro h
    obtain ⟨a, ha, rfl⟩ := List.mem_map.1 h
    rcases id_mem_takenIds_or_free ha with hmem | hfree
    · exact hnew hmem
    · exact hfree List.mem_cons_self

end Assigning

section Reconciling
variable (document : Document) (edges : List EdgeDecl) (live : Snapshot) (keepPositions : Bool)

abbrev pairs : List (NodeDecl × Option Node) :=
  pair (labelIndex live.nodes) [] document.nodes

theorem reconcile_assignments :
    (reconcile document edges live keepPositions).assignments =
      assign (takenIds (pairs document live)) [] (pairs document live) := rfl

@[simp] theorem reconcile_nodes :
    (reconcile document edges live keepPositions).nodes =
      (reconcile document edges live keepPositions).assignments.map (·.node keepPositions) := rfl

@[simp] theorem reconcile_links :
    (reconcile document edges live keepPositions).links =
      linkFrom (reconcile document edges live keepPositions).assignments 0 edges := rfl

theorem map_pair_reconcile :
    (reconcile document edges live keepPositions).assignments.map (fun a => (a.decl, a.live)) =
      pairs document live :=
  map_pair_assign _ _ _

theorem mem_pairs_iff {d : NodeDecl} {o : Option Node} :
    (d, o) ∈ pairs document live ↔
      ∃ a ∈ (reconcile document edges live keepPositions).assignments, a.decl = d ∧ a.live = o := by
  rw [← map_pair_reconcile document edges live keepPositions]
  simp only [List.mem_map, Prod.mk.injEq]

@[simp] theorem map_decl_reconcile :
    (reconcile document edges live keepPositions).assignments.map (·.decl) = document.nodes := by
  have h := congrArg (List.map (·.1)) (map_pair_reconcile document edges live keepPositions)
  rw [map_fst_pair, List.map_map] at h
  exact h

theorem nodup_ids_reconcile :
    ((reconcile document edges live keepPositions).assignments.map (·.id)).Nodup := by
  rw [reconcile_assignments]
  exact nodup_ids_assign (nodup_takenIds _ _ _).1 (List.Subset.refl _)

end Reconciling

theorem canvasId_of_mem {assignments : List Assignment}
    (hids : (assignments.map (·.decl.id)).Nodup) {a : Assignment} (ha : a ∈ assignments) :
    canvasId assignments a.decl.id = a.id := by
  cases hf : assignments.find? (·.decl.id = a.decl.id) with
  | none => simpa using List.find?_eq_none.1 hf a ha
  | some b =>
    have hb : b.decl.id = a.decl.id := by simpa using List.find?_some hf
    have hba := List.inj_on_of_nodup_map hids (List.mem_of_find?_eq_some hf) ha hb
    simp [canvasId, hf, hba]

theorem nodup_decl_ids {document : Document} (edges : List EdgeDecl) (live : Snapshot)
    (keepPositions : Bool) (hdecls : document.ids.Nodup) :
    ((reconcile document edges live keepPositions).assignments.map (·.decl.id)).Nodup := by
  rw [Document.ids, ← map_decl_reconcile document edges live keepPositions, List.map_map] at hdecls
  exact hdecls

/-- The identities are those of the reconciled nodes, declaration by declaration. -/
theorem identity_eq_zip (document : Document) (edges : List EdgeDecl) (live : Snapshot)
    (keepPositions : Bool) :
    (reconcile document edges live keepPositions).identity =
      document.ids.zip ((reconcile document edges live keepPositions).nodes.map (·.id)) := by
  rw [Document.ids, ← map_decl_reconcile document edges live keepPositions, reconcile_nodes,
    List.map_map, List.map_map, List.zip_map']
  rfl

theorem canvasId_mem_identity {document : Document} (edges : List EdgeDecl) (live : Snapshot)
    (keepPositions : Bool) (hdecls : document.ids.Nodup) {id : String} (hid : id ∈ document.ids) :
    (id, canvasId (reconcile document edges live keepPositions).assignments id) ∈
      (reconcile document edges live keepPositions).identity := by
  rw [Document.ids, ← map_decl_reconcile document edges live keepPositions, List.map_map] at hid
  obtain ⟨a, ha, rfl⟩ := List.mem_map.1 hid
  have hcanvas := canvasId_of_mem (nodup_decl_ids edges live keepPositions hdecls) ha
  exact List.mem_map.2 ⟨a, ha, Prod.ext rfl hcanvas.symm⟩

end FlowCanvas.Identity
