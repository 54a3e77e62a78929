import Mathlib.Data.List.Basic
import FlowCanvas.Diagram.Reference

namespace FlowCanvas.Document

variable (document : Document)

def isSound (e : EdgeDecl) : Bool :=
  document.ids.contains e.source && document.ids.contains e.target

variable {document} in
theorem isSound_iff {e : EdgeDecl} :
    document.isSound e = true ↔ e.source ∈ document.ids ∧ e.target ∈ document.ids := by
  simp [isSound]

theorem missing_eq_nil_iff (e : EdgeDecl) :
    document.missing e = [] ↔ document.isSound e = true := by
  rw [isSound_iff]
  by_cases hs : e.source ∈ document.ids <;> by_cases ht : e.target ∈ document.ids <;>
    simp [missing, hs, ht, List.eraseDups_cons]

theorem soundEdges_eq : document.soundEdges = document.edges.filter document.isSound := by
  apply List.filter_congr
  intro e _
  simp [missing_eq_nil_iff]

theorem dangling_eq :
    document.dangling = (document.edges.filter (!document.isSound ·)).map fun e =>
      ⟨e.source, e.target, document.missing e, e.line⟩ := by
  rw [dangling]
  congr 1
  apply List.filter_congr
  intro e _
  simp [missing_eq_nil_iff]

theorem length_soundEdges_add_length_dangling :
    document.soundEdges.length + document.dangling.length = document.edges.length := by
  rw [soundEdges_eq, dangling_eq, List.length_map]
  exact (List.length_eq_length_filter_add document.isSound).symm

end FlowCanvas.Document
