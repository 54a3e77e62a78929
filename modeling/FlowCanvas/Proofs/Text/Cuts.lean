import Mathlib.Data.List.TakeWhile
import FlowCanvas.Text.Pieces

namespace FlowCanvas.Text

variable {p : Char → Bool} {a b cs : List Char} {s : Char}

theorem cutAt?_append_cons (hb : ∀ c ∈ b, p c = false) (hs : p s = true) (a : List Char) :
    cutAt? p (b ++ s :: a) = some (b, a) := by
  induction b with
  | nil => simp [cutAt?, hs]
  | cons c b ih =>
    have hc : p c = false := hb c List.mem_cons_self
    have hrest := ih fun d hd => hb d (List.mem_cons_of_mem _ hd)
    simp [cutAt?, hc, hrest]

theorem takeWhile_of_cutAt? (h : cutAt? p cs = some (b, a)) : cs.takeWhile (!p ·) = b := by
  induction cs generalizing b with
  | nil => cases h
  | cons c r ih =>
    rw [cutAt?] at h
    split at h
    · next hc =>
      cases h
      simp [hc]
    · next hc =>
      obtain ⟨⟨b', a'⟩, hr, heq⟩ := Option.map_eq_some_iff.1 h
      cases heq
      simp [hc, ih hr]

theorem eq_false_of_cutAt? (h : cutAt? p cs = some (b, a)) : ∀ c ∈ b, p c = false := by
  intro c hc
  rw [← takeWhile_of_cutAt? h] at hc
  simpa using List.mem_takeWhile_imp hc

theorem takeWhile_ne_of_not_mem {c : Char} (h : c ∉ cs) :
    cs.takeWhile (· ≠ c) = cs := by
  apply List.takeWhile_eq_self_iff.2
  intro d hd
  have hne : d ≠ c := by
    rintro rfl
    exact h hd
  simpa using hne

theorem cutAtLast?_eq_none (h : ∀ c ∈ cs, p c = false) : cutAtLast? p cs = none := by
  induction cs with
  | nil => rfl
  | cons c r ih =>
    have hrest := ih fun d hd => h d (List.mem_cons_of_mem _ hd)
    simp [cutAtLast?, hrest, h c List.mem_cons_self]

theorem cutAtLast?_append_cons (ha : ∀ c ∈ a, p c = false) (hs : p s = true) (b : List Char) :
    cutAtLast? p (b ++ s :: a) = some (b, a) := by
  induction b with
  | nil => simp [cutAtLast?, cutAtLast?_eq_none ha, hs]
  | cons c b ih => simp [cutAtLast?, ih]

theorem eq_append_of_cutAtLast? (h : cutAtLast? p cs = some (b, a)) :
    ∃ s, p s = true ∧ cs = b ++ s :: a := by
  induction cs generalizing b with
  | nil => cases h
  | cons c r ih =>
    rw [cutAtLast?] at h
    split at h
    · next b' a' hr =>
      cases h
      obtain ⟨s, hs, rfl⟩ := ih hr
      exact ⟨s, hs, rfl⟩
    · split at h
      · next hc =>
        cases h
        exact ⟨c, hc, rfl⟩
      · cases h

end FlowCanvas.Text
