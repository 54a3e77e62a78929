namespace FlowCanvas

/-- What is left of a list after something has been read from its front. It is shorter, which is
what makes repeated reading end. -/
abbrev Rest {α : Type} (l : List α) := { r : List α // r.length < l.length }

namespace Text

/-- The stretches between the characters that satisfy `p`, empty ones kept. -/
def pieces (p : Char → Bool) : List Char → List (List Char)
  | [] => [[]]
  | c :: r =>
    if p c then [] :: pieces p r
    else match pieces p r with
      | [] => [[c]]
      | w :: ws => (c :: w) :: ws

def cutAt? (p : Char → Bool) : List Char → Option (List Char × List Char)
  | [] => none
  | c :: r => if p c then some ([], r) else (cutAt? p r).map fun (b, a) => (c :: b, a)

def cutAtLast? (p : Char → Bool) : List Char → Option (List Char × List Char)
  | [] => none
  | c :: r =>
    match cutAtLast? p r with
    | some (b, a) => some (c :: b, a)
    | none => if p c then some ([], r) else none

def occurs (part : List Char) : List Char → Bool
  | [] => part.isEmpty
  | c :: r => part.isPrefixOf (c :: r) || occurs part r

@[simp] theorem pieces_ne_nil (p : Char → Bool) (cs : List Char) : pieces p cs ≠ [] := by
  cases cs with
  | nil => simp [pieces]
  | cons c r => unfold pieces; split <;> (try split) <;> simp

theorem pieces_of_none {p : Char → Bool} {cs : List Char} (h : ∀ c ∈ cs, p c = false) :
    pieces p cs = [cs] := by
  induction cs with
  | nil => rfl
  | cons c r ih => simp [pieces, h c, ih fun d hd => h d (List.mem_cons_of_mem _ hd)]

theorem eq_append_of_cutAt? {p : Char → Bool} {cs b a : List Char} (h : cutAt? p cs = some (b, a)) :
    ∃ c, p c = true ∧ cs = b ++ c :: a := by
  induction cs generalizing b with
  | nil => simp [cutAt?] at h
  | cons d r ih =>
    simp only [cutAt?] at h
    split at h
    · next hp => simp at h; exact ⟨d, hp, by simp [← h.1, ← h.2]⟩
    · obtain ⟨⟨b', a'⟩, hb, he⟩ := Option.map_eq_some_iff.1 h
      simp at he
      obtain ⟨c, hc, hr⟩ := ih (he.2 ▸ hb)
      exact ⟨c, hc, by simp [← he.1, hr]⟩

theorem cutAt?_eq_none_iff {p : Char → Bool} {cs : List Char} :
    cutAt? p cs = none ↔ ∀ c ∈ cs, p c = false := by
  induction cs with
  | nil => simp [cutAt?]
  | cons d r ih => by_cases hp : p d <;> simp [cutAt?, hp, ih]

end Text
end FlowCanvas
