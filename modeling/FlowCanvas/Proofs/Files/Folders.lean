import FlowCanvas.Proofs.Files
import FlowCanvas.Proofs.Text.Lines

namespace FlowCanvas

structure Place.IsName (n : String) : Prop where
  no_slash : '/' ∉ n.toList
  ne_empty : n ≠ ""
  ne_dot : n ≠ "."
  ne_dots : n ≠ ".."

theorem Place.IsName.enter {n : String} (h : IsName n) (place : Place) :
    place.enter n = place ++ [n] := by
  simp [Place.enter, h.ne_empty, h.ne_dot, h.ne_dots]

section Paths
variable {p : Path} {n : String}

end Paths

namespace Files
variable {fs : Files} {folder : Place} {p : Path} {n path : String}

section Locating

end Locating

section Writing

end Writing

section Agreeing
variable {fs fs' : Files} {place : Place}

end Agreeing

section Making
variable {ready : Files}

theorem makeOne_eq_ok (h : fs.makeOne p = .ok ready) :
    ∃ place, fs.locate p.text = .ok place ∧ ready = { fs with made := fs.made ++ [place] } := by
  obtain ⟨place, hlocate, hrest⟩ := bind_eq_ok_iff.1 h
  refine ⟨place, hlocate, ?_⟩
  split at hrest
  · cases hrest
  · exact (Except.ok.inj hrest).symm

theorem makeIfMissing_eq_ok (h : fs.makeIfMissing p = .ok ready) :
    ∃ place, fs.locate p.text = .ok place ∧
      (ready = { fs with made := fs.made ++ [place] } ∨ fs.isFolder place = true ∧ ready = fs) := by
  unfold makeIfMissing at h
  split at h
  · next made hmade =>
    obtain ⟨place, hlocate, rfl⟩ := makeOne_eq_ok hmade
    exact ⟨place, hlocate, .inl (Except.ok.inj h).symm⟩
  · next fault _ =>
    obtain ⟨found, hlook, hrest⟩ := bind_eq_ok_iff.1 h
    split at hrest
    · next hfolder =>
      obtain rfl := Except.ok.inj hrest
      unfold look at hlook
      split at hlook
      · next place hlocate =>
        rw [← Except.ok.inj hlook, Files.standing] at hfolder
        refine ⟨place, hlocate, .inr ⟨?_, rfl⟩⟩
        by_contra hnot
        rw [if_neg hnot] at hfolder
        split at hfolder <;> cases hfolder
      · cases hlook
      · cases Except.ok.inj hlook
        cases hfolder
    · cases hrest

theorem makeFolder_eq_ok (h : fs.makeFolder p = .ok ready) :
    ∃ before, before.makeIfMissing p = .ok ready ∧
      (before = fs ∨ p.parent.length < p.length ∧ fs.makeFolder p.parent = .ok before) := by
  rw [makeFolder] at h
  split at h <;> split at h
  · next hmissing =>
    obtain ⟨before, hbefore, hlast⟩ := bind_eq_ok_iff.1 h
    exact ⟨before, hlast, .inr ⟨hmissing.2, hbefore⟩⟩
  · exact ⟨fs, h, .inl rfl⟩
  · next hmissing => exact absurd hmissing.1 Bool.false_ne_true
  · exact ⟨fs, h, .inl rfl⟩

/-- No name of a file or a folder holds a slash, apart from the slash that absolute places start
with. -/
def IsPlain (fs : Files) : Prop :=
  ∀ place ∈ fs.contents.map (·.1) ++ fs.made, ∀ n ∈ place, '/' ∈ n.toList → n = "/"

theorem mem_of_mem_enter {place : Place} {m : String} (h : n ∈ place.enter m) :
    n ∈ place ∨ n = ".." ∨ n = m := by
  unfold Place.enter Place.up at h
  split_ifs at h with hstay hup hdots hroot
  · exact .inl h
  · rcases List.mem_append.1 h with h | h
    · exact .inl h
    · exact .inr (.inl (List.mem_singleton.1 h))
  · exact .inl h
  · exact .inl ((List.dropLast_sublist _).subset h)
  · rcases List.mem_append.1 h with h | h
    · exact .inl h
    · exact .inr (.inr (List.mem_singleton.1 h))

theorem eq_slash_of_mem_ofText (h : n ∈ Place.ofText path) (hslash : '/' ∈ n.toList) : n = "/" := by
  have hstart : ∀ m ∈ Place.start path.toList, '/' ∈ m.toList → m = "/" := by
    intro m hm hmslash
    unfold Place.start at hm
    split at hm
    · exact List.mem_singleton.1 hm
    · cases hm
  have hnames := fun m (hm : m ∈ Place.namesOf path) => slash_not_mem_of_mem_namesOf hm
  unfold Place.ofText at h
  revert hnames hstart h
  generalize Place.start path.toList = start
  induction Place.namesOf path generalizing start with
  | nil => exact fun h hstart _ => hstart n h hslash
  | cons m r ih =>
    intro h hstart hnames
    refine ih _ h (fun k hk hkslash => ?_) fun k hk => hnames k (List.mem_cons_of_mem _ hk)
    rcases mem_of_mem_enter hk with hk | rfl | rfl
    · exact hstart k hk hkslash
    · exact absurd hkslash (by decide)
    · exact absurd hkslash (hnames k List.mem_cons_self)

theorem IsPlain.makeIfMissing (hplain : fs.IsPlain) (h : fs.makeIfMissing p = .ok ready) :
    ready.IsPlain := by
  obtain ⟨place, hlocate, rfl | ⟨-, rfl⟩⟩ := makeIfMissing_eq_ok h
  · intro other hother n hn hslash
    rw [← List.append_assoc] at hother
    rcases List.mem_append.1 hother with hother | hother
    · exact hplain other hother n hn hslash
    · rw [List.mem_singleton.1 hother, eq_of_locate hlocate] at hn
      exact eq_slash_of_mem_ofText hn hslash
  · exact hplain

theorem IsPlain.makeFolder {fs ready : Files} {p : Path} (hplain : fs.IsPlain)
    (h : fs.makeFolder p = .ok ready) : ready.IsPlain := by
  obtain ⟨before, hlast, rfl | ⟨hshorter, hbefore⟩⟩ := makeFolder_eq_ok h
  · exact hplain.makeIfMissing hlast
  · exact (hplain.makeFolder hbefore).makeIfMissing hlast
termination_by p.length

end Making

section Listing

end Listing

end Files
end FlowCanvas
