import FlowCanvas.Files
import FlowCanvas.Proofs.Fallible
import FlowCanvas.Proofs.Text.Utf8
import FlowCanvas.Proofs.Text.Words

namespace FlowCanvas

section Paths

theorem slash_not_mem_of_mem_namesOf {path n : String} (h : n ∈ Place.namesOf path) :
    '/' ∉ n.toList := by
  obtain ⟨w, hw, rfl⟩ := List.mem_map.1 h
  intro hslash
  rw [String.toList_ofList] at hslash
  simpa using Text.eq_false_of_mem_pieces hw '/' hslash

theorem namesOf_slash (path : String) : Place.namesOf ("/" ++ path) = "" :: Place.namesOf path := by
  simp [Place.namesOf, Text.pieces]

theorem namesOf_intercalate {names : List String} (hne : names ≠ [])
    (h : ∀ n ∈ names, '/' ∉ n.toList) : Place.namesOf ("/".intercalate names) = names := by
  have hpieces : Text.pieces (· = '/') (List.intercalate ['/'] (names.map String.toList)) =
      names.map String.toList := by
    apply Text.pieces_intercalate (by simp) (by simpa using hne)
    intro w hw c hc
    obtain ⟨n, hn, rfl⟩ := List.mem_map.1 hw
    simpa using ne_of_mem_of_not_mem hc (h n hn)
  have hslash : "/".toList = ['/'] := rfl
  rw [Place.namesOf, String.toList_intercalate, hslash, hpieces, List.map_map]
  simp [Function.comp_def]

/-- Empty names and single dots lead nowhere. -/
theorem foldl_enter_filter (names : List String) (place : Place) :
    (names.filter fun n => n ≠ "" ∧ n ≠ ".").foldl Place.enter place =
      names.foldl Place.enter place := by
  induction names generalizing place with
  | nil => rfl
  | cons n r ih =>
    by_cases hn : n ≠ "" ∧ n ≠ "."
    · rw [List.filter_cons_of_pos (by simpa using hn), List.foldl_cons, List.foldl_cons, ih]
    · have hstay : place.enter n = place := by
        rw [Place.enter, if_pos]
        tauto
      rw [List.filter_cons_of_neg (by simpa using hn), List.foldl_cons, hstay, ih]

theorem root_cases (cs : List Char) :
    (Path.root cs = [] ∧ cs.head? ≠ some '/') ∨
      ∃ r, (r = "/" ∨ r = "//") ∧ Path.root cs = [r] ∧ cs.head? = some '/' := by
  cases cs with
  | nil => exact .inl ⟨rfl, by simp⟩
  | cons c r =>
    by_cases hc : c = '/'
    · right
      unfold Path.root
      split
      · next h => simp [hc] at h
      · exact ⟨_, .inr rfl, rfl, by simp [hc]⟩
      · exact ⟨_, .inl rfl, rfl, by simp [hc]⟩
    · left
      simp [Path.root, hc]

theorem namesOf_joined {names : List String}
    (h : ∀ n ∈ names, '/' ∉ n.toList ∧ n ≠ "" ∧ n ≠ ".") :
    ((Place.namesOf ("/".intercalate names)).filter fun n => n ≠ "" ∧ n ≠ ".") = names := by
  cases names with
  | nil => rfl
  | cons n r =>
    rw [namesOf_intercalate (List.cons_ne_nil n r) fun m hm => (h m hm).1, List.filter_eq_self]
    intro m hm
    simpa using (h m hm).2

theorem head?_intercalate {n : String} (hn : n ≠ "") (names : List String) :
    ("/".intercalate (n :: names)).toList.head? = n.toList.head? := by
  cases names with
  | nil => rfl
  | cons m r =>
    have hne : n.toList ≠ [] := by simpa using hn
    rw [String.intercalate_cons_cons, String.toList_append, String.toList_append, List.append_assoc,
      List.head?_append_of_ne_nil _ hne]

/-- A path and its plain spelling lead to the same place. -/
theorem ofText_tidy (path : String) : Place.ofText (Path.tidy path) = Place.ofText path := by
  have hkept : ∀ n ∈ (Place.namesOf path).filter (fun n => n ≠ "" ∧ n ≠ "."),
      '/' ∉ n.toList ∧ n ≠ "" ∧ n ≠ "." := by
    intro n hn
    obtain ⟨hmem, hn⟩ := List.mem_filter.1 hn
    exact ⟨slash_not_mem_of_mem_namesOf hmem, by simpa using hn⟩
  suffices hsame : Place.start (Path.tidy path).toList = Place.start path.toList ∧
      ((Place.namesOf (Path.tidy path)).filter fun n => n ≠ "" ∧ n ≠ ".") =
        (Place.namesOf path).filter fun n => n ≠ "" ∧ n ≠ "." by
    rw [Place.ofText, Place.ofText, hsame.1, ← foldl_enter_filter, hsame.2, foldl_enter_filter]
  -- Names that lead nowhere do not count, so it is enough to compare where the two paths start and
  -- the names that are kept.
  unfold Path.tidy Path.ofText
  generalize (Place.namesOf path).filter (fun n => n ≠ "" ∧ n ≠ ".") = kept at hkept ⊢
  have hjoined := namesOf_joined hkept
  obtain ⟨hroot, hhead⟩ | ⟨r, hr, hroot, hhead⟩ := root_cases path.toList
  · -- No name holds a slash, so what is joined does not start at the root either.
    rw [hroot, List.nil_append, Place.start, Place.start, if_neg hhead]
    cases kept with
    | nil => exact ⟨rfl, rfl⟩
    | cons n names =>
      obtain ⟨hslash, hne, -⟩ := hkept n List.mem_cons_self
      have hplain : Path.roots.contains n = false := by
        rw [Path.roots, ← Bool.not_eq_true, List.contains_iff_mem]
        intro hmem
        rcases List.mem_pair.1 hmem with rfl | rfl <;> exact hslash (by decide)
      have hstart : n.toList.head? ≠ some '/' := fun h => hslash (List.mem_of_mem_head? h)
      have htext : Path.text (n :: names) = "/".intercalate (n :: names) := by
        rw [Path.text, hplain, if_neg Bool.false_ne_true]
      rw [htext, head?_intercalate hne, if_neg hstart]
      exact ⟨rfl, hjoined⟩
  · -- The slashes of the root only add empty names.
    have htext : Path.text ([r] ++ kept) = r ++ "/".intercalate kept := by
      rcases hr with rfl | rfl <;> rfl
    rw [hroot, htext, Place.start, Place.start, if_pos hhead]
    rcases hr with rfl | rfl
    · refine ⟨by simp, ?_⟩
      rw [namesOf_slash, List.filter_cons_of_neg (by simp), hjoined]
    · have hslashes : "//" ++ "/".intercalate kept = "/" ++ ("/" ++ "/".intercalate kept) := by
        rw [← String.append_assoc]
        rfl
      refine ⟨by simp, ?_⟩
      rw [hslashes, namesOf_slash, namesOf_slash, List.filter_cons_of_neg (by simp),
        List.filter_cons_of_neg (by simp), hjoined]

end Paths

namespace Files

section Reading
variable {fs : Files} {path : String} {place : Place}

theorem eq_of_step {folder next : Place} {name : String} (h : fs.step folder name = .ok next) :
    next = folder.enter name := by
  unfold step at h
  split at h
  · split at h
    · cases h
    · exact (Except.ok.inj h).symm
  · cases h

theorem eq_of_foldlM_step {names : List String} {start : Place}
    (h : names.foldlM fs.step start = .ok place) : place = names.foldl Place.enter start := by
  induction names generalizing start with
  | nil => exact (Except.ok.inj h).symm
  | cons n r ih =>
    rw [List.foldlM_cons, bind_eq_ok_iff] at h
    obtain ⟨next, hstep, hrest⟩ := h
    rw [List.foldl_cons, ← eq_of_step hstep]
    exact ih hrest

theorem eq_of_follow {names : List String} (h : fs.follow path names = .ok place) :
    place = names.foldl Place.enter (Place.start path.toList) := by
  have hsteps : names.foldlM fs.step (Place.start path.toList) = .ok place := by
    unfold follow at h
    by_cases hzero : path.toList.contains (Char.ofNat 0)
    · rw [if_pos hzero] at h
      cases h
    · by_cases hlong : longestPath < path.utf8ByteSize
      · rw [if_neg hzero, if_pos hlong] at h
        cases h
      · by_cases hempty : path.isEmpty
        · rw [if_neg hzero, if_neg hlong, if_pos hempty] at h
          cases h
        · rw [if_neg hzero, if_neg hlong, if_neg hempty] at h
          exact h
  exact eq_of_foldlM_step hsteps

theorem eq_of_locate (h : fs.locate path = .ok place) : place = Place.ofText path :=
  eq_of_follow h

theorem eq_of_placeFor (h : fs.placeFor path = .ok place) : place = Place.ofText path := by
  unfold placeFor at h
  simp only at h
  split at h
  · obtain ⟨folder, -, hthrow⟩ := bind_eq_ok_iff.1 h
    cases hthrow
  · obtain ⟨found, hfollow, hrest⟩ := bind_eq_ok_iff.1 h
    split at hrest
    · cases hrest
    · obtain rfl := Except.ok.inj hrest
      exact eq_of_follow hfollow

theorem exists_of_read {bytes : Bytes} (h : fs.read path = .ok bytes) :
    ∃ place, fs.locate path = .ok place ∧ fs.contents.lookup place = some bytes := by
  obtain ⟨place, hlocate, hrest⟩ := bind_eq_ok_iff.1 h
  refine ⟨place, mapError_eq_ok_iff.1 hlocate, ?_⟩
  by_cases hfolder : fs.isFolder place
  · rw [if_pos hfolder] at hrest
    cases hrest
  · rw [if_neg hfolder] at hrest
    cases hfound : fs.contents.lookup place with
    | none =>
      simp only [hfound] at hrest
      cases hrest
    | some found =>
      simp only [hfound] at hrest
      exact congrArg some (Except.ok.inj hrest)

theorem exists_of_readText {text : String} (h : fs.readText path = .ok text) :
    ∃ place bytes, fs.locate path = .ok place ∧ fs.contents.lookup place = some bytes := by
  obtain ⟨bytes, hread, -⟩ := bind_eq_ok_iff.1 h
  obtain ⟨place, hlocate, hlookup⟩ := exists_of_read (mapError_eq_ok_iff.1 hread)
  exact ⟨place, bytes, hlocate, hlookup⟩

theorem unifyLines_eq_self {cs : List Char} (h : '\r' ∉ cs) : Text.unifyLines cs = cs := by
  induction cs with
  | nil => rfl
  | cons c cs ih =>
    obtain ⟨hc, hcs⟩ := not_or.1 (mt List.mem_cons.2 h)
    rw [Text.unifyLines, ih hcs, if_neg (Ne.symm hc)]
    rintro r rfl -
    exact hc rfl

theorem readText_eq_ok {text : String} (h : fs.read path = .ok (Text.Utf8.encode text.toList))
    (hlines : '\r' ∉ text.toList) : fs.readText path = .ok text := by
  rw [readText, h]
  show (Text.Utf8.decode (Text.Utf8.encode text.toList)).mapError _ >>= _ = _
  rw [Text.Utf8.decode_encode]
  show Except.ok (String.ofList (Text.unifyLines text.toList)) = _
  rw [unifyLines_eq_self hlines, String.ofList_toList]

end Reading

section Writing
variable (fs : Files) (place : Place) (bytes : Bytes)

theorem lookup_cons_eq (f : Place × Bytes) (r : List (Place × Bytes)) (other : Place) :
    (f :: r).lookup other = if other = f.1 then some f.2 else r.lookup other := by
  obtain ⟨p, bytes⟩ := f
  by_cases h : other = p
  · simp [h]
  · have hb : (other == p) = false := by simpa using h
    simp [List.lookup_cons, hb, h]

theorem lookup_replace (contents : List (Place × Bytes)) (other : Place) :
    (contents.map fun f => if f.1 = place then (place, bytes) else f).lookup other =
      if other = place then (contents.lookup other).map fun _ => bytes
      else contents.lookup other := by
  induction contents with
  | nil => simp
  | cons f r ih =>
    rw [List.map_cons, lookup_cons_eq, lookup_cons_eq, ih]
    by_cases hf : f.1 = place
    · rw [if_pos hf, hf]
      by_cases hother : other = place <;> simp [hother]
    · rw [if_neg hf]
      by_cases hsame : other = f.1 <;> simp [hsame, hf]

theorem isFile_eq : fs.isFile place = (fs.contents.lookup place).isSome := by
  unfold isFile
  induction fs.contents with
  | nil => rfl
  | cons f r ih =>
    rw [List.any_cons, ih, lookup_cons_eq]
    by_cases hf : f.1 = place
    · simp [hf]
    · simp [hf, Ne.symm hf]

theorem lookup_set (h : fs.isFile place = true) (other : Place) :
    (fs.set place bytes).contents.lookup other =
      if other = place then some bytes else fs.contents.lookup other := by
  rw [set, if_pos h, lookup_replace]
  split
  · next hother =>
    rw [isFile_eq, ← hother] at h
    obtain ⟨old, hold⟩ := Option.isSome_iff_exists.1 h
    rw [hold, Option.map_some]
  · rfl

theorem places_set (h : fs.isFile place = true) :
    (fs.set place bytes).contents.map (·.1) = fs.contents.map (·.1) := by
  rw [set, if_pos h, List.map_map]
  apply List.map_congr_left
  intro f _
  simp only [Function.comp_apply]
  split
  · next hf => exact hf.symm
  · rfl

theorem write_eq_ok_iff {fs after : Files} {path text : String} :
    fs.write path text = .ok after ↔ ∃ place, fs.placeFor path = .ok place ∧
      after = fs.set place (Text.Utf8.encode text.toList) := by
  rw [write, bind_eq_ok_iff]
  simp [pure, Except.pure, eq_comm (a := after)]

end Writing
end Files
end FlowCanvas
