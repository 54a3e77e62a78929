import FlowCanvas.Command.Graph
import FlowCanvas.Proofs.Files
import FlowCanvas.Proofs.Pipeline.Plan

namespace FlowCanvas

theorem Command.Ending.eq_of_failed {failure : Command.Failure} {files after : Files} {code : Nat}
    {stdout stderr : String} (h : failed failure files = .exit code stdout stderr after) :
    failure.isReported = true ∧ after = files ∧ stdout = "" := by
  unfold failed at h
  split at h
  · next hreported =>
    cases h
    exact ⟨hreported, rfl, rfl⟩
  · cases h

namespace Command.Graph
variable (host : Host) (graphviz : Layout.Graphviz.Behaviour) (files : Files) (args : List String)

/-- The run of the diagram that the command is about. -/
def drawing (m : Material) : Pipeline × Pipeline.Result :=
  (Pipeline.ofStore m.store m.settings).runWith (Layout.Graphviz.engine graphviz) m.text

theorem failure?_drawing_eq_none_iff (m : Material) :
    (drawing graphviz m).2.failure? = none ↔ (drawing graphviz m).2.status = .committed := by
  unfold drawing
  exact Pipeline.failure?_runWith_eq_none_iff _

/-- The command is told to commit to the file under a name, and its run copies the canvas there and
commits another. -/
def Commits (name : String) (store : Store) : Prop :=
  ∃ a m, Arguments.read args = .ok a ∧ a.commit = true ∧ a.canvas = some name ∧
    material host.yaml files a = .ok m ∧ (m.store.copy host.copyDepth).isSome ∧
    (drawing graphviz m).2.status = .committed ∧ (drawing graphviz m).1.store = store

variable {host files}

theorem material_eq (yaml : Settings.Reader) (a : Arguments) : material yaml files a =
    (a.settings.elim (.ok {}) (loadSettings yaml files) >>= fun settings =>
      a.input.elim (.error .nameless)
        (fun name => (files.readText (Path.tidy name)).mapError .file) >>= fun text =>
      a.canvas.elim (.ok .empty) (loadCanvas files) >>= fun store =>
      .ok ⟨a.refine settings, text, store⟩) := by
  unfold material
  cases a.settings <;> cases a.input <;> cases a.canvas <;> rfl

theorem loadCanvas_of_material {yaml : Settings.Reader} {a : Arguments} {m : Material}
    {name : String} (h : material yaml files a = .ok m) (hcanvas : a.canvas = some name) :
    loadCanvas files name = .ok m.store := by
  rw [material_eq, hcanvas] at h
  obtain ⟨settings, -, h⟩ := bind_eq_ok_iff.1 h
  obtain ⟨text, -, h⟩ := bind_eq_ok_iff.1 h
  obtain ⟨store, hstore, h⟩ := bind_eq_ok_iff.1 h
  obtain rfl := Except.ok.inj h
  exact hstore

theorem exists_place_of_material {yaml : Settings.Reader} {a : Arguments} {m : Material}
    {name : String} (h : material yaml files a = .ok m) (hcanvas : a.canvas = some name) :
    ∃ place, files.locate (Path.tidy name) = .ok place ∧ files.isFile place = true := by
  obtain ⟨given, hread, -⟩ := bind_eq_ok_iff.1 (loadCanvas_of_material h hcanvas)
  obtain ⟨place, bytes, hlocate, hlookup⟩ := Files.exists_of_readText (mapError_eq_ok_iff.1 hread)
  refine ⟨place, hlocate, ?_⟩
  rw [Files.isFile_eq, hlookup]
  rfl

/-- The file that is written back is the one that was read, whatever its name looks like. -/
theorem eq_set_of_writeBack {yaml : Settings.Reader} {a : Arguments} {m : Material}
    {name : String} {store : Store} {after : Files} (hmaterial : material yaml files a = .ok m)
    (hcanvas : a.canvas = some name) (hcommit : a.commit = true)
    (h : writeBack files a store = .ok after) :
    ∃ place, files.locate (Path.tidy name) = .ok place ∧ files.isFile place = true ∧
      after = files.set place (Text.Utf8.encode store.save.toList) := by
  obtain ⟨place, hlocate, hfile⟩ := exists_place_of_material hmaterial hcanvas
  simp only [writeBack, hcanvas, hcommit, if_true, mapError_eq_ok_iff] at h
  obtain ⟨target, htarget, rfl⟩ := Files.write_eq_ok_iff.1 h
  -- The file is read under the plain spelling of its name, and written under the name as given.
  have hsame : target = place := by
    rw [Files.eq_of_placeFor htarget, Files.eq_of_locate hlocate, ofText_tidy]
  rw [hsame]
  exact ⟨place, hlocate, hfile, rfl⟩

theorem eq_of_writeBack {a : Arguments} {store : Store} {after : Files}
    (hkeep : ¬ (a.commit = true ∧ a.canvas.isSome)) (h : writeBack files a store = .ok after) :
    after = files := by
  cases hcanvas : a.canvas with
  | none =>
    simp only [writeBack, hcanvas] at h
    exact (Except.ok.inj h).symm
  | some name =>
    have hcommit : a.commit = false := by simpa [hcanvas] using hkeep
    simp only [writeBack, hcanvas, hcommit, Bool.false_eq_true, if_false] at h
    exact (Except.ok.inj h).symm

theorem exists_save_of_writeBack {a : Arguments} {store : Store} {failure : Failure}
    (h : writeBack files a store = .error failure) : ∃ error, failure = .save error := by
  unfold writeBack at h
  split at h
  · next name _ =>
    split at h
    · cases hwrite : files.write name store.save with
      | error error =>
        rw [hwrite] at h
        exact ⟨error, (Except.error.inj h).symm⟩
      | ok after =>
        rw [hwrite] at h
        cases h
    · cases h
  · cases h

section Running
variable {args} {a : Arguments} {m : Material}

/-- What the command does once it has read all that it works on and copied the canvas. -/
theorem run_of_material (hread : Arguments.read args = .ok a)
    (hgiven : ¬ (a.commit && a.canvas.isNone) = true)
    (hmaterial : material host.yaml files a = .ok m) {base : Snapshot}
    (hcopy : m.store.copy host.copyDepth = some base) :
    run host graphviz files args =
      match (drawing graphviz m).2.failure? with
      | some failure => .error failure.message files
      | none =>
        match writeBack files a (drawing graphviz m).1.store with
        | .error failure => .failed failure files
        | .ok after =>
          .exit 0 ((drawing graphviz m).1.store.save ++ "\n")
            (Ending.lines ((drawing graphviz m).2.warnings.map ("Warning: " ++ ·.message)))
            after := by
  have hline (text : String) : Ending.lines [text] = text ++ "\n" := by simp [Ending.lines]
  have hdrawing : (Pipeline.ofStore m.store m.settings).runWith
      (Layout.Graphviz.engine graphviz) m.text = drawing graphviz m := rfl
  cases hfailure : (drawing graphviz m).2.failure? with
  | some failure => simp only [run, hread, if_neg hgiven, hmaterial, hcopy, hdrawing, hfailure]
  | none =>
    cases hwrite : writeBack files a (drawing graphviz m).1.store with
    | error failure =>
      simp only [run, hread, if_neg hgiven, hmaterial, hcopy, hdrawing, hfailure, hwrite]
    | ok after =>
      simp only [run, hread, if_neg hgiven, hmaterial, hcopy, hline, hdrawing, hfailure, hwrite]

theorem run_of_tooDeep (hread : Arguments.read args = .ok a)
    (hgiven : ¬ (a.commit && a.canvas.isNone) = true)
    (hmaterial : material host.yaml files a = .ok m)
    (hcopy : m.store.copy host.copyDepth = none) :
    run host graphviz files args = .broken .tooDeep := by
  simp only [run, hread, if_neg hgiven, hmaterial, hcopy]
  rfl

variable {graphviz}

theorem Commits.of_read {name : String} {store : Store}
    (h : Commits host graphviz files args name store) (hread : Arguments.read args = .ok a) :
    a.commit = true ∧ a.canvas = some name ∧ ∃ m, material host.yaml files a = .ok m ∧
      (drawing graphviz m).2.status = .committed ∧ (drawing graphviz m).1.store = store := by
  obtain ⟨a', m, hread', hcommit, hcanvas, hmaterial, -, hm⟩ := h
  obtain rfl := Except.ok.inj (hread.symm.trans hread')
  exact ⟨hcommit, hcanvas, m, hmaterial, hm⟩

/-- How a run of the command on arguments that are understood can end, other than by breaking
off. -/
theorem run_cases_of_read (hread : Arguments.read args = .ok a) {code : Nat}
    {stdout stderr : String} {after : Files}
    (h : run host graphviz files args = .exit code stdout stderr after) :
    (after = files ∧ stdout = "" ∧ ∀ name store, ¬ Commits host graphviz files args name store) ∨
    ∃ m, material host.yaml files a = .ok m ∧ (m.store.copy host.copyDepth).isSome ∧
      (drawing graphviz m).2.status = .committed ∧
      writeBack files a (drawing graphviz m).1.store = .ok after ∧
      code = 0 ∧ stdout = (drawing graphviz m).1.store.save ++ "\n" := by
  by_cases hlacks : (a.commit && a.canvas.isNone) = true
  · simp only [run, hread, if_pos hlacks] at h
    cases h
    refine .inl ⟨rfl, rfl, fun name store hcommits => ?_⟩
    obtain ⟨-, hcanvas, -⟩ := hcommits.of_read hread
    simp [hcanvas] at hlacks
  · cases hmaterial : material host.yaml files a with
    | error failure =>
      simp only [run, hread, if_neg hlacks, hmaterial] at h
      obtain ⟨-, rfl, rfl⟩ := Ending.eq_of_failed h
      refine .inl ⟨rfl, rfl, fun name store hcommits => ?_⟩
      obtain ⟨-, -, m, hmaterial', -⟩ := hcommits.of_read hread
      cases hmaterial.symm.trans hmaterial'
    | ok m =>
      obtain ⟨base, hcopy⟩ : ∃ base, m.store.copy host.copyDepth = some base := by
        rw [← Option.ne_none_iff_exists']
        intro hcopy
        cases (run_of_tooDeep graphviz hread hlacks hmaterial hcopy).symm.trans h
      rw [run_of_material graphviz hread hlacks hmaterial hcopy] at h
      cases hfailure : (drawing graphviz m).2.failure? with
      | some failure =>
        rw [hfailure] at h
        cases h
        refine .inl ⟨rfl, rfl, fun name store hcommits => ?_⟩
        obtain ⟨-, -, m', hmaterial', hstatus, -⟩ := hcommits.of_read hread
        obtain rfl := Except.ok.inj (hmaterial.symm.trans hmaterial')
        rw [← failure?_drawing_eq_none_iff, hfailure] at hstatus
        cases hstatus
      | none =>
        have hstatus := (failure?_drawing_eq_none_iff graphviz m).1 hfailure
        rw [hfailure] at h
        cases hwrite : writeBack files a (drawing graphviz m).1.store with
        | error failure =>
          -- A canvas that cannot be written breaks the command off: no exit code is given.
          rw [hwrite] at h
          obtain ⟨error, rfl⟩ := exists_save_of_writeBack hwrite
          obtain ⟨hreported, -⟩ := Ending.eq_of_failed h
          cases hreported
        | ok left =>
          rw [hwrite] at h
          obtain ⟨rfl, rfl, -, rfl⟩ := Ending.exit.inj h
          have hcopied : (m.store.copy host.copyDepth).isSome := by rw [hcopy, Option.isSome_some]
          exact .inr ⟨m, rfl, hcopied, hstatus, hwrite, rfl, rfl⟩

theorem run_cases {code : Nat} {stdout stderr : String} {after : Files}
    (h : run host graphviz files args = .exit code stdout stderr after) :
    (after = files ∧ (code ≠ 0 → stdout = "") ∧
      ∀ name store, ¬ Commits host graphviz files args name store) ∨
    ∃ a m, Arguments.read args = .ok a ∧ material host.yaml files a = .ok m ∧
      (m.store.copy host.copyDepth).isSome ∧ (drawing graphviz m).2.status = .committed ∧
      writeBack files a (drawing graphviz m).1.store = .ok after ∧
      code = 0 ∧ stdout = (drawing graphviz m).1.store.save ++ "\n" := by
  cases hread : Arguments.read args with
  | ok a =>
    obtain ⟨hafter, hstdout, hnone⟩ | ⟨m, hm⟩ := run_cases_of_read hread h
    · exact .inl ⟨hafter, fun _ => hstdout, hnone⟩
    · exact .inr ⟨a, m, rfl, hm⟩
  | error refusal =>
    have hnone (name : String) (store : Store) : ¬ Commits host graphviz files args name store := by
      rintro ⟨a, m, hread', -⟩
      cases hread.symm.trans hread'
    rw [run, hread] at h
    cases refusal with
    | usage =>
      cases h
      exact .inl ⟨rfl, fun _ => rfl, hnone⟩
    | help =>
      -- Help is printed, with exit code zero.
      cases h
      exact .inl ⟨rfl, fun hcode => absurd rfl hcode, hnone⟩

/-- A run that is told to commit and commits ends well if the file can be written. -/
theorem run_of_commits {name : String} {store : Store}
    (h : Commits host graphviz files args name store) {place : Place}
    (hplace : files.placeFor name = .ok place) :
    ∃ stderr, run host graphviz files args = .exit 0 (store.save ++ "\n") stderr
      (files.set place (Text.Utf8.encode store.save.toList)) := by
  obtain ⟨a, m, hread, hcommit, hcanvas, hmaterial, hcopied, hstatus, rfl⟩ := h
  obtain ⟨base, hcopy⟩ := Option.isSome_iff_exists.1 hcopied
  have hwrite : writeBack files a (drawing graphviz m).1.store =
      .ok (files.set place (Text.Utf8.encode (drawing graphviz m).1.store.save.toList)) := by
    simp only [writeBack, hcanvas, hcommit, if_true]
    exact mapError_eq_ok_iff.2 (Files.write_eq_ok_iff.2 ⟨place, hplace, rfl⟩)
  have hfailure := (failure?_drawing_eq_none_iff graphviz m).2 hstatus
  have hrun := run_of_material graphviz hread (by simp [hcanvas]) hmaterial hcopy
  rw [hfailure] at hrun
  simp only [hwrite] at hrun
  exact ⟨_, hrun⟩

end Running

/-- Whatever the command line and the files are, a run of the command that ends with an exit code
writes nothing unless it is told to commit and has committed. Then it overwrites the canvas file
with the text that it prints, and leaves everything else as it is. With another exit code than zero
it prints nothing. -/
theorem only_a_commit_writes {code : Nat} {stdout stderr : String} {after : Files}
    (h : run host graphviz files args = .exit code stdout stderr after) :
    (code ≠ 0 → after = files ∧ stdout = "") ∧
    ((∀ name store, ¬ Commits host graphviz files args name store) → after = files) ∧
    ∀ name store, Commits host graphviz files args name store →
      code = 0 ∧ stdout = store.save ++ "\n" ∧
      ∃ place bytes, files.locate (Path.tidy name) = .ok place ∧ files.isFile place = true ∧
        Text.Utf8.decode bytes = .ok store.save.toList ∧
        (∀ other, after.contents.lookup other =
          if other = place then some bytes else files.contents.lookup other) ∧
        after.contents.map (·.1) = files.contents.map (·.1) ∧ after.made = files.made := by
  obtain ⟨rfl, hquiet, hnone⟩ | ⟨a, m, hread, hmaterial, hcopied, hstatus, hwrite, rfl, rfl⟩ :=
    run_cases h
  · exact ⟨fun hcode => ⟨rfl, hquiet hcode⟩, fun _ => rfl,
      fun name store hcommits => absurd hcommits (hnone name store)⟩
  · refine ⟨fun hcode => absurd rfl hcode, fun hnone => ?_, fun name store hcommits => ?_⟩
    · refine eq_of_writeBack ?_ hwrite
      rintro ⟨hcommit, hsome⟩
      obtain ⟨name, hcanvas⟩ := Option.isSome_iff_exists.1 hsome
      exact hnone name _ ⟨a, m, hread, hcommit, hcanvas, hmaterial, hcopied, hstatus, rfl⟩
    · obtain ⟨a', m', hread', hcommit, hcanvas, hmaterial', -, -, rfl⟩ := hcommits
      -- What is read is read in one way, so this is the commit that the run has made.
      obtain rfl := Except.ok.inj (hread.symm.trans hread')
      obtain rfl := Except.ok.inj (hmaterial.symm.trans hmaterial')
      obtain ⟨place, hlocate, hfile, rfl⟩ :=
        eq_set_of_writeBack hmaterial hcanvas hcommit hwrite
      refine ⟨rfl, rfl, place, _, hlocate, hfile, Text.Utf8.decode_encode _, ?_, ?_, ?_⟩
      · exact Files.lookup_set files place _ hfile
      · exact Files.places_set files place _ hfile
      · rfl

/-- A canvas that is empty, and a diagram of one node. -/
def deskFiles : Files where
  contents := [
    (["canvas.json"], Text.Utf8.encode "\x7b\x7d".toList),
    (["flow.txt"], Text.Utf8.encode "[start] A".toList)]

def deskArgs : List String :=
  ["--in", "flow.txt", "--canvas", ".//canvas.json", "--commit"]

theorem parse_braces : Json.parse "\x7b\x7d" = .ok (.object []) := by
  have hvalue : Json.value Json.mostLevels (Json.skip ['\x7b', '\x7d']) =
      .ok (.object [], ⟨[], by decide⟩) := by
    show Json.value Json.mostLevels ['\x7b', '\x7d'] = .ok (.object [], ⟨[], by decide⟩)
    rw [Json.value]
    rfl
  have hdocument : Json.document ['\x7b', '\x7d'] = .ok (.object []) := by
    rw [Json.document, if_neg (by decide), hvalue]
    rfl
  rw [Json.parse]
  exact congrArg _ hdocument

/-- A host that reads every settings file as an empty one. -/
def plainHost : Host where
  yaml _ := .ok .null
  copyDepth := 485

theorem desk_commits :
    ∃ store, Commits plainHost .absent deskFiles deskArgs ".//canvas.json" store := by
  have hread : Arguments.read deskArgs = .ok {
      input := some "flow.txt"
      canvas := some ".//canvas.json"
      settings := none
      direction := none
      algorithm := none
      spacing := none
      commit := true } := by
    with_unfolding_all rfl
  have hcanvas : loadCanvas deskFiles ".//canvas.json" = .ok .empty := by
    have htext : deskFiles.readText (Path.tidy ".//canvas.json") = .ok "\x7b\x7d" := by
      decide +kernel
    have hload : Store.load "\x7b\x7d" = .ok .empty := by
      rw [Store.load, parse_braces]
      rfl
    rw [loadCanvas, htext]
    exact mapError_eq_ok_iff.2 hload
  have hdiagram : deskFiles.readText (Path.tidy "flow.txt") = .ok "[start] A" := by decide +kernel
  refine ⟨_, _, ⟨{}, "[start] A", .empty⟩, hread, rfl, rfl, ?_, rfl, ?_, rfl⟩
  · simp only [material, hdiagram, hcanvas]
    rfl
  · decide +kernel

/-- The canvas file is overwritten with what is printed, and the diagram file stays as it is. -/
theorem desk_canvas_is_overwritten : ∃ stdout stderr after,
    run plainHost .absent deskFiles deskArgs = .exit 0 stdout stderr after ∧
    (∃ bytes text, after.contents.lookup ["canvas.json"] = some bytes ∧
      Text.Utf8.decode bytes = .ok text.toList ∧ stdout = text ++ "\n") ∧
    after.contents.lookup ["flow.txt"] = deskFiles.contents.lookup ["flow.txt"] := by
  obtain ⟨store, hcommits⟩ := desk_commits
  have hplace : deskFiles.placeFor ".//canvas.json" = .ok ["canvas.json"] := by decide +kernel
  obtain ⟨stderr, hrun⟩ := run_of_commits hcommits hplace
  obtain ⟨-, -, hwrites⟩ := only_a_commit_writes .absent deskArgs hrun
  obtain ⟨-, hstdout, place, bytes, hlocate, -, hdecode, hlookup, -⟩ := hwrites _ store hcommits
  have hsame : place = ["canvas.json"] := by
    have hdirect : deskFiles.locate (Path.tidy ".//canvas.json") = .ok ["canvas.json"] := by
      decide +kernel
    exact Except.ok.inj (hlocate.symm.trans hdirect)
  rw [hsame] at hlookup
  refine ⟨_, stderr, _, hrun, ⟨bytes, store.save, ?_, hdecode, hstdout⟩, ?_⟩
  · rw [hlookup, if_pos rfl]
  · rw [hlookup, if_neg (by decide)]

end Command.Graph
end FlowCanvas
