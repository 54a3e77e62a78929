import FlowCanvas.Proofs.Canvas.Loading
import FlowCanvas.Proofs.Command.Graph
import FlowCanvas.Proofs.Value.Json

namespace FlowCanvas.Command

theorem Failure.isReported_canvas_eq_false_iff {file : String} {error : Store.LoadError} :
    (Failure.canvas file error).isReported = false ↔
      error = .invalid .tooLarge ∨ ∃ e, error = .notJson e ∧ e.reason.isDepth = true := by
  cases error with
  | notJson e => simp [isReported]
  | notObject => simp [isReported]
  | invalid misfit => cases misfit <;> simp [isReported]

theorem exists_of_load_eq_notJson {text : String} {e : Json.Error}
    (h : Store.load text = .error (.notJson e)) : Json.parse text = .error e := by
  unfold Store.load at h
  split at h
  · next error hparse =>
    obtain rfl : error = e := by simpa using h
    exact hparse
  · next fields _ =>
    cases hread : Snapshot.ofFields fields <;> simp [hread, Except.map, Except.mapError] at h
  · cases h

namespace Graph
variable {files : Files} {args : List String} {file text : String}

/-- The command has read its settings and its diagram, and the text of its canvas file. -/
def ReachesCanvas (yaml : Settings.Reader) (files : Files) (args : List String)
    (file text : String) : Prop :=
  ∃ (a : Arguments) (settings : Settings) (diagram : String),
    Arguments.read args = .ok a ∧ a.canvas = some file ∧
    a.settings.elim (.ok {}) (loadSettings yaml files) = .ok settings ∧
    a.input.elim (.error Failure.nameless)
      (fun name => (files.readText (Path.tidy name)).mapError .file) = .ok diagram ∧
    files.readText (Path.tidy file) = .ok text

theorem run_of_load_eq_error (host : Host) (graphviz : Layout.Graphviz.Behaviour)
    (h : ReachesCanvas host.yaml files args file text) {error : Store.LoadError}
    (hload : Store.load text = .error error) :
    run host graphviz files args = .failed (.canvas file error) files := by
  obtain ⟨a, settings, diagram, hread, hcanvas, hsettings, hdiagram, htext⟩ := h
  have hcanvasFile : loadCanvas files file = .error (.canvas file error) := by
    rw [loadCanvas, htext]
    show (Store.load text).mapError (Failure.canvas file) = _
    rw [hload]
    rfl
  have hmaterial : material host.yaml files a = .error (.canvas file error) := by
    rw [material_eq, hcanvas]
    refine bind_eq_error_iff.2 (.inr ⟨settings, hsettings, ?_⟩)
    refine bind_eq_error_iff.2 (.inr ⟨diagram, hdiagram, ?_⟩)
    exact bind_eq_error_iff.2 (.inl hcanvasFile)
  simp [run, hread, hcanvas, hmaterial]

/-- Whatever text a canvas file holds, unless it has more levels than are read at all, it is loaded
or refused with a message, and so does the command refuse it; just if a node past all doubles is the
first thing wrong with the entries, reading breaks off, and so does the command. -/
theorem canvas_file_breaks_off_iff
    (hdepth : ∀ e, Json.parse text = .error e → e.reason.isDepth = false) (file : String) :
    (Store.IsPastDoubles text →
      Store.load text = .error (.invalid .tooLarge) ∧
      (Failure.canvas file (.invalid .tooLarge)).isReported = false ∧
      ∀ host graphviz files args, ReachesCanvas host.yaml files args file text →
        run host graphviz files args = .broken (.canvas file (.invalid .tooLarge))) ∧
    (¬Store.IsPastDoubles text →
      (∃ store, Store.load text = .ok store) ∨
      ∃ error, Store.load text = .error error ∧
        (Failure.canvas file error).isReported = true ∧
        ∀ host graphviz files args, ReachesCanvas host.yaml files args file text →
          run host graphviz files args = .error (error.message file) files) := by
  constructor
  · intro hpast
    have hload := Store.load_eq_tooLarge_iff.2 hpast
    refine ⟨hload, rfl, fun host graphviz files args hreaches => ?_⟩
    rw [run_of_load_eq_error host graphviz hreaches hload]
    rfl
  · intro hnear
    cases hload : Store.load text with
    | ok store => exact .inl ⟨store, rfl⟩
    | error error =>
      have hreported : (Failure.canvas file error).isReported = true := by
        rw [← Bool.not_eq_false, Failure.isReported_canvas_eq_false_iff]
        -- Two refusals are not reported: a coordinate past all doubles, and a text with too many
        -- levels.
        rintro (rfl | ⟨e, rfl, hdeep⟩)
        · exact hnear (Store.load_eq_tooLarge_iff.1 hload)
        · rw [hdepth e (exists_of_load_eq_notJson hload)] at hdeep
          cases hdeep
      refine .inr ⟨error, rfl, hreported, fun host graphviz files args hreaches => ?_⟩
      rw [run_of_load_eq_error host graphviz hreaches hload, Ending.failed, if_pos hreported]
      rfl

section Far

def nodeAt (x : Value) : Value :=
  .record [("id", .text "a"), ("position", .record [("x", x)])]

def fieldText (name : String) (value : List Char) : List Char :=
  '"' :: (name.toList ++ '"' :: ':' :: value)

def placeText (x : List Char) : List Char :=
  '\x7b' :: fieldText "x" x

def nodeText (x : List Char) : List Char :=
  '\x7b' :: fieldText "id" ('"' :: ("a".toList ++
    '"' :: ',' :: fieldText "position" (placeText x)))

def canvasText (x : List Char) : List Char :=
  '\x7b' :: fieldText "nodes" ('[' :: nodeText x)

theorem parse_canvasText {x : List Char} {v : Value} (hskip : Json.skip x = x)
    (hx : ∀ levels, Json.Takes (Json.value levels x) v ['\x7d', '\x7d', ']', '\x7d']) :
    Json.parse (String.ofList (canvasText x)) = .ok (.record [("nodes", .list [nodeAt v])]) := by
  have hplain : ∀ name ∈ ["nodes", "id", "a", "position", "x"],
      name.toList.all Json.isPlain = true := by decide
  simp only [List.forall_mem_cons] at hplain
  obtain ⟨hnodes, hid, ha, hposition, hxName, -⟩ := hplain
  have hfirst (name : String) (value : List Char) :
      (Json.skip (fieldText name value)).head? ≠ some '\x7d' := by
    rw [fieldText, Json.head?_skip rfl]
    decide
  -- From the inside out, each part with as many levels to go as the parts around it leave it.
  have hplace (levels : ℕ) : Json.Takes (Json.value (levels + 1) (placeText x))
      (.record [("x", v)]) ['\x7d', ']', '\x7d'] := by
    have hvalue := hx levels
    rw [← hskip] at hvalue
    refine Json.takes_object (hfirst _ _) ?_
    exact Json.takes_field (Json.takes_plain hxName) rfl hvalue (.inl ⟨rfl, rfl⟩)
  have hnode (levels : ℕ) : Json.Takes (Json.value (levels + 2) (nodeText x)) (nodeAt v)
      [']', '\x7d'] := by
    refine Json.takes_object (hfirst _ _) ?_
    refine Json.takes_field (Json.takes_plain hid) rfl (Json.takes_text (Json.takes_plain ha))
      (.inr ⟨_, rfl, ?_⟩)
    exact Json.takes_field (Json.takes_plain hposition) rfl (hplace _) (.inl ⟨rfl, rfl⟩)
  have hlist (levels : ℕ) : Json.Takes (Json.value (levels + 3) ('[' :: nodeText x))
      (.list [nodeAt v]) ['\x7d'] := by
    refine Json.takes_list ?_ (Json.takes_last_item (hnode levels) rfl)
    rw [nodeText, Json.head?_skip rfl]
    decide
  have hfile : Json.Takes (Json.value Json.mostLevels (canvasText x))
      (.record [("nodes", .list [nodeAt v])]) [] := by
    refine Json.takes_object (hfirst _ _) ?_
    exact Json.takes_field (Json.takes_plain hnodes) rfl (hlist _) (.inl ⟨rfl, rfl⟩)
  have hchars := String.toList_ofList (l := canvasText x)
  refine Json.parse_eq_ok ?_ ?_ (rfl : Json.skip [] = [])
  · rw [hchars, canvasText, List.head?_cons]
    decide
  · rw [hchars]
    exact hfile

def farZeros : List Char :=
  List.replicate 400 '0'

/-- A canvas with one node, which lies past all doubles. -/
def farText : String :=
  String.ofList (canvasText ('1' :: farZeros ++ ['\x7d', '\x7d', ']', '\x7d']))

theorem parse_farText :
    Json.parse farText = .ok (.record [("nodes", .list [nodeAt (.int (10 ^ 400 : ℕ))])]) := by
  refine parse_canvasText (by decide +kernel) fun levels => ?_
  have hnumeral : Json.numeral? ('1' :: farZeros ++ ['\x7d', '\x7d', ']', '\x7d']) =
      some ('1' :: farZeros, true) := by decide +kernel
  have hvalue : Decimal.digitsValue ('1' :: farZeros) = 10 ^ 400 := by decide +kernel
  rw [← hvalue]
  exact Json.takes_unsigned rfl hnumeral (by decide +kernel)

theorem isPastDoubles_farText : Store.IsPastDoubles farText := by
  have hfar : (Value.int (10 ^ 400 : ℕ)).IsPastDoubles := by
    rw [Value.int, Value.IsPastDoubles, Int.cast_natCast, Nat.abs_cast, Nat.cast_pow]
    exact Decimal.overflow_le_ten_zpow (le_refl 400)
  refine ⟨_, parse_farText, [], _, [], rfl, by simp, _, "a", _, _, rfl, rfl, rfl, rfl, ?_⟩
  exact .inl ⟨_, rfl, hfar⟩

/-- JSON that is read without a fault breaks the loading off. -/
theorem far_canvas_breaks_off :
    (∃ payload, Json.parse farText = .ok payload) ∧
    ∃ error, Store.load farText = .error error ∧
      (Failure.canvas "canvas.json" error).isReported = false :=
  ⟨⟨_, parse_farText⟩, _, Store.load_eq_tooLarge_iff.2 isPastDoubles_farText, rfl⟩

def filesWith (canvas : String) : Files where
  contents := [
    (["canvas.json"], Text.Utf8.encode canvas.toList),
    (["flow.txt"], Text.Utf8.encode "[start] A".toList)]

def drawOnCanvas : List String :=
  ["--in", "flow.txt", "--canvas", "canvas.json"]

theorem reachesCanvas_filesWith (yaml : Settings.Reader) {canvas : String}
    (h : '\r' ∉ canvas.toList) :
    ReachesCanvas yaml (filesWith canvas) drawOnCanvas "canvas.json" canvas := by
  have hread : Arguments.read drawOnCanvas = .ok {
      input := some "flow.txt"
      canvas := some "canvas.json"
      settings := none
      direction := none
      algorithm := none
      spacing := none
      commit := false } := by
    with_unfolding_all rfl
  have hdiagram : (filesWith canvas).readText (Path.tidy "flow.txt") = .ok "[start] A" :=
    Files.readText_eq_ok (by with_unfolding_all rfl) (by decide)
  exact ⟨_, {}, "[start] A", hread, rfl, rfl, mapError_eq_ok_iff.2 hdiagram,
    Files.readText_eq_ok (by with_unfolding_all rfl) h⟩

/-- A node past all doubles breaks the command off; a list in place of a canvas is reported. -/
theorem far_canvas_and_list :
    run plainHost .absent (filesWith farText) drawOnCanvas =
      .broken (.canvas "canvas.json" (.invalid .tooLarge)) ∧
    ∃ error, Store.load "[]" = .error error ∧ run plainHost .absent (filesWith "[]") drawOnCanvas =
      .error (error.message "canvas.json") (filesWith "[]") := by
  have hlist : Json.parse "[]" = .ok (.list []) := by cbv
  have hline : '\r' ∉ farText.toList := by
    rw [farText, String.toList_ofList]
    decide +kernel
  have hfar : ReachesCanvas plainHost.yaml (filesWith farText) drawOnCanvas "canvas.json" farText :=
    reachesCanvas_filesWith _ hline
  have hflat : ReachesCanvas plainHost.yaml (filesWith "[]") drawOnCanvas "canvas.json" "[]" :=
    reachesCanvas_filesWith _ (by decide)
  obtain ⟨hbroken, -⟩ := canvas_file_breaks_off_iff
    (fun e h => by cases parse_farText.symm.trans h) "canvas.json"
  obtain ⟨-, hreported⟩ := canvas_file_breaks_off_iff
    (fun e h => by cases hlist.symm.trans h) "canvas.json"
  refine ⟨(hbroken isPastDoubles_farText).2.2 _ _ _ _ hfar, ?_⟩
  obtain ⟨store, hstore⟩ | ⟨error, hload, -, hrun⟩ := hreported (by
    rintro ⟨fields, hparse, -⟩
    cases hlist.symm.trans hparse)
  · rw [Store.load, hlist] at hstore
    cases hstore
  · exact ⟨error, hload, hrun _ _ _ _ hflat⟩

end Far
end Graph
end FlowCanvas.Command
