import Mathlib
import FlowCanvas.Layout.Graphviz
import FlowCanvas.Proofs.Layout.DotStatements
import FlowCanvas.Proofs.Settings.Reading

namespace FlowCanvas

namespace Number

def IsPositive : Number → Prop
  | int n => 0 < n
  | float x => 0 < x

def IsNaN : Number → Prop
  | int _ => False
  | float x => x.isNaN = true

section
open Float.Model

theorem float_atMostZero_eq_false_iff {x : Float} :
    (float x).atMostZero = false ↔ 0 < x ∨ x.isNaN = true := by
  have hlt : 0 < x ↔ UnpackedFloat.lt (.zero .positive) x.toModel.unpack = true :=
    decide_eq_true_iff
  have hle : x ≤ 0 ↔ UnpackedFloat.le x.toModel.unpack (.zero .positive) = true :=
    decide_eq_true_iff
  have hnan : x.isNaN = x.toModel.unpack.isNaN := rfl
  rw [atMostZero, decide_eq_false_iff_not, hle, hlt, hnan]
  simp only [UnpackedFloat.lt, UnpackedFloat.le]
  cases x.toModel.unpack with
  | notANumber => simp [UnpackedFloat.compare, UnpackedFloat.isNaN]
  | zero sign | infinity sign | finite sign =>
    cases sign <;> simp [UnpackedFloat.compare, UnpackedFloat.isNaN]

end

theorem atMostZero_eq_false_iff {n : Number} : n.atMostZero = false ↔ n.IsPositive ∨ n.IsNaN := by
  cases n with
  | int n => simp [atMostZero, IsPositive, IsNaN]
  | float x => exact float_atMostZero_eq_false_iff

end Number

namespace Settings
open Layout

/-- An option is a number above zero, unless it was given as not-a-number. -/
def IsMeasured (given : Value) (s : Settings) (g : Section) (name : String) : Prop :=
  ∃ n, optionIn s.toValue g (.text name) = some (.number n) ∧
    (n.IsPositive ∨ n.IsNaN ∧ optionIn given g (.text name) = some (.number n))

/-- What is not given is a number as the default is. -/
theorem isMeasured_of_completes {v : Value} {s : Settings} {g : Section} {name : String}
    {n default : Number} (hwritten : optionIn s.toValue g (.text name) = some (.number n))
    (hfrom : some (.number n) = (optionIn v g (.text name)).or (some (.number default)))
    (hdefault : default.IsPositive) (hfit : n.atMostZero = false) : IsMeasured v s g name := by
  refine ⟨n, hwritten, ?_⟩
  cases hgiven : optionIn v g (.text name) with
  | none =>
    rw [hgiven, Option.none_or, Option.some.injEq, Value.number.injEq] at hfrom
    exact .inl (hfrom ▸ hdefault)
  | some given =>
    rw [hgiven, Option.some_or] at hfrom
    rcases Number.atMostZero_eq_false_iff.1 hfit with hpositive | hnan
    · exact .inl hpositive
    · exact .inr ⟨hnan, hfrom.symm⟩

theorem graphLine_injective (direction : Direction) :
    Function.Injective fun spacing => Digraph.graphLine (graphAttributes direction spacing) := by
  intro s t h
  revert h
  cases direction <;> cases s <;> cases t <;> decide

theorem exists_source_eq {write : Digraph → String} (hwrite : Digraph.IsDocumented write)
    {nodes : List Node} {edges : List Edge} {direction : Direction} {spacing : Spacing}
    {source : String} (h : dotSource write nodes edges direction spacing = .ok source) :
    ∃ rest, source =
      "digraph G \x7b\n" ++ Digraph.graphLine (graphAttributes direction spacing) ++ rest := by
  obtain ⟨-, rfl⟩ := (Dot.dotSource_eq_ok_iff hwrite).1 h
  rw [Dot.sourceText, String.append_assoc, String.append_assoc, String.append_assoc]
  exact ⟨_, rfl⟩

/-- Settings that have been read say what is drawn and how it is laid out, each option with a value
of its kind. The direction, the arrangement and the spacing are among those that are known, and
Graphviz is asked for just them. A width and a time limit are above zero, unless they were given as
not-a-number. -/
theorem read_settings_are_usable {payload : Value} {s : Settings} (h : ofValue payload = .ok s) :
    ∃ given, payload.orNoFields.asFields = .ok given ∧
      (∃ kind, optionIn s.toValue .edges (.text "type") = some (.text kind) ∧ IsKind kind) ∧
      (∃ b, optionIn s.toValue .edges (.text "animated") = some (.flag b)) ∧
      (optionIn s.toValue .edges (.text "color") = some .null ∨
        ∃ color, optionIn s.toValue .edges (.text "color") = some (.text color)) ∧
      IsMeasured (.object given) s .edges "stroke_width" ∧
      IsMeasured (.object given) s .layout "timeout" ∧
      (∃ b, optionIn s.toValue .top (.text "keep_positions") = some (.flag b)) ∧
      (∃ b, optionIn s.toValue .top (.text "follow_document_direction") = some (.flag b)) ∧
      ∃ direction algorithm spacing, direction ∈ Direction.all ∧
        optionIn s.toValue .layout (.text "direction") = some (.text direction.name) ∧
        (∃ name, optionIn s.toValue .layout (.text "algorithm") = some (.text name) ∧
          Algorithm.ofName? name = some algorithm) ∧
        (∃ name, optionIn s.toValue .layout (.text "spacing") = some (.text name) ∧
          Spacing.ofName? name = some spacing) ∧
        (∀ other, Digraph.graphLine (graphAttributes direction other) =
          Digraph.graphLine (graphAttributes direction spacing) → other = spacing) ∧
        ∀ write nodes edges,
          Graphviz.call write nodes edges s.layout =
            (dotSource write nodes edges direction spacing).map
              (fun source => ⟨["dot", "-K" ++ algorithm.engine.name, "-Tjson"], source⟩) ∧
          (Digraph.IsDocumented write →
            ∀ source, dotSource write nodes edges direction spacing = .ok source →
              ∃ rest, source = "digraph G \x7b\n" ++
                Digraph.graphLine (graphAttributes direction spacing) ++ rest) := by
  obtain ⟨given, hgiven, hread⟩ := ofValue_eq_ok_iff.1 h
  obtain ⟨-, hfrom, hfit⟩ := ofFields_eq_ok_iff.1 hread
  obtain ⟨hedges, hlayout, -⟩ := Section.forall_iff.1 hfrom
  obtain ⟨-, -, hwidth, -⟩ := completes_edges_iff.1 hedges
  obtain ⟨-, -, -, htimeout⟩ := completes_layout_iff.1 hlayout
  -- What settings write is read off them, so their options are what they are made of.
  have hcolor : optionIn s.toValue .edges (.text "color") = some .null ∨
      ∃ color, optionIn s.toValue .edges (.text "color") = some (.text color) := by
    have hwritten : optionIn s.toValue .edges (.text "color") = some (colorValue s.edges.color) :=
      find?_color s.edges
    rw [hwritten]
    cases s.edges.color with
    | none => exact .inl rfl
    | some color => exact .inr ⟨color, rfl⟩
  have hwidthDefault : ({} : EdgeDefaults).width.IsPositive := by
    show (0 : Float) < 2.0
    decide +kernel
  have htimeoutDefault : ({} : Options).timeout.IsPositive := by
    show (0 : Float) < 10.0
    decide +kernel
  have hlaidOut : ∀ write nodes edges,
      Graphviz.call write nodes edges s.layout =
        (dotSource write nodes edges s.layout.direction s.layout.spacing).map fun source =>
          ⟨["dot", "-K" ++ s.layout.algorithm.engine.name, "-Tjson"], source⟩ := by
    intro write nodes edges
    rw [Graphviz.call]
    cases dotSource write nodes edges s.layout.direction s.layout.spacing <;> rfl
  refine ⟨given, hgiven, ⟨s.edges.kind, rfl, hfit.kind⟩, ⟨s.edges.animated, rfl⟩, hcolor,
    isMeasured_of_completes rfl hwidth hwidthDefault hfit.width,
    isMeasured_of_completes rfl htimeout htimeoutDefault hfit.timeout,
    ⟨s.keepPositions, rfl⟩, ⟨s.followDocument, rfl⟩, s.layout.direction, s.layout.algorithm,
    s.layout.spacing, Direction.mem_all _, rfl, ⟨_, rfl, Algorithm.ofName?_name _⟩,
    ⟨_, rfl, Spacing.ofName?_name _⟩, fun _ hline => graphLine_injective _ hline, ?_⟩
  intro write nodes edges
  exact ⟨hlaidOut write nodes edges, fun hwrite _ hsource => exists_source_eq hwrite hsource⟩

/-- A width that is no number is not above zero. -/
theorem nan_width_is_read :
    ∃ s n, ofValue (.record [("edge_defaults", .record [("stroke_width", .float (0.0 / 0.0))])]) =
        .ok s ∧
      optionIn s.toValue .edges (.text "stroke_width") = some (.number n) ∧ ¬n.IsPositive := by
  refine ⟨{ edges := { width := .float (0.0 / 0.0) } }, .float (0.0 / 0.0), rfl, rfl, ?_⟩
  show ¬(0 : Float) < 0.0 / 0.0
  decide +kernel

theorem given_width_is_usable :
    ∃ s, ofValue (.record [("edge_defaults", .record [("stroke_width", .int 3)])]) = .ok s ∧
      ∃ given, IsMeasured given s .edges "stroke_width" := by
  have hread : ofValue (.record [("edge_defaults", .record [("stroke_width", .int 3)])]) =
      .ok { edges := { width := .int 3 } } := rfl
  obtain ⟨given, -, -, -, -, hwidth, -⟩ := read_settings_are_usable hread
  exact ⟨_, hread, .object given, hwidth⟩

/-- Settings that have been read are read as they were once they are written, and every option in
them is what was given for it, or else its default. -/
theorem settings_come_back {payload : Fields} {s : Settings}
    (h : ofValue (.object payload) = .ok s) :
    ofValue s.toValue = .ok s ∧
    ∀ g key, (g = .top → ¬IsGroupKey key) →
      optionIn s.toValue g key =
        (optionIn (.object payload) g key).or (optionIn ({} : Settings).toValue g key) := by
  rw [ofValue_object, ofFields_eq_ok_iff] at h
  obtain ⟨hknown, hfrom, hfit⟩ := h
  constructor
  · have hread : ofFields s.toValue.fields = .ok s :=
      ofFields_eq_ok_iff.2 ⟨areKnown_toValue s, isCompletedBy_toValue s, hfit⟩
    rw [← hread]
    exact ofValue_object s.toValue.fields
  · intro g key hkey
    exact hfrom.optionIn_eq hknown hkey

/-- A null group leaves all its options at their defaults, and a direction is kept. -/
theorem partial_settings_come_back :
    ∃ s, ofValue (.record [("edge_defaults", .null),
        ("layout", .record [("direction", .text "LR")]), ("keep_positions", .flag true)]) = .ok s ∧
      ofValue s.toValue = .ok s ∧
      optionIn s.toValue .edges (.text "type") = some (.text "smoothstep") ∧
      optionIn s.toValue .layout (.text "direction") = some (.text "LR") := by
  have hread : ofValue (.record [("edge_defaults", .null),
      ("layout", .record [("direction", .text "LR")]), ("keep_positions", .flag true)]) =
      .ok { layout := { direction := .right }, keepPositions := true } := rfl
  obtain ⟨hback, hoptions⟩ := settings_come_back hread
  exact ⟨_, hread, hback, hoptions .edges (.text "type") nofun,
    hoptions .layout (.text "direction") nofun⟩

end Settings
end FlowCanvas
