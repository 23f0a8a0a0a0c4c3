import Mathlib.Analysis.Real.Sqrt
import Distillation.Proofs.Tray.Locality
import Distillation.Proofs.Tray.Solution

namespace Distillation.Tray

variable {K : Type} [Scalar K] {package : IdealPackage K} {tray : Tray K} {points : List (IdealPoint K)} {s : Store K}
  {p q : Phase} {fraction : VarId}

namespace Placed

variable (placed : Placed package tray points s)
include placed

/-- Each side draw has a split fraction of its own. -/
theorem phase_unique (here : tray.split? p = some fraction) (there : tray.split? q = some fraction) : p = q := by
  have distinct : tray.splits.Nodup := (List.nodup_append.1 placed.distinct).2.1
  have apart : ∀ v, tray.liquidSplit = some v → tray.vaporSplit ≠ some v := by
    intro v liquid vapor
    exact (List.nodup_append.1 distinct).2.2 v (Option.mem_toList.2 liquid) v (Option.mem_toList.2 vapor) rfl
  cases p <;> cases q
  · rfl
  · exact absurd there (apart fraction here)
  · exact absurd here (apart fraction there)
  · rfl

theorem operating_ne_split (drawn : tray.split? p = some fraction) {v : VarId} (own : v ∈ tray.operating) : v ≠ fraction := by
  rintro rfl
  exact placed.not_split_of_operating own (mem_splits_of_split? drawn)

/-- In stores that differ in a split fraction alone, the ports show the same but for the flows of its phase. -/
theorem ports_agree (drawn : tray.split? p = some fraction) {t u : Store K} (agree : t.Agree (· ≠ fraction) u) {port : Port K}
    (present : port ∈ tray.ports.inputs ++ tray.ports.outputs) {member : String}
    (other : port.name ∈ [p.drawPort, p.mainPort] → member ∉ ["flow_mol", "flow_mol_comp"]) (time : Nat)
    (key : Option Key) : port.value? member time key u = port.value? member time key t := by
  rw [Port.value?, Port.value?]
  cases shown : port.term? member time key with
  | none => rfl
  | some e =>
    refine congrArg some (agree.eval fun v occurs => ?_)
    rcases List.mem_append.1 present with entering | leaving
    · exact placed.operating_ne_split drawn (placed.anatomy.operating_of_input entering shown occurs)
    · rcases placed.anatomy.operating_of_output leaving shown occurs with own | ⟨flow, q, routed, outlet⟩
      · exact placed.operating_ne_split drawn own
      · rintro rfl
        have same : q = p := placed.phase_unique routed drawn
        exact other (by simpa [same] using outlet) (by simpa using flow)

end Placed

/-- A split fraction may be given any value: a start-up ends with the same result and the same values of all
other variables. Afterwards what the ports show is the same too, but for the flows through the side draw and
the main outlet of that phase. -/
theorem splits_route_flow {name : String} {config : TrayConfig K} {time : TimeSet K} {s₀ s₁ : Store K}
    (built : (build name config package.toPackage time).on s₀ = (.ok tray, s₁)) (later : s₁.Continues s)
    (drawn : tray.split? p = some fraction) (x : K) (engine : Newton.Engine) (linear : Newton.LinearSolver K)
    (settings : Newton.Config K) (args : StartupArgs K) :
    let start := fun s : Store K => startUp args (Newton.solverWith engine linear settings) ⟨tray, (), s⟩
    let moved := s.set fraction x
    (start moved).1 = (start s).1 ∧ (start moved).2.tray = (start s).2.tray ∧
    (∀ v, v ≠ fraction → (start moved).2.store.get? v = (start s).2.store.get? v) ∧
    ∀ port ∈ tray.ports.inputs ++ tray.ports.outputs, ∀ member,
      (port.name ∈ [p.drawPort, p.mainPort] → member ∉ ["flow_mol", "flow_mol_comp"]) → ∀ time key,
        port.value? member time key (start moved).2.store = port.value? member time key (start s).2.store := by
  intro start moved
  obtain ⟨points, placed⟩ := exists_placed built later
  have agree : s.Agree (· ≠ fraction) moved := Store.Agree.set_hidden s (fun other => other rfl) x
  have names : ∀ v, (moved.get? v).map (·.name) = (s.get? v).map (·.name) := by
    intro v
    change ((s.modify fraction _).get? v).map _ = _
    rw [Store.get?_modify]
    split
    · rw [Option.map_map]
      rfl
    · rfl
  have blind : ∀ stage, (Newton.solverWith engine linear settings).Local (· ≠ fraction) (tray.equipped stage).toModel :=
    fun stage => Newton.solverWith_local engine linear settings fun v listed =>
      placed.operating_ne_split drawn (placed.anatomy.operating_of_referenced listed)
  obtain ⟨result, ended⟩ := placed.anatomy.startUp_agree (fun v => placed.operating_ne_split drawn) blind agree
    (fun v _ => s.isFixed_set fraction v x) (fun v _ => names v) args ()
  refine ⟨result, ended.tray, ended.store, fun port present member other time key => ?_⟩
  exact placed.ports_agree drawn ended.store present other time key

/-- A prepared tray draws off all of its vapor. With half of it drawn off instead, the start-up converges alike. -/
theorem splits_route_flow_vapor : ∃ (tray : Tray ℝ) (fresh : Store ℝ) (fraction : VarId) (settings : Newton.Config ℝ),
    (build "tray" ⟨true, true, true, true, true, .empty⟩ IdealPackage.benzeneToluene.toPackage .steady).on .empty =
      (.ok tray, fresh) ∧ fresh.Continues (tray.prepare fresh) ∧ tray.split? .vapor = some fraction ∧
    let start := fun s : Store ℝ => startUp ⟨[], [], [], 0⟩ (Newton.solverWith .exact Linear.solve settings) ⟨tray, (), s⟩
    let s := tray.prepare fresh
    let moved := s.set fraction 0.5
    s.value fraction = 1 ∧ moved.value fraction = 0.5 ∧ s.isFixed fraction = true ∧
    (∃ report, report.isConverged = true ∧ (start s).1 = .completed report ∧ (start moved).1 = .completed report) ∧
    (∀ v, v ≠ fraction → (start moved).2.store.get? v = (start s).2.store.get? v) ∧
    ∀ port ∈ tray.ports.inputs ++ tray.ports.outputs, ∀ member,
      (port.name ∈ ["vap_side_draw", "vap_out"] → member ∉ ["flow_mol", "flow_mol_comp"]) → ∀ time key,
        port.value? member time key (start moved).2.store = port.value? member time key (start s).2.store := by
  obtain ⟨tray, fresh, fraction, built, drawn⟩ : ∃ (tray : Tray ℝ) (fresh : Store ℝ) (fraction : VarId),
      (build "tray" ⟨true, true, true, true, true, .empty⟩ IdealPackage.benzeneToluene.toPackage .steady).on .empty =
        (.ok tray, fresh) ∧ tray.split? .vapor = some fraction := ⟨_, _, _, rfl, rfl⟩
  have later := continues_prepare tray fresh
  obtain ⟨points, placed⟩ := exists_placed built (.refl fresh)
  obtain ⟨report, after, started, converged⟩ :=
    placed.exists_converged_prepared IdealPackage.benzeneToluene_vaporizes .exact
  have given : fraction ∈ tray.given := List.mem_append_right _ (mem_splits_of_split? drawn)
  have sorted : fraction ∈ tray.sorted := List.mem_append_left _ given
  have moves : ((tray.prepare fresh).set fraction 0.5).value fraction = 0.5 := by
    rw [Store.value_set, if_pos ⟨rfl, (placed.later later).known fraction sorted⟩]
  obtain ⟨result, _, others, ports⟩ :=
    splits_route_flow built later drawn 0.5 .exact Linear.solve ⟨1, 3, 1, 1⟩ ⟨[], [], [], 0⟩
  have completed := congrArg Prod.fst started
  exact ⟨tray, fresh, fraction, ⟨1, 3, 1, 1⟩, built, later, drawn, placed.value_prepare sorted, moves,
    placed.isFixed_prepare_given given, ⟨report, converged, completed, result.trans completed⟩, others, ports⟩

end Distillation.Tray
