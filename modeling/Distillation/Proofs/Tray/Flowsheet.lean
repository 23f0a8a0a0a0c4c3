import Distillation.Proofs.Tray.Locality
import Distillation.Proofs.Tray.Solution

namespace Distillation

section Building

variable {K : Type} [Scalar K]

theorem IdealPackage.declareState_extends (package : IdealPackage K) (label : String) (t : Nat) (spec : StateSpec K) :
    (package.declareState label t spec).Extends := by
  have flows : ∀ p, (package.components.mapM (createFlow label p)).Extends := fun p => .mapM fun c _ => .create _ _
  unfold declareState
  refine .bind (.ofExcept _) fun reference => .bind (.ofExcept _) fun _ => .bind (flows .liquid) fun liquid =>
    .bind (flows .vapor) fun vapor => .bind (.create _ _) fun temperature => .bind (.create _ _) fun pressure => ?_
  dsimp only
  split
  · exact .pure _
  · exact .pure _

namespace Tray

variable (package : IdealPackage K) (time : TimeSet K)

theorem declareStream_extends (label : String) (spec : StateSpec K) :
    (declareStream package.toPackage time label spec).Extends :=
  .mapM fun t _ => .mapError (.map (package.declareState_extends s!"{label}[{t}]" t spec) _) _

theorem declareFeed_extends (label : String) (spec : StateSpec K) (present : Bool) :
    (declareFeed package.toPackage time label spec present).Extends := by
  cases present with
  | false => exact .pure _
  | true => exact .map (declareStream_extends package time label spec) _

theorem declareStates_extends (name : String) (config : TrayConfig K) :
    (declareStates name config package.toPackage time).Extends := by
  unfold declareStates
  exact .bind (declareFeed_extends package time _ _ _) fun feeds => .bind (declareStream_extends package time _ _)
    fun liquids => .bind (declareStream_extends package time _ _) fun vapors =>
    .bind (declareStream_extends package time _ _) fun outlets => .pure _

omit [Scalar K] in
theorem optional_extends {E : Type} (present : Bool) (name : String) (value : K) :
    (Balances.optional present name value : Action K E _).Extends := by
  cases present with
  | false => exact .pure none
  | true => exact .map (.create name value) _

/-- To build is to add: no variable that was there is changed, also where the build fails. -/
theorem build_extends (name : String) (config : TrayConfig K) : (build name config package.toPackage time).Extends := by
  unfold build
  refine .bind (declareStates_extends package time name config) fun points => .bind ?_ fun balances =>
    .bind (optional_extends _ _ _) fun liquidSplit => .bind (optional_extends _ _ _) fun vaporSplit =>
    .bind (.ofExcept _) fun ports => .pure _
  unfold Balances.declare
  exact .bind (optional_extends _ _ _) fun heatDuty => .bind (optional_extends _ _ _) fun pressureDrop => .pure _

end Tray

end Building

/-- What a tray is asked for with. -/
structure TrayRequest (K : Type) where
  name : String
  config : TrayConfig K
  package : IdealPackage K
  time : TimeSet K

/-- Trays in the order of their building, in one store. -/
structure Flowsheet (K : Type) where
  trays : List (Tray K)
  store : Store K

/-- No variable of the tray and no value on its ports has changed from one store to the other. -/
structure Tray.Untouched {K : Type} [Scalar K] (tray : Tray K) (s t : Store K) : Prop where
  entries : ∀ v ∈ tray.declared, t.get? v = s.get? v
  ports : ∀ port ∈ tray.ports.inputs ++ tray.ports.outputs, ∀ name time key,
    port.value? name time key t = port.value? name time key s

variable {K : Type} [Scalar K]

theorem Tray.Anatomy.untouched {package : IdealPackage K} {tray : Tray K} {points : List (IdealPoint K)} {s t : Store K}
    (anatomy : Anatomy package tray points) (agree : s.Agree (· ∈ tray.declared) t) : tray.Untouched s t := by
  refine ⟨agree, fun port present name time key => ?_⟩
  rw [Port.value?, Port.value?]
  cases shown : port.term? name time key with
  | none => rfl
  | some e => exact congrArg some (agree.eval fun v occurs => anatomy.declared_of_port present shown occurs)

namespace Flowsheet

/-- Builds a further tray. A build that fails leaves the trays as they are, but not the store. -/
def build (sheet : Flowsheet K) (request : TrayRequest K) : Flowsheet K :=
  match (Tray.build request.name request.config request.package.toPackage request.time).on sheet.store with
  | (.ok tray, s) => ⟨sheet.trays ++ [tray], s⟩
  | (.error _, s) => ⟨sheet.trays, s⟩

/-- Flowsheets that come out of builds one after another, between which variables may be added, set, fixed and
freed at will. -/
inductive Built : Flowsheet K → Prop where
  | start (s : Store K) : Built ⟨[], s⟩
  | build {sheet : Flowsheet K} (request : TrayRequest K) (before : Built sheet) : Built (sheet.build request)
  | change {sheet : Flowsheet K} {t : Store K} (before : Built sheet) (later : sheet.store.Continues t) :
      Built ⟨sheet.trays, t⟩

theorem build_of_ok {sheet : Flowsheet K} (request : TrayRequest K) {tray : Tray K} {t : Store K} (before : Built sheet)
    (ran : (Tray.build request.name request.config request.package.toPackage request.time).on sheet.store = (.ok tray, t)) :
    Built ⟨sheet.trays ++ [tray], t⟩ := by
  have built := Built.build request before
  rwa [build, ran] at built

/-- Each tray stands in the store, and no two have a variable in common. -/
structure Separate (sheet : Flowsheet K) : Prop where
  placed : ∀ tray ∈ sheet.trays, ∃ package points, Tray.Placed package tray points sheet.store
  apart : sheet.trays.Pairwise fun a b => a.declared.Disjoint b.declared

variable {sheet : Flowsheet K}

namespace Separate

theorem change {t : Store K} (separate : sheet.Separate) (later : sheet.store.Continues t) :
    Separate ⟨sheet.trays, t⟩ := by
  refine ⟨fun tray inside => ?_, separate.apart⟩
  obtain ⟨package, points, placed⟩ := separate.placed tray inside
  exact ⟨package, points, placed.later later⟩

theorem build (separate : sheet.Separate) (request : TrayRequest K) : (sheet.build request).Separate := by
  have added := Tray.build_extends request.package request.time request.name request.config sheet.store
  rcases ran : (Tray.build request.name request.config request.package.toPackage request.time).on sheet.store with
    ⟨_ | tray, s⟩
  all_goals
    rw [ran] at added
    have later : sheet.store.Continues s := fun v old => congrArg (Option.map (·.name)) (added v old)
    have kept := separate.change later
    rw [Flowsheet.build, ran]
  · exact kept
  · obtain ⟨_, grown, _⟩ := Tray.build_eq_ok ran
    obtain ⟨points, placed⟩ := Tray.exists_placed ran (.refl s)
    refine ⟨fun other inside => ?_, List.pairwise_append.2 ⟨separate.apart, List.pairwise_singleton _ _, ?_⟩⟩
    · rcases List.mem_append.1 inside with old | new
      · exact kept.placed other old
      · exact ⟨request.package, points, List.mem_singleton.1 new ▸ placed⟩
    · intro other old new here v earlier own
      rw [List.mem_singleton.1 here] at own
      obtain ⟨package, points, stands⟩ := separate.placed other old
      have known := stands.known v ((stands.anatomy.sorted_perm stands.distinct).mem_iff.2 earlier)
      exact absurd (grown.mem_iff.1 own).1 (Nat.not_le_of_lt known)

end Separate

theorem Built.separate (built : sheet.Built) : sheet.Separate := by
  induction built with
  | start s => exact ⟨by simp, .nil⟩
  | build request _ ih => exact ih.build request
  | change _ later ih => exact ih.change later

theorem Separate.apart_of {i j : Nat} {a b : Tray K} (separate : sheet.Separate) (different : i ≠ j)
    (first : sheet.trays[i]? = some a) (second : sheet.trays[j]? = some b) : a.declared.Disjoint b.declared := by
  obtain ⟨bound, rfl⟩ := List.getElem?_eq_some_iff.1 first
  obtain ⟨bound', rfl⟩ := List.getElem?_eq_some_iff.1 second
  have ordered := List.pairwise_iff_getElem.1 separate.apart
  rcases Nat.lt_or_gt_of_ne different with before | after
  · exact ordered i j bound bound' before
  · exact (ordered j i bound' bound after).symm

/-- Two trays of one store have no variable in common, also where they have one name. To start one of them up
or to solve it, with whatever outcome, changes nothing on the other; and in any two stores that differ in the
variables of the other alone, both come to the same. -/
theorem trays_independent (built : sheet.Built) {i j : Nat} (different : i ≠ j) {a b : Tray K}
    (first : sheet.trays[i]? = some a) (second : sheet.trays[j]? = some b) (engine : Newton.Engine)
    (linear : Newton.LinearSolver K) (config : Newton.Config K) (args : StartupArgs K) :
    let start := fun s : Store K => Tray.startUp args (Newton.solverWith engine linear config) ⟨a, (), s⟩
    let run := Newton.run engine linear config a.toModel
    let solve := Newton.solve engine linear config a.toModel
    a.declared.Disjoint b.declared ∧
    (sheet.trays.set i (start sheet.store).2.tray)[j]? = some b ∧
    b.Untouched sheet.store (start sheet.store).2.store ∧ b.Untouched sheet.store (run sheet.store).store ∧
    b.Untouched sheet.store (solve sheet.store).2 ∧
    ∀ s, sheet.store.Agree (· ∉ b.declared) s →
      ((start s).1 = (start sheet.store).1 ∧ (start sheet.store).2.Agree (· ∉ b.declared) (start s).2) ∧
      (run sheet.store).Agree (· ∉ b.declared) (run s) ∧
      (solve s).1 = (solve sheet.store).1 ∧ (solve sheet.store).2.Agree (· ∉ b.declared) (solve s).2 := by
  intro start run solve
  have separate := built.separate
  have apart := separate.apart_of different first second
  obtain ⟨package, points, placed⟩ := separate.placed a (List.mem_of_getElem? first)
  obtain ⟨package', points', placed'⟩ := separate.placed b (List.mem_of_getElem? second)
  have operating : ∀ v ∈ a.operating, v ∉ b.declared := fun v own => apart (List.mem_append_left _ own)
  have equations : ∀ stage, ∀ v ∈ (a.equipped stage).toModel.referenced, v ∉ b.declared := fun stage v listed =>
    operating v (placed.anatomy.operating_of_referenced listed)
  have solved : ∀ v ∈ a.toModel.referenced, v ∉ b.declared := placed.anatomy.equipped_full ▸ equations .full
  have spared {s t : Store K} (changed : s.Agree (· ∉ a.toModel.referenced) t) : b.Untouched s t :=
    placed'.anatomy.untouched (changed.mono fun v own listed => solved v listed own)
  refine ⟨apart, ?_, ?_, ?_, ?_, fun s agree => ⟨?_, ?_, ?_⟩⟩
  · rw [List.getElem?_set_ne different]
    exact second
  · have changed := placed.anatomy.startUp_hidden
      (fun stage => Newton.solverWith_confined engine linear config (a.equipped stage).toModel) args () sheet.store
    exact placed'.anatomy.untouched (changed.mono fun v own inside => operating v inside own)
  · exact spared (Newton.agree_of_rewritten _ (Newton.run_rewritten engine linear config a.toModel sheet.store))
  · exact spared (Newton.agree_of_rewritten _ (Newton.solve_rewritten engine linear config a.toModel sheet.store))
  · have splits : ∀ v ∈ a.splits, v ∉ b.declared := fun v own => apart (List.mem_append_right _ own)
    exact placed.anatomy.startUp_agree operating
      (fun stage => Newton.solverWith_local engine linear config (equations stage)) agree
      (fun v split => agree.isFixed (splits v split))
      (fun v split => congrArg (Option.map (·.name)) (agree v (splits v split))) args ()
  · exact Newton.run_agree engine linear config solved agree
  · exact Newton.solve_agree engine linear config solved agree

/-- Two trays of one name, the first of them prepared. It converges, whatever the second has in its variables. -/
theorem trays_independent_namesakes : ∃ (sheet : Flowsheet ℝ) (a b : Tray ℝ) (config : Newton.Config ℝ),
    sheet.Built ∧ 0 ≠ 1 ∧ sheet.trays[0]? = some a ∧ sheet.trays[1]? = some b ∧ a.name = b.name ∧
    let start := fun s : Store ℝ =>
      Tray.startUp ⟨[], [], [], 0⟩ (Newton.solverWith .exact Linear.solve config) ⟨a, (), s⟩
    let run := Newton.run .exact Linear.solve config a.toModel
    let solve := Newton.solve .exact Linear.solve config a.toModel
    let moved := sheet.store.fixAll (b.declared.map (·, 2))
    a.declared.Disjoint b.declared ∧ sheet.store.Agree (· ∉ b.declared) moved ∧
    (∃ report, report.isConverged = true ∧ (start sheet.store).1 = .completed report ∧
      (start moved).1 = .completed report) ∧
    b.Untouched sheet.store (start sheet.store).2.store ∧ b.Untouched sheet.store (run sheet.store).store ∧
    b.Untouched sheet.store (solve sheet.store).2 ∧
    (start sheet.store).2.Agree (· ∉ b.declared) (start moved).2 ∧
    (run sheet.store).Agree (· ∉ b.declared) (run moved) ∧
    (solve moved).1 = (solve sheet.store).1 ∧ (solve sheet.store).2.Agree (· ∉ b.declared) (solve moved).2 := by
  obtain ⟨a, s, b, t, first, second⟩ : ∃ (a : Tray ℝ) (s : Store ℝ) (b : Tray ℝ) (t : Store ℝ),
      (Tray.build "tray" .plain IdealPackage.benzeneToluene.toPackage .steady).on .empty =
        (.ok a, s) ∧
      (Tray.build "tray" .plain IdealPackage.benzeneToluene.toPackage .steady).on s =
        (.ok b, t) := ⟨_, _, _, _, rfl, rfl⟩
  have one : Built ⟨[a], s⟩ := build_of_ok ⟨"tray", .plain, .benzeneToluene, .steady⟩ (.start _) first
  have two : Built ⟨[a, b], t⟩ := build_of_ok ⟨"tray", .plain, .benzeneToluene, .steady⟩ one second
  have prepared : Built ⟨[a, b], a.prepare t⟩ := two.change (Tray.continues_prepare a t)
  have named : a.name = b.name :=
    (Tray.build_eq_ok first).1.name_eq.trans (Tray.build_eq_ok second).1.name_eq.symm
  have added : s.Continues t := by
    have extended := Tray.build_extends .benzeneToluene .steady "tray" .plain s
    rw [second] at extended
    exact fun v old => congrArg (Option.map (·.name)) (extended v old)
  obtain ⟨points, placed⟩ := Tray.exists_placed first added
  obtain ⟨report, after, started, converged⟩ :=
    placed.exists_converged_prepared IdealPackage.benzeneToluene_vaporizes .exact
  have hidden : (a.prepare t).Agree (· ∉ b.declared) ((a.prepare t).fixAll (b.declared.map (·, 2))) := by
    refine Store.Agree.fixAll_hidden (fun spec inside => ?_) _
    obtain ⟨v, own, rfl⟩ := List.mem_map.1 inside
    exact fun absent => absent own
  obtain ⟨apart, _, spared, sparedRun, sparedSolve, alike⟩ :=
    trays_independent prepared Nat.zero_ne_one rfl rfl .exact Linear.solve ⟨1, 3, 1, 1⟩ ⟨[], [], [], 0⟩
  obtain ⟨⟨result, ended⟩, runs, solved, ends⟩ := alike _ hidden
  have completed := congrArg Prod.fst started
  exact ⟨_, a, b, _, prepared, Nat.zero_ne_one, rfl, rfl, named, apart, hidden,
    ⟨report, converged, completed, result.trans completed⟩, spared, sparedRun, sparedSolve, ended, runs, solved, ends⟩

end Flowsheet

end Distillation
