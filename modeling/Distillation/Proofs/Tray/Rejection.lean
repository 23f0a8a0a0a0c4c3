import Distillation.Proofs.Tray.Locality
import Distillation.Proofs.Tray.Solution

namespace Distillation

variable {σ K : Type}

/-- The solver leaves fixed variables as they are. -/
def Solver.SparesFixed (solver : Solver σ K) : Prop :=
  ∀ model trace memory s v, s.isFixed v = true → (solver.solve model trace (memory, s)).2.2.get? v = s.get? v

theorem Newton.sparesFixed_solverWith [Scalar K] (engine : Engine) (linear : LinearSolver K) (config : Config K) :
    (solverWith engine linear config).SparesFixed := by
  intro model trace memory s v fixed
  unfold solverWith
  dsimp only
  split
  · refine (solve_rewritten engine linear config model s).get? fun unknown => ?_
    obtain ⟨free, _⟩ := Model.mem_unknowns.1 unknown
    simp [fixed] at free
  · rfl

namespace Tray

section Stages

variable {solver : Solver σ K} {trace : Bool} {guess : Option (OutletGuess K)}

theorem arrange_outlets (guess : Option (OutletGuess K)) (stage : Stage) (now : Tray K) (s : Store K) :
    (arrange guess stage now s).1.outlets = now.outlets := by
  cases stage <;> rfl

theorem runStages_not_refused (stages : List Stage) :
    ∀ (reports : List (StageReport K)) (state : StartupState σ K) (error : TrayError),
      (runStages solver trace guess stages reports state).1 ≠ .refused error := by
  induction stages with
  | nil => exact fun reports state error refused => by cases refused
  | cons stage rest ih =>
    intro reports state error
    rw [runStages_cons]
    split
    · exact fun refused => by cases refused
    · exact ih _ _ error

/-- Fixed variables that are no levels of the outlet stay as they are through all stages. -/
theorem runStages_spares (spares : solver.SparesFixed) {v : VarId} (stages : List Stage) :
    ∀ (reports : List (StageReport K)) (state : StartupState σ K), v ∉ state.tray.outletTemperatures →
      v ∉ state.tray.outletPressures → state.store.isFixed v = true →
      (runStages solver trace guess stages reports state).2.store.get? v = state.store.get? v := by
  induction stages with
  | nil => exact fun _ _ _ _ _ => rfl
  | cons stage rest ih =>
    intro reports state temperature pressure fixed
    have outlets := arrange_outlets guess stage state.tray state.store
    have arranged : state.store.Agree (· = v) (arrange guess stage state.tray state.store).2 := by
      refine arrange_hidden (fun w level same => ?_) (fun w level same => ?_) guess stage state.store
      · exact temperature (same ▸ level)
      · exact pressure (same ▸ level)
    have kept := (spares (arrange guess stage state.tray state.store).1.toModel trace state.memory _ v
      ((arranged.isFixed rfl).trans fixed)).trans (arranged v rfl)
    rw [runStages_cons, solveStage_eq]
    rcases answer : solver.solve (arrange guess stage state.tray state.store).1.toModel trace
      (state.memory, (arrange guess stage state.tray state.store).2) with ⟨_ | outcome, memory, t⟩ <;>
      rw [answer] at kept
    · exact kept
    · refine (ih _ ⟨_, memory, t⟩ ?_ ?_ ?_).trans kept
      · rwa [outletTemperatures, outlets]
      · rwa [outletPressures, outlets]
      · rwa [Store.isFixed, kept]

end Stages

section StartUp

variable [Scalar K] {package : IdealPackage K} {tray : Tray K} {points : List (IdealPoint K)} {args : StartupArgs K}
  {solver : Solver σ K} {memory : σ} {s : Store K}

/-- A start-up that a guess has ended has done nothing but hand out guesses. -/
theorem startUp_eq_refused {e : PropertyError} {after : StartupState σ K}
    (ran : startUp args solver ⟨tray, memory, s⟩ = (.refused (.property e), after)) :
    startUpCalls args solver ⟨tray, memory, s⟩ = [] ∧
      ∃ t, (tray.applyGuesses args).on s = (.error e, t) ∧ after = ⟨tray, memory, t⟩ := by
  unfold startUp at ran
  cases free : tray.freeSplit? s with
  | some v => simp [free] at ran
  | none =>
    rcases guessed : (tray.applyGuesses args).on s with ⟨other | _, t⟩
    · simp only [free, guessed, Prod.mk.injEq, Startup.refused.injEq, TrayError.property.injEq] at ran
      obtain ⟨rfl, rfl⟩ := ran
      exact ⟨by simp [startUpCalls, startUp, free, guessed], t, rfl, rfl⟩
    · simp only [free, guessed] at ran
      exact absurd (congrArg Prod.fst ran) (runStages_not_refused _ _ _ _)

/-- With a solver that spares fixed variables, a start-up changes no others of them than levels of the outlet, and
none at all where it is refused. -/
theorem Anatomy.startUp_spares (anatomy : Anatomy package tray points) (spares : solver.SparesFixed) {v : VarId}
    (fixed : s.isFixed v = true)
    (spared : (v ∉ tray.outletTemperatures ∧ v ∉ tray.outletPressures) ∨
      ∃ error, (startUp args solver ⟨tray, memory, s⟩).1 = .refused error) :
    (startUp args solver ⟨tray, memory, s⟩).2.store.get? v = s.get? v := by
  have guessed := anatomy.applyGuesses_guesses args s
  unfold startUp at spared ⊢
  cases free : tray.freeSplit? s with
  | some w => rfl
  | none =>
    simp only [free] at spared ⊢
    rcases ran : (tray.applyGuesses args).on s with ⟨e | _, t⟩ <;> rw [ran] at guessed spared <;> dsimp only at spared ⊢
    · exact guessed.kept v fun _ => fixed
    · rcases spared with ⟨temperature, pressure⟩ | ⟨error, refused⟩
      · rw [runStages_spares spares _ _ _ temperature pressure ((guessed.isFixed v).trans fixed)]
        exact guessed.kept v fun _ => fixed
      · exact absurd refused (runStages_not_refused _ _ _ error)

/-- A hand-out that is refused stops at one state, and of all that it was to hand out only the guesses up to there
count. -/
theorem Anatomy.handOut_refused (anatomy : Anatomy package tray points) {t : Store K} {e : PropertyError}
    {handed : List (PropertyState K × List (Guess K))} (own : ∀ entry ∈ handed, entry.1 ∈ tray.inlets)
    (refused : (handOut handed).on s = (.error e, t)) :
    ∃ done state guesses rest u, handed = done ++ (state, guesses) :: rest ∧ (handOut done).on s = (.ok (), u) ∧
      (state.applyGuesses guesses).on u = (.error e, t) ∧ s.Offered t fun v x => ∃ entry ∈ done ++ [(state, guesses)],
        v ∈ entry.1.vars ∧ ∃ guess ∈ entry.2, entry.1.Names guess v ∧ guess.value = x := by
  obtain ⟨done, ⟨state, guesses⟩, rest, u, rfl, begun, failed⟩ := Action.exists_of_on_forM_error refused
  have ended : (handOut (done ++ [(state, guesses)])).on s = (.error e, t) := by
    change (handOut done).on s = _ at begun
    rw [handOut_append, Action.on_bind_of_ok begun]
    change (state.applyGuesses guesses >>= fun _ => pure ()).on u = _
    rw [Action.on_bind, failed]
  have started : done ++ [(state, guesses)] <+: done ++ (state, guesses) :: rest := ⟨rest, by simp⟩
  have offered := anatomy.handOut_offers (fun entry inside => own entry (started.subset inside)) s
  rw [ended] at offered
  exact ⟨done, state, guesses, rest, u, rfl, begun, failed, offered⟩

/-- The states of the inlets have no variables in common with the outlet and the equipment. -/
theorem Placed.not_mem_inlets (placed : Placed package tray points s) {v : VarId}
    (other : v ∈ tray.outlets.flatMap (·.vars) ++ tray.balances.heatDuty.toList ++
      tray.balances.pressureDrop.toList ++ tray.splits) :
    v ∉ tray.inlets.flatMap (·.vars) := by
  have distinct := placed.distinct
  have divided : tray.states = tray.inlets ++ tray.outlets := rfl
  rw [declared, divided, List.flatMap_append, List.append_assoc, List.append_assoc, List.append_assoc] at distinct
  rw [List.append_assoc, List.append_assoc] at other
  exact fun inside => (List.nodup_append.1 distinct).2.2 v inside v other rfl

/-- A start-up that a guess has ended has called no solver and switched and fixed nothing. All the guesses of some
inlets, in the order of the streams and of time, were accepted before one state refused its own, and what has changed
are free variables of these states, each of which now has a value that it was guessed. Newton's method or not, what is
fixed stays as it is where the start-up is refused; with Newton's method it does so in any case, but for the levels of
the outlet. -/
theorem startUp_frame {name : String} {equipment : TrayConfig K} {time : TimeSet K} {s₀ s₁ s : Store K}
    (built : (build name equipment package.toPackage time).on s₀ = (.ok tray, s₁)) (later : s₁.Continues s)
    (args : StartupArgs K) :
    (∀ {σ : Type} (solver : Solver σ K) (memory : σ) (e : PropertyError) (after : StartupState σ K),
      startUp args solver ⟨tray, memory, s⟩ = (.refused (.property e), after) →
      startUpCalls args solver ⟨tray, memory, s⟩ = [] ∧ after.memory = memory ∧ after.tray = tray ∧
        (∀ v, after.store.isFixed v = s.isFixed v) ∧
        (∀ v ∈ tray.outlets.flatMap (·.vars) ++ tray.balances.heatDuty.toList ++
          tray.balances.pressureDrop.toList ++ tray.splits, after.store.get? v = s.get? v) ∧
        ∃ done state guesses rest t, tray.guessed args = done ++ (state, guesses) :: rest ∧
          (handOut done).on s = (.ok (), t) ∧ (state.applyGuesses guesses).on t = (.error e, after.store) ∧
          ∀ v, after.store.get? v ≠ s.get? v → s.isFixed v = false ∧ ∃ entry ∈ done ++ [(state, guesses)],
            v ∈ entry.1.vars ∧ ∃ guess ∈ entry.2, entry.1.Names guess v ∧
              after.store.get? v = (s.get? v).map fun old => { old with value := guess.value }) ∧
    ∀ (engine : Newton.Engine) (linear : Newton.LinearSolver K) (config : Newton.Config K),
      let ended := startUp args (Newton.solverWith engine linear config) ⟨tray, (), s⟩
      ∀ v, s.isFixed v = true → ((v ∉ tray.outletTemperatures ∧ v ∉ tray.outletPressures) ∨
        ∃ error, ended.1 = .refused error) → ended.2.store.get? v = s.get? v := by
  obtain ⟨points, placed⟩ := exists_placed built later
  refine ⟨fun solver memory e after ran => ?_, fun engine linear config v fixed spared => ?_⟩
  · obtain ⟨uncalled, t, refused, rfl⟩ := startUp_eq_refused ran
    have guessed := placed.anatomy.applyGuesses_guesses args s
    rw [refused] at guessed
    rw [placed.anatomy.on_applyGuesses] at refused
    obtain ⟨done, state, guesses, rest, u, order, begun, failed, offered⟩ :=
      placed.anatomy.handOut_refused (fun _ => mem_inlets_of_guessed) refused
    refine ⟨uncalled, rfl, rfl, guessed.isFixed, fun v other => guessed.kept v fun inside => ?_,
      done, state, guesses, rest, u, order, begun, failed, fun v changed => ?_⟩
    · exact absurd inside (placed.not_mem_inlets other)
    · obtain kept | ⟨free, _, ⟨entry, inside, own, guess, among, names, rfl⟩, taken⟩ := offered.taken v
      · exact absurd kept changed
      · exact ⟨free, entry, inside, own, guess, among, names, taken⟩
  · exact placed.anatomy.startUp_spares (Newton.sparesFixed_solverWith engine linear config) fixed spared

theorem startUp_frame_misfit : ∃ (tray : Tray Float) (s₁ : Store Float) (e : PropertyError)
    (after : StartupState Unit Float) (args : StartupArgs Float),
    (build "tray" ⟨true, false, false, true, true, .empty⟩ IdealPackage.benzeneToluene.toPackage .steady).on .empty =
      (.ok tray, s₁) ∧ s₁.Continues (s₁.fixAt 4 340) ∧
    startUp args Solver.idle ⟨tray, (), s₁.fixAt 4 340⟩ = (.refused (.property e), after) ∧
    startUpCalls args Solver.idle ⟨tray, (), s₁.fixAt 4 340⟩ = [] ∧ after.tray = tray ∧
    (∃ done state guesses rest t, tray.guessed args = done ++ (state, guesses) :: rest ∧
      (handOut done).on (s₁.fixAt 4 340) = (.ok (), t) ∧
      (state.applyGuesses guesses).on t = (.error e, after.store)) ∧
    (s₁.fixAt 4 340).isFixed 4 = true ∧ 4 ∉ tray.outletTemperatures ∧ 4 ∉ tray.outletPressures ∧
    (startUp ⟨[], [], [], 0⟩ (Newton.solverWith .exact Linear.solve ⟨1, 3, 1, 1⟩)
      ⟨tray, (), s₁.fixAt 4 340⟩).2.store.get? 4 = (s₁.fixAt 4 340).get? 4 := by
  obtain ⟨tray, s₁, e, after, built, ran, fixed, temperatures, pressures⟩ : ∃ (tray : Tray Float) (s₁ : Store Float)
      (e : PropertyError) (after : StartupState Unit Float),
      (build "tray" ⟨true, false, false, true, true, .empty⟩ IdealPackage.benzeneToluene.toPackage .steady).on .empty =
        (.ok tray, s₁) ∧
      startUp ⟨[⟨"temperature", none, 350⟩], [⟨"pressure", some (.phase .liquid), 1⟩], [], 0⟩ Solver.idle
        ⟨tray, (), s₁.fixAt 4 340⟩ = (.refused (.property e), after) ∧
      (s₁.fixAt 4 340).isFixed 4 = true ∧ tray.outletTemperatures = [22] ∧ tray.outletPressures = [23] :=
    ⟨_, _, _, _, rfl, rfl, rfl, rfl, rfl⟩
  have later := Store.Continues.fixAt s₁ 4 340
  obtain ⟨uncalled, _, same, _, _, done, state, guesses, rest, t, order, begun, failed, _⟩ :=
    (startUp_frame built later _).1 Solver.idle () e after ran
  have temperature : 4 ∉ tray.outletTemperatures := by simp [temperatures]
  have pressure : 4 ∉ tray.outletPressures := by simp [pressures]
  have spared := (startUp_frame built later ⟨[], [], [], 0⟩).2 .exact Linear.solve ⟨1, 3, 1, 1⟩ 4 fixed
    (.inl ⟨temperature, pressure⟩)
  exact ⟨tray, s₁, e, after, _, built, later, ran, uncalled, same,
    ⟨done, state, guesses, rest, t, order, begun, failed⟩, fixed, temperature, pressure, spared⟩

end StartUp

end Tray

end Distillation
