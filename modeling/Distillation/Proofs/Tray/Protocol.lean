import Distillation.Proofs.Tray.Guesses
import Distillation.Proofs.Tray.Stages

namespace Distillation

variable {σ K : Type}

/-- What a solver is shown when it is called, and what it answers. -/
structure SolverCall (K : Type) where
  model : Model K
  trace : Bool
  store : Store K
  outcome : Option (SolverOutcome K)

namespace Solver

/-- The same solver, keeping a list of its calls beside its memory. -/
def recorded (solver : Solver σ K) : Solver (σ × List (SolverCall K)) K where
  solve model trace state :=
    let answer := solver.solve model trace (state.1.1, state.2)
    (answer.1, (answer.2.1, state.1.2 ++ [⟨model, trace, state.2, answer.1⟩]), answer.2.2)

theorem solve_recorded (solver : Solver σ K) (model : Model K) (trace : Bool) (memory : σ)
    (log : List (SolverCall K)) (s : Store K) :
    solver.recorded.solve model trace ((memory, log), s) =
      let answer := solver.solve model trace (memory, s)
      (answer.1, (answer.2.1, log ++ [⟨model, trace, s, answer.1⟩]), answer.2.2) := rfl

/-- The solver leaves fixed flags alone. It may write any values and answer anything. -/
def KeepsFlags (solver : Solver σ K) : Prop :=
  ∀ model trace memory s v, (solver.solve model trace (memory, s)).2.2.isFixed v = s.isFixed v

/-- The solver never breaks off. -/
def Answers (solver : Solver σ K) : Prop :=
  ∀ model trace memory s, (solver.solve model trace (memory, s)).1.isSome = true

/-- Does nothing and is content. -/
def idle [Zero K] : Solver σ K where
  solve _ _ state := (some ⟨.optimal, .initial⟩, state)

end Solver

namespace SolverCall

/-- The families and flags that a call is to show at a stage of a start-up from `base`. -/
structure Shows (call : SolverCall K) (tray : Tray K) (base : Store K) (stage : Stage) : Prop where
  name : call.model.name = tray.name
  families : call.model.families =
    tray.families.map fun family => { family with active := stage.runs family.name }
  temperatures : ∀ v ∈ tray.outletTemperatures, call.store.isFixed v = !stage.energy
  pressures : ∀ v ∈ tray.outletPressures, call.store.isFixed v = !stage.pressure
  others : ∀ v, v ∉ tray.outletTemperatures → v ∉ tray.outletPressures →
    call.store.isFixed v = base.isFixed v

theorem Shows.rebase {call : SolverCall K} {tray : Tray K} {base s : Store K} {stage : Stage}
    (shown : call.Shows tray base stage) (same : ∀ v, base.isFixed v = s.isFixed v) : call.Shows tray s stage :=
  ⟨shown.name, shown.families, shown.temperatures, shown.pressures, fun v temperature pressure =>
    (shown.others v temperature pressure).trans (same v)⟩

/-- The call sees the values of `t`, but the levels of the outlet are guessed from the states of one
time point. -/
structure StartsFrom [Scalar K] (call : SolverCall K) (tray : Tray K) (t : Store K) (states : TrayStates K) :
    Prop where
  fed : ∀ feed ∈ states.feed, ∀ v ∈ tray.outletTemperatures, call.store.value v = t.value feed.temperature
  unfed : states.feed = none → ∀ v ∈ tray.outletTemperatures,
    call.store.value v = 0.5 * (t.value states.liquid.temperature + t.value states.vapor.temperature)
  pressures : ∀ v ∈ tray.outletPressures, call.store.value v = t.value states.vapor.pressure
  others : ∀ v, v ∉ tray.outletTemperatures → v ∉ tray.outletPressures → call.store.value v = t.value v

/-- The call is made with the tray as it is equipped for a stage, and the first one with the outlet
fixed at the guess. -/
structure IsAt (call : SolverCall K) (tray : Tray K) (base : Store K) (guess : Tray.OutletGuess K)
    (stage : Stage) : Prop where
  model : call.model = (tray.equipped stage).toModel
  flags : ∀ v, call.store.isFixed v = tray.heldAt base stage v
  first : stage.previous = none → call.store = tray.fixOutlets (some guess) base

end SolverCall

namespace Tray

/-- The calls that a start-up makes to its solver, in their order. -/
def startUpCalls [Scalar K] (args : StartupArgs K) (solver : Solver σ K) (state : StartupState σ K) :
    List (SolverCall K) :=
  (startUp args solver.recorded ⟨state.tray, (state.memory, []), state.store⟩).2.memory.2

section Run

variable (solver : Solver σ K) (trace : Bool) (guess : Option (OutletGuess K))

theorem solveStage_eq (state : StartupState σ K) :
    solveStage solver trace state =
      let answer := solver.solve state.tray.toModel trace (state.memory, state.store)
      (answer.1, ⟨state.tray, answer.2.1, answer.2.2⟩) := rfl

theorem runStages_cons (stage : Stage) (rest : List Stage) (reports : List (StageReport K))
    (state : StartupState σ K) :
    runStages solver trace guess (stage :: rest) reports state =
      match solveStage solver trace ⟨(arrange guess stage state.tray state.store).1, state.memory,
          (arrange guess stage state.tray state.store).2⟩ with
      | (none, after) => (.aborted stage, after)
      | (some outcome, after) => runStages solver trace guess rest (reports ++ [⟨stage, outcome⟩]) after := by
  rw [runStages]
  rcases arrange guess stage state.tray state.store with ⟨tray, store⟩
  dsimp only
  rcases solveStage solver trace ⟨tray, state.memory, store⟩ with ⟨_ | outcome, after⟩ <;> rfl

/-- The calls of some stages. -/
def stageCalls : List Stage → StartupState σ K → List (SolverCall K)
  | [], _ => []
  | stage :: rest, state =>
    let (tray, store) := arrange guess stage state.tray state.store
    let (outcome, after) := solveStage solver trace ⟨tray, state.memory, store⟩
    ⟨tray.toModel, trace, store, outcome⟩ :: outcome.elim [] fun _ => stageCalls rest after

/-- Recording does not disturb a run. -/
theorem runStages_recorded (stages : List Stage) :
    ∀ (reports : List (StageReport K)) (tray : Tray K) (memory : σ) (log : List (SolverCall K)) (s : Store K),
      runStages solver.recorded trace guess stages reports ⟨tray, (memory, log), s⟩ =
        let ended := runStages solver trace guess stages reports ⟨tray, memory, s⟩
        let calls := stageCalls solver trace guess stages ⟨tray, memory, s⟩
        (ended.1, ⟨ended.2.tray, (ended.2.memory, log ++ calls), ended.2.store⟩) := by
  induction stages with
  | nil => intro reports tray memory log s; simp [runStages, stageCalls]
  | cons stage rest ih =>
    intro reports tray memory log s
    simp only [runStages_cons, stageCalls, solveStage_eq, Solver.solve_recorded]
    rcases solver.solve (arrange guess stage tray s).1.toModel trace (memory, (arrange guess stage tray s).2) with
      ⟨_ | outcome, later, t⟩
    · rfl
    · simp only [ih, List.append_assoc, List.singleton_append, Option.elim_some]

end Run

section Calls

variable {tray : Tray K} {base : Store K} {guess : OutletGuess K} {solver : Solver σ K} {trace : Bool}

/-- Every call of a run is made at its stage, also where the solver breaks off. -/
theorem stageCalls_at (keeps : solver.KeepsFlags)
    (known : ∀ v, v ∈ tray.outletTemperatures ∨ v ∈ tray.outletPressures → v < base.size)
    (stages : List Stage) : ∀ (last : Option Stage) (state : StartupState σ K),
      Stage.Successive last stages → tray.Reached base last state.tray state.store →
      ∃ done, done <+: stages ∧ List.Forall₂ (fun stage call => call.IsAt tray base guess stage) done
        (stageCalls solver trace (some guess) stages state) := by
  induction stages with
  | nil => exact fun _ _ _ _ => ⟨[], List.nil_prefix, .nil⟩
  | cons stage rest ih =>
    rintro last state ⟨follows, successive⟩ reached
    obtain ⟨equipped, flags⟩ := arrange_of_reached known follows reached guess
    have first : stage.previous = none →
        (arrange (some guess) stage state.tray state.store).2 = tray.fixOutlets (some guess) base := by
      intro opening
      subst follows
      cases stage with
      | massBalance =>
        obtain ⟨sameTray, sameStore⟩ := reached
        rw [sameTray, sameStore]
        rfl
      | massEnergyBalance => cases opening
      | full => cases opening
    have here : ∀ outcome, SolverCall.IsAt ⟨(arrange (some guess) stage state.tray state.store).1.toModel, trace,
        (arrange (some guess) stage state.tray state.store).2, outcome⟩ tray base guess stage :=
      fun outcome => ⟨congrArg toModel equipped, flags, first⟩
    have kept := keeps (arrange (some guess) stage state.tray state.store).1.toModel trace state.memory
      (arrange (some guess) stage state.tray state.store).2
    simp only [stageCalls, solveStage_eq]
    rcases answer : solver.solve (arrange (some guess) stage state.tray state.store).1.toModel trace
      (state.memory, (arrange (some guess) stage state.tray state.store).2) with ⟨_ | outcome, memory, t⟩
    · exact ⟨[stage], by simp, .cons (here _) .nil⟩
    · rw [answer] at kept
      obtain ⟨done, started, calls⟩ := ih (some stage) ⟨_, memory, t⟩ successive
        ⟨equipped, fun v => (kept v).trans (flags v)⟩
      exact ⟨stage :: done, by simpa using started, .cons (here _) calls⟩

/-- A completed run has called the solver once for each stage and reports what it has answered. -/
theorem runStages_completed (keeps : solver.KeepsFlags)
    (known : ∀ v, v ∈ tray.outletTemperatures ∨ v ∈ tray.outletPressures → v < base.size)
    (stages : List Stage) : ∀ (last : Option Stage) (reports : List (StageReport K))
      (state after : StartupState σ K) (report : StartupReport K), Stage.Successive last stages →
      tray.Reached base last state.tray state.store →
      runStages solver trace (some guess) stages reports state = (.completed report, after) →
      tray.Reached base (stages.getLast?.or last) after.tray after.store ∧
      (stageCalls solver trace (some guess) stages state).length = stages.length ∧
      report.stages.map (fun entry => (entry.stage, some entry.outcome)) =
        reports.map (fun entry => (entry.stage, some entry.outcome)) ++
          stages.zip ((stageCalls solver trace (some guess) stages state).map (·.outcome)) := by
  induction stages with
  | nil =>
    intro last reports state after report _ reached ran
    cases ran
    exact ⟨by simpa using reached, rfl, by simp⟩
  | cons stage rest ih =>
    rintro last reports state after report ⟨follows, successive⟩ reached ran
    obtain ⟨equipped, flags⟩ := arrange_of_reached known follows reached guess
    have kept := keeps (arrange (some guess) stage state.tray state.store).1.toModel trace state.memory
      (arrange (some guess) stage state.tray state.store).2
    rw [runStages_cons] at ran
    simp only [stageCalls, solveStage_eq] at ran ⊢
    rcases answer : solver.solve (arrange (some guess) stage state.tray state.store).1.toModel trace
      (state.memory, (arrange (some guess) stage state.tray state.store).2) with ⟨_ | outcome, memory, t⟩
    · rw [answer] at ran
      cases ran
    · rw [answer] at kept ran
      obtain ⟨ended, count, reported⟩ := ih (some stage) _ _ after report successive
        ⟨equipped, fun v => (kept v).trans (flags v)⟩ ran
      refine ⟨?_, by simpa using count, by simpa using reported⟩
      cases later : rest.getLast? with
      | none => simpa [List.getLast?_cons, later] using ended
      | some final => simpa [List.getLast?_cons, later] using ended

end Calls

theorem runStages_completes {solver : Solver σ K} (answers : solver.Answers) (trace : Bool)
    (guess : Option (OutletGuess K)) (stages : List Stage) :
    ∀ (reports : List (StageReport K)) (state : StartupState σ K),
      ∃ report after, runStages solver trace guess stages reports state = (.completed report, after) := by
  induction stages with
  | nil => exact fun reports state => ⟨⟨reports⟩, state, rfl⟩
  | cons stage rest ih =>
    intro reports state
    have some := answers (arrange guess stage state.tray state.store).1.toModel trace state.memory
      (arrange guess stage state.tray state.store).2
    simp only [runStages_cons, solveStage_eq]
    cases answer : (solver.solve (arrange guess stage state.tray state.store).1.toModel trace
      (state.memory, (arrange guess stage state.tray state.store).2)).1 with
    | none => simp [answer] at some
    | some outcome => exact ih _ _

section StartUp

variable [Scalar K] {package : IdealPackage K} {tray : Tray K} {points : List (IdealPoint K)}

theorem startsFrom_of_isAt {call : SolverCall K} {t : Store K} {states : TrayStates K}
    (apart : ∀ v ∈ tray.outletTemperatures, v ∉ tray.outletPressures)
    (known : ∀ v, v ∈ tray.outletTemperatures ∨ v ∈ tray.outletPressures → v < t.size)
    (isAt : call.IsAt tray t ⟨temperatureGuess t states, t.value states.vapor.pressure⟩ .massBalance) :
    call.StartsFrom tray t states := by
  obtain ⟨temperatures, pressures⟩ := value_fixOutlets
    ⟨temperatureGuess t states, t.value states.vapor.pressure⟩ apart known
  rw [← isAt.first rfl] at temperatures pressures
  refine ⟨fun feed present v level => ?_, fun absent v level => ?_, pressures, fun v temperature pressure => ?_⟩
  · rw [temperatures v level, temperatureGuess, Option.mem_def.1 present]
  · rw [temperatures v level, temperatureGuess, absent]
  · rw [isAt.first rfl, value_fixOutlets_of_not_mem _ temperature pressure]

theorem Anatomy.shows_of_isAt (anatomy : Anatomy package tray points) {call : SolverCall K} {base : Store K}
    {guess : OutletGuess K} {stage : Stage} (apart : ∀ v ∈ tray.outletPressures, v ∉ tray.outletTemperatures)
    (isAt : call.IsAt tray base guess stage) : call.Shows tray base stage := by
  refine ⟨?_, ?_, fun v level => ?_, fun v level => ?_, fun v temperature pressure => ?_⟩
  · rw [isAt.model]
    rfl
  · rw [isAt.model]
    exact anatomy.equipped_families stage
  · rw [isAt.flags, heldAt, if_pos level]
  · rw [isAt.flags, heldAt, if_neg (apart v level), if_pos level]
  · rw [isAt.flags, heldAt, if_neg temperature, if_neg pressure]

/-- Without a refusal a start-up is the run of all stages on the store that the guesses have led to. -/
theorem startUp_of_accepted {args : StartupArgs K} {solver : Solver σ K} {memory : σ} {s t : Store K}
    (fixed : ∀ v ∈ tray.splits, s.isFixed v = true) (accepted : (tray.applyGuesses args).on s = (.ok (), t)) :
    startUp args solver ⟨tray, memory, s⟩ =
      runStages solver (decide (traceVerbosity < args.verbosity)) (tray.outletGuess? t) Stage.all []
        ⟨tray, memory, t⟩ := by
  have none : tray.freeSplit? s = none := List.find?_eq_none.2 (by simpa using fixed)
  simp only [startUp, none, accepted]

theorem startUpCalls_of_accepted {args : StartupArgs K} {solver : Solver σ K} {memory : σ} {s t : Store K}
    (fixed : ∀ v ∈ tray.splits, s.isFixed v = true) (accepted : (tray.applyGuesses args).on s = (.ok (), t)) :
    startUpCalls args solver ⟨tray, memory, s⟩ =
      stageCalls solver (decide (traceVerbosity < args.verbosity)) (tray.outletGuess? t) Stage.all
        ⟨tray, memory, t⟩ := by
  rw [startUpCalls, startUp_of_accepted fixed accepted, runStages_recorded]
  rfl

/-- A start-up that completes has found every split fixed and every guess accepted. -/
theorem accepted_of_completed {args : StartupArgs K} {solver : Solver σ K} {memory : σ} {s : Store K}
    {report : StartupReport K} {after : StartupState σ K}
    (ran : startUp args solver ⟨tray, memory, s⟩ = (.completed report, after)) :
    (∀ v ∈ tray.splits, s.isFixed v = true) ∧ ∃ t, (tray.applyGuesses args).on s = (.ok (), t) := by
  unfold startUp at ran
  split at ran
  · cases ran
  · rename_i none
    split at ran
    · cases ran
    · rename_i t accepted
      exact ⟨by simpa [freeSplit?] using none, t, accepted⟩

theorem startUp_completes {args : StartupArgs K} {solver : Solver σ K} {s t : Store K} (answers : solver.Answers)
    (fixed : ∀ v ∈ tray.splits, s.isFixed v = true) (accepted : (tray.applyGuesses args).on s = (.ok (), t))
    (memory : σ) : ∃ report after, startUp args solver ⟨tray, memory, s⟩ = (.completed report, after) := by
  rw [startUp_of_accepted fixed accepted]
  exact runStages_completes answers _ _ _ _ _

theorem startUp_of_freeSplit {args : StartupArgs K} {solver : Solver σ K} {memory : σ} {s : Store K} {v : VarId}
    {fraction : String} (free : tray.freeSplit? s = some v) (named : (s.get? v).map (·.name) = some fraction) :
    startUp args solver ⟨tray, memory, s⟩ = (.refused (.unfixedSplitFraction fraction), ⟨tray, memory, s⟩) ∧
      startUpCalls args solver ⟨tray, memory, s⟩ = [] := by
  obtain ⟨entry, found, rfl⟩ := Option.map_eq_some_iff.1 named
  simp [startUp, startUpCalls, free, found]

theorem Placed.known_levels {s : Store K} (placed : Placed package tray points s) (v : VarId)
    (level : v ∈ tray.outletTemperatures ∨ v ∈ tray.outletPressures) : v < s.size :=
  placed.known v (by simp [sorted, level])

theorem Placed.known_after_guesses {s t : Store K} (placed : Placed package tray points s) {args : StartupArgs K}
    {result : Except PropertyError Unit} (guessed : (tray.applyGuesses args).on s = (result, t)) :
    (∀ v, t.isFixed v = s.isFixed v) ∧
      ∀ v, v ∈ tray.outletTemperatures ∨ v ∈ tray.outletPressures → v < t.size := by
  have changed := placed.anatomy.applyGuesses_guesses args s
  rw [guessed] at changed
  refine ⟨changed.isFixed, fun v level => ?_⟩
  rw [changed.size]
  exact placed.known_levels v level

/-- However a start-up ends, its calls are made at its stages in their order. -/
theorem Placed.startUpCalls_at {s : Store K} (placed : Placed package tray points s) (args : StartupArgs K)
    {solver : Solver σ K} (keeps : solver.KeepsFlags) (memory : σ) :
    ∃ base guess, (∀ v, base.isFixed v = s.isFixed v) ∧ ∃ done, done <+: Stage.all ∧
      List.Forall₂ (fun stage call => call.IsAt tray base guess stage) done
        (startUpCalls args solver ⟨tray, memory, s⟩) := by
  have nothing (calls : List (SolverCall K)) (none : calls = []) (guess : OutletGuess K) :
      ∃ done, done <+: Stage.all ∧
        List.Forall₂ (fun stage call => call.IsAt tray s guess stage) done calls :=
    ⟨[], List.nil_prefix, none ▸ .nil⟩
  cases free : tray.freeSplit? s with
  | some v => exact ⟨s, ⟨0, 0⟩, fun _ => rfl, nothing _ (by simp [startUpCalls, startUp, free]) _⟩
  | none =>
    rcases guessed : (tray.applyGuesses args).on s with ⟨_ | _, t⟩
    · exact ⟨s, ⟨0, 0⟩, fun _ => rfl, nothing _ (by simp [startUpCalls, startUp, free, guessed]) _⟩
    · obtain ⟨same, known⟩ := placed.known_after_guesses guessed
      obtain ⟨point, head, guessEq⟩ := placed.anatomy.outletGuess?_eq t
      have fixed : ∀ v ∈ tray.splits, s.isFixed v = true := by simpa [freeSplit?] using free
      rw [startUpCalls_of_accepted fixed guessed, guessEq]
      exact ⟨t, _, same, stageCalls_at keeps known Stage.all none ⟨tray, memory, t⟩ Stage.successive_all ⟨rfl, rfl⟩⟩

/-- A start-up that completes has made one call at each stage and reports their outcomes. -/
theorem Placed.startUp_completed {s : Store K} (placed : Placed package tray points s) {args : StartupArgs K}
    {solver : Solver σ K} (keeps : solver.KeepsFlags) {memory : σ} {report : StartupReport K}
    {after : StartupState σ K} (ran : startUp args solver ⟨tray, memory, s⟩ = (.completed report, after)) :
    ∃ t, ∃ point ∈ points.head?, (tray.applyGuesses args).on s = (.ok (), t) ∧
      List.Forall₂ (fun stage call => call.IsAt tray t
        ⟨temperatureGuess t point.toStates, t.value point.vapor.pressure⟩ stage) Stage.all
        (startUpCalls args solver ⟨tray, memory, s⟩) ∧
      tray.Reached t (some .full) after.tray after.store ∧
      report.stages.map (fun entry => (entry.stage, some entry.outcome)) =
        Stage.all.zip ((startUpCalls args solver ⟨tray, memory, s⟩).map (·.outcome)) := by
  obtain ⟨fixed, t, accepted⟩ := accepted_of_completed ran
  obtain ⟨_, known⟩ := placed.known_after_guesses accepted
  obtain ⟨point, head, guessEq⟩ := placed.anatomy.outletGuess?_eq t
  rw [startUp_of_accepted fixed accepted, guessEq] at ran
  obtain ⟨reached, count, reported⟩ := runStages_completed keeps known Stage.all none [] _ after report
    Stage.successive_all ⟨rfl, rfl⟩ ran
  obtain ⟨done, started, calls⟩ := stageCalls_at keeps known Stage.all none ⟨tray, memory, t⟩
    Stage.successive_all ⟨rfl, rfl⟩
  have all : done = Stage.all := started.eq_of_length (calls.length_eq.trans count)
  rw [startUpCalls_of_accepted fixed accepted, guessEq]
  exact ⟨t, point, head, accepted, all ▸ calls, reached, reported⟩

/-- Where some split fraction is free nothing happens at all. Otherwise a start-up that completes has
called its solver three times: without the energy and pressure balances and with the outlet held at the
guesses, then with the energy balance and the outlet temperature free, then with everything. -/
theorem startUp_protocol {name : String} {config : TrayConfig K} {time : TimeSet K} {s₀ s₁ s : Store K}
    (built : (build name config package.toPackage time).on s₀ = (.ok tray, s₁)) (later : s₁.Continues s)
    (args : StartupArgs K) {solver : Solver σ K} (keeps : solver.KeepsFlags) (memory : σ) :
    let begun : StartupState σ K := ⟨tray, memory, s⟩
    (tray.liquidSplit.isSome = config.liquidDraw ∧ tray.vaporSplit.isSome = config.vaporDraw ∧
      tray.outlets.length = time.count) ∧
    ((∃ v ∈ tray.liquidSplit, s.isFixed v = false) →
      startUp args solver begun = (.refused (.unfixedSplitFraction s!"{name}.liq_side_sf"), begun) ∧
        startUpCalls args solver begun = []) ∧
    ((∀ v ∈ tray.liquidSplit, s.isFixed v = true) → (∃ v ∈ tray.vaporSplit, s.isFixed v = false) →
      startUp args solver begun = (.refused (.unfixedSplitFraction s!"{name}.vap_side_sf"), begun) ∧
        startUpCalls args solver begun = []) ∧
    ((∀ v ∈ tray.splits, s.isFixed v = true) → ∀ report after,
      startUp args solver begun = (.completed report, after) →
      ∃ first second third t states, startUpCalls args solver begun = [first, second, third] ∧
        first.Shows tray s .massBalance ∧ second.Shows tray s .massEnergyBalance ∧ third.Shows tray s .full ∧
        (tray.applyGuesses args).on s = (.ok (), t) ∧ tray.points.head? = some states ∧
        states.feed.isSome = config.feed ∧ first.StartsFrom tray t states ∧
        report.stages.map (fun entry => (entry.stage, some entry.outcome)) =
          [(.massBalance, first.outcome), (.massEnergyBalance, second.outcome), (.full, third.outcome)] ∧
        after.tray = tray ∧ (∀ family ∈ after.tray.families, family.active = true) ∧
        ∀ v, after.store.isFixed v = if v ∈ tray.outletTemperatures ∨ v ∈ tray.outletPressures then false
          else s.isFixed v) := by
  intro begun
  obtain ⟨points, placed⟩ := exists_placed built later
  obtain ⟨labelled, grown, _⟩ := build_eq_ok built
  have anatomy := placed.anatomy
  have named : ∀ v ∈ tray.splits, (s.get? v).map (·.name) = (s₁.get? v).map (·.name) := by
    intro v split
    exact later v (grown.mem_iff.1 (List.mem_append_right _ split)).2
  have count : tray.outlets.length = time.count := by
    rw [anatomy.outlets_eq, List.length_map, anatomy.count, labelled.time_eq]
  refine ⟨⟨labelled.liquidDraw, labelled.vaporDraw, count⟩, ?_, ?_, fun fixed report after ran => ?_⟩
  · rintro ⟨v, split, free⟩
    refine startUp_of_freeSplit (v := v) ?_ ?_
    · simp [freeSplit?, splits, Option.mem_def.1 split, free]
    · rw [named v (by simp [splits, Option.mem_def.1 split]), labelled.liquidSplit v split]
  · rintro liquid ⟨v, split, free⟩
    refine startUp_of_freeSplit (v := v) ?_ ?_
    · have none : tray.liquidSplit.toList.find? (fun v => !s.isFixed v) = none :=
        List.find?_eq_none.2 (by simpa using liquid)
      simp [freeSplit?, splits, none, Option.mem_def.1 split, free]
    · rw [named v (by simp [splits, Option.mem_def.1 split]), labelled.vaporSplit v split]
  · obtain ⟨t, point, head, accepted, calls, reached, reported⟩ := placed.startUp_completed keeps ran
    obtain ⟨same, known⟩ := placed.known_after_guesses accepted
    generalize startUpCalls args solver begun = seen at calls reported ⊢
    change List.Forall₂ _ [Stage.massBalance, Stage.massEnergyBalance, Stage.full] seen at calls
    obtain _ | ⟨atFirst, _ | ⟨atSecond, _ | ⟨atThird, _ | _⟩⟩⟩ := calls
    have pressureApart : ∀ v ∈ tray.outletPressures, v ∉ tray.outletTemperatures :=
      fun v level => (placed.pressure_apart level).2
    obtain ⟨sameTray, flags⟩ := reached
    have restored : after.tray = tray := sameTray.trans anatomy.equipped_full
    have headInside := List.mem_of_mem_head? head
    refine ⟨_, _, _, t, point.toStates, rfl, ?_, ?_, ?_, accepted, ?_, ?_, ?_, reported, restored,
      fun family listed => anatomy.active (restored ▸ listed), fun v => ?_⟩
    · exact (anatomy.shows_of_isAt pressureApart atFirst).rebase same
    · exact (anatomy.shows_of_isAt pressureApart atSecond).rebase same
    · exact (anatomy.shows_of_isAt pressureApart atThird).rebase same
    · rw [anatomy.points_eq, List.head?_map, Option.mem_def.1 head]
      rfl
    · have fed := anatomy.feed point headInside
      rw [labelled.config_eq] at fed
      simpa [IdealPoint.toStates] using fed
    · exact startsFrom_of_isAt (fun v level => (placed.temperature_apart level).2) known atFirst
    · rw [flags, heldAt, same]
      simp only [Stage.energy, Stage.pressure]
      grind

theorem startUp_protocol_idle : ∃ (tray : Tray Float) (s : Store Float) (report : StartupReport Float)
    (after : StartupState Unit Float) (first second third : SolverCall Float),
    (build "tray" ⟨true, false, false, true, true, .empty⟩ IdealPackage.benzeneToluene.toPackage .steady).on .empty =
      (.ok tray, s) ∧ s.Continues s ∧ (Solver.idle : Solver Unit Float).KeepsFlags ∧
    startUp ⟨[], [], [], 0⟩ Solver.idle ⟨tray, (), s⟩ = (.completed report, after) ∧
    startUpCalls ⟨[], [], [], 0⟩ Solver.idle ⟨tray, (), s⟩ = [first, second, third] ∧
    first.Shows tray s .massBalance ∧ second.Shows tray s .massEnergyBalance ∧ third.Shows tray s .full ∧
    after.tray = tray := by
  obtain ⟨tray, s, report, after, built, ran, noSplits⟩ : ∃ (tray : Tray Float) (s : Store Float)
      (report : StartupReport Float) (after : StartupState Unit Float),
      (build "tray" ⟨true, false, false, true, true, .empty⟩ IdealPackage.benzeneToluene.toPackage .steady).on
        .empty = (.ok tray, s) ∧
      startUp ⟨[], [], [], 0⟩ Solver.idle ⟨tray, (), s⟩ = (.completed report, after) ∧ tray.splits = [] :=
    ⟨_, _, _, _, rfl, rfl, rfl⟩
  have keeps : (Solver.idle : Solver Unit Float).KeepsFlags := fun _ _ _ _ _ => rfl
  obtain ⟨_, _, _, completes⟩ := startUp_protocol built (.refl s) ⟨[], [], [], 0⟩ keeps ()
  obtain ⟨first, second, third, t, states, calls, shown, shown', shown'', _, _, _, _, _, restored, _⟩ :=
    completes (by simp [noSplits]) report after ran
  exact ⟨tray, s, report, after, first, second, third, built, .refl s, keeps, ran, calls, shown, shown', shown'',
    restored⟩

end StartUp

end Tray

end Distillation
