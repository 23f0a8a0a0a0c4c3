import Distillation.Proofs.RealScalar
import Distillation.Proofs.Tray.Ports

namespace Distillation

variable {K : Type}

namespace Store

/-- A fixed variable does not take a value that it is offered. -/
def offer (s : Store K) (v : VarId) (x : K) : Store K :=
  if s.isFixed v then s else s.set v x

section Offer

variable (s : Store K) (v w : VarId) (x : K)

theorem size_offer : (s.offer v x).size = s.size := by
  unfold offer
  split
  · rfl
  · exact s.size_set v x

theorem isFixed_offer : (s.offer v x).isFixed w = s.isFixed w := by
  unfold offer
  split
  · rfl
  · exact s.isFixed_set v w x

theorem get?_offer : (s.offer v x).get? w = if v = w ∧ s.isFixed w = false
    then (s.get? w).map fun entry => { entry with value := x } else s.get? w := by
  unfold offer
  by_cases same : v = w
  · subst same
    cases s.isFixed v <;> simp [set, get?_modify]
  · split <;> simp [same, set, get?_modify]

end Offer

/-- Each variable is as it was, or it was free and has taken a value that it was offered. -/
structure Offered (s t : Store K) (offers : VarId → K → Prop) : Prop where
  size : t.size = s.size
  isFixed : ∀ v, t.isFixed v = s.isFixed v
  taken : ∀ v, t.get? v = s.get? v ∨ s.isFixed v = false ∧
    ∃ x, offers v x ∧ t.get? v = (s.get? v).map fun entry => { entry with value := x }

namespace Offered

variable {s t u : Store K} {offers others : VarId → K → Prop} {v : VarId}

theorem refl (s : Store K) (offers : VarId → K → Prop) : s.Offered s offers :=
  ⟨rfl, fun _ => rfl, fun _ => .inl rfl⟩

theorem mono (offered : s.Offered t offers) (more : ∀ v x, offers v x → others v x) : s.Offered t others := by
  refine ⟨offered.size, offered.isFixed, fun v => (offered.taken v).imp id ?_⟩
  rintro ⟨free, x, given, taken⟩
  exact ⟨free, x, more v x given, taken⟩

/-- Nothing is left of a value that is written over. -/
theorem map_value (offered : s.Offered t offers) (v : VarId) (x : K) :
    ((t.get? v).map fun entry => { entry with value := x }) =
      (s.get? v).map fun entry => { entry with value := x } := by
  rcases offered.taken v with kept | ⟨_, y, _, taken⟩
  · rw [kept]
  · rw [taken, Option.map_map]
    rfl

theorem trans (first : s.Offered t offers) (second : t.Offered u offers) : s.Offered u offers := by
  refine ⟨second.size.trans first.size, fun v => (second.isFixed v).trans (first.isFixed v), fun v => ?_⟩
  rcases second.taken v with kept | ⟨free, x, given, taken⟩
  · rw [kept]
    exact first.taken v
  · rw [first.isFixed] at free
    exact .inr ⟨free, x, given, taken.trans (first.map_value v x)⟩

theorem kept (offered : s.Offered t offers) (spared : s.isFixed v = true ∨ ∀ x, ¬offers v x) :
    t.get? v = s.get? v := by
  rcases offered.taken v with kept | ⟨free, x, given, _⟩
  · exact kept
  · rcases spared with fixed | unasked
    · exact absurd free (by simp [fixed])
    · exact absurd given (unasked x)

theorem of_offer (s : Store K) {x : K} (given : offers v x) : s.Offered (s.offer v x) offers := by
  refine ⟨s.size_offer v x, fun w => s.isFixed_offer v w x, fun w => ?_⟩
  rw [get?_offer]
  split
  · rename_i hit
    obtain ⟨rfl, free⟩ := hit
    exact .inr ⟨free, x, given, rfl⟩
  · exact .inl rfl

end Offered

end Store

namespace Action

variable {E : Type} {offers : VarId → K → Prop}

/-- A step that offers variables some of certain values and does no more, whether it succeeds or not. -/
def Offers (offers : VarId → K → Prop) (step : Action K E Unit) : Prop :=
  ∀ s : Store K, s.Offered (step.on s).2 offers

theorem Offers.bind {step next : Action K E Unit} (first : Offers offers step) (second : Offers offers next) :
    Offers offers (step >>= fun _ => next) := by
  intro s
  have begun := first s
  rw [on_bind]
  rcases stepped : step.on s with ⟨_ | _, t⟩ <;> rw [stepped] at begun
  · exact begun
  · exact begun.trans (second t)

theorem Offers.forM {α : Type} {f : α → Action K E Unit} {l : List α} (each : ∀ a ∈ l, Offers offers (f a)) :
    Offers offers (l.forM f) := by
  induction l with
  | nil => exact fun s => .refl s offers
  | cons a rest ih =>
    obtain ⟨first, later⟩ := List.forall_mem_cons.1 each
    exact first.bind (ih later)

end Action

/-- The members of a state that guesses may be for. -/
def PropertyState.guessable : List String :=
  ["temperature", "pressure", "flow_mol_phase_comp"]

/-- Guesses may be for the member, and the variable is what it shows under the key. -/
def PropertyState.Names (state : PropertyState K) (guess : Guess K) (v : VarId) : Prop :=
  guess.member ∈ guessable ∧ (state.member? guess.member).bind (·.term? guess.key) = some (.var v)

namespace IdealState

open PropertyState (guessable)

/-- The key goes with the member: the flows have one for each phase and component, the levels none. -/
def Keyed (guess : Guess K) : Prop :=
  if guess.member = "flow_mol_phase_comp" then ∃ p name, guess.key = some (.phaseComponent p name) else guess.key = none

/-- The guess is for a member that takes guesses, has a key that goes with it, and names no foreign component. -/
def Knows (state : IdealState K) (guess : Guess K) : Prop :=
  guess.member ∈ guessable ∧ Keyed guess ∧
    ∀ p name, guess.key = some (.phaseComponent p name) → name ∈ state.components.map (·.data.name)

/-- Why a guess is refused. -/
inductive Refuses (state : IdealState K) (guess : Guess K) : PropertyError → Prop
  | member (foreign : guess.member ∉ guessable) : Refuses state guess (.unknownMember state.label guess.member)
  | key (own : guess.member ∈ guessable) (misfit : ¬Keyed guess) :
    Refuses state guess (.invalidArgument guess.member "key does not match the member's indexing")
  | component {p : Phase} {name : String} (flow : guess.member = "flow_mol_phase_comp")
    (key : guess.key = some (.phaseComponent p name)) (absent : name ∉ state.components.map (·.data.name)) :
    Refuses state guess (.unknownComponent name)

section Refusals

variable {state : IdealState K} {guess : Guess K}

theorem component?_eq_none {name : String} :
    state.component? name = none ↔ name ∉ state.components.map (·.data.name) := by
  simp [component?]

theorem mem_vars_of_target {v : VarId} (found : state.target guess = .ok v) : v ∈ state.vars := by
  unfold target at found
  split at found
  · cases found
    exact state.temperature_mem_vars
  · cases found
    exact state.pressure_mem_vars
  · rename_i p name _ _
    cases known : state.component? name with
    | none => simp [known] at found
    | some c =>
      simp only [known, Except.ok.injEq] at found
      subst found
      exact mem_vars_of_flow (flow_mem_flows (List.mem_of_find?_eq_some known) p)
  · cases found
  · cases found
  · cases found
  · cases found

theorem target_eq_error_iff {e : PropertyError} : state.target guess = .error e ↔ state.Refuses guess e := by
  unfold target
  constructor
  · intro refused
    split at refused
    · cases refused
    · cases refused
    · rename_i p name flow key
      split at refused <;> cases refused
      rename_i absent
      exact .component flow key (component?_eq_none.1 absent)
    iterate 3
      · cases refused
        exact .key (by simp_all [guessable]) (by simp_all [Keyed])
    · cases refused
      exact .member (by simp_all [guessable])
  · rintro (foreign | ⟨own, misfit⟩ | ⟨flow, key, absent⟩)
    · split <;> simp_all [guessable]
    · split <;> simp_all [guessable, Keyed]
    · rw [← component?_eq_none] at absent
      simp [flow, key, absent]

theorem on_applyGuess_eq_error {e : PropertyError} {s t : Store K} :
    (state.applyGuess guess).on s = (.error e, t) ↔ state.Refuses guess e ∧ s = t := by
  rw [← target_eq_error_iff, applyGuess, Action.on_bind, Action.on_ofExcept]
  cases state.target guess <;> simp

theorem applyGuesses_eq (guesses : List (Guess K)) : state.applyGuesses guesses = guesses.forM state.applyGuess := by
  induction guesses with
  | nil => rfl
  | cons guess rest ih => exact congrArg (state.applyGuess guess >>= fun _ => ·) ih

theorem applyGuesses_append (before after : List (Guess K)) : state.applyGuesses (before ++ after) =
    state.applyGuesses before >>= fun _ => state.applyGuesses after := by
  simp only [applyGuesses_eq]
  exact List.forM_append

theorem term?_flows {v : VarId} {key : Option Key} :
    (state.byPhaseComponent fun p c => c.flowExpr p).term? key = some (.var v) ↔ ∃ p name c,
      key = some (.phaseComponent p name) ∧ state.component? name = some c ∧ c.flow p = v := by
  constructor
  · intro shown
    rcases key with _ | key
    · cases shown
    · obtain ⟨p, _, inside⟩ := List.mem_flatMap.1 (mem_of_lookup_eq_some shown)
      obtain ⟨c, _, entry⟩ := List.mem_map.1 inside
      cases entry
      change (state.byPhaseComponent _).get? _ = _ at shown
      rw [get?_byPhaseComponent] at shown
      obtain ⟨c', known, flow⟩ := Option.map_eq_some_iff.1 shown
      exact ⟨p, c.data.name, c', rfl, known, Expr.var.inj flow⟩
  · rintro ⟨p, name, c, rfl, known, rfl⟩
    change (state.byPhaseComponent _).get? _ = _
    rw [get?_byPhaseComponent, known]
    rfl

end Refusals

section Names

variable [Scalar K] {state : IdealState K} {guess : Guess K} {v : VarId}

/-- The variables that guesses name, one by one. -/
theorem names_iff : state.toState.Names guess v ↔
    guess.member = "temperature" ∧ guess.key = none ∧ state.temperature = v ∨
    guess.member = "pressure" ∧ guess.key = none ∧ state.pressure = v ∨
    guess.member = "flow_mol_phase_comp" ∧ ∃ p name c, guess.key = some (.phaseComponent p name) ∧
      state.component? name = some c ∧ c.flow p = v := by
  obtain ⟨member, key, x⟩ := guess
  have level : ∀ w, (Quantity.scalar (.var w : Expr K)).term? key = some (.var v) ↔ key = none ∧ w = v := by
    intro w
    rcases key with _ | key <;> simp [Quantity.term?, Quantity.scalar?, Quantity.get?]
  constructor
  · rintro ⟨own, shown⟩
    simp only [guessable, List.mem_cons, List.not_mem_nil, or_false] at own
    obtain rfl | rfl | rfl := own
    · exact .inl ⟨rfl, (level _).1 shown⟩
    · exact .inr (.inl ⟨rfl, (level _).1 shown⟩)
    · exact .inr (.inr ⟨rfl, term?_flows.1 shown⟩)
  · rintro (⟨rfl, shown⟩ | ⟨rfl, shown⟩ | ⟨rfl, shown⟩)
    · exact ⟨by simp [guessable], (level _).2 shown⟩
    · exact ⟨by simp [guessable], (level _).2 shown⟩
    · exact ⟨by simp [guessable], term?_flows.2 shown⟩

theorem target_eq_ok_iff : state.target guess = .ok v ↔ state.toState.Names guess v := by
  rw [names_iff]
  unfold target
  split
  · simp_all
  · simp_all
  · rename_i p name flow key
    rcases known : state.component? name with _ | c <;> simp_all
  all_goals simp_all

theorem knows_iff : state.Knows guess ↔ ∃ v, state.toState.Names guess v := by
  constructor
  · rintro ⟨own, keyed, known⟩
    simp only [guessable, List.mem_cons, List.not_mem_nil, or_false] at own
    obtain level | level | flow := own
    · exact ⟨_, names_iff.2 (.inl ⟨level, by simpa [Keyed, level] using keyed, rfl⟩)⟩
    · exact ⟨_, names_iff.2 (.inr (.inl ⟨level, by simpa [Keyed, level] using keyed, rfl⟩))⟩
    · rw [Keyed, if_pos flow] at keyed
      obtain ⟨p, name, key⟩ := keyed
      have present := mt component?_eq_none.1 (not_not_intro (known p name key))
      obtain ⟨c, found⟩ := Option.ne_none_iff_exists'.1 present
      exact ⟨_, names_iff.2 (.inr (.inr ⟨flow, p, name, c, key, found, rfl⟩))⟩
  · rintro ⟨v, names⟩
    rcases names_iff.1 names with ⟨level, key, _⟩ | ⟨level, key, _⟩ | ⟨flow, p, name, c, key, found, _⟩
    · exact ⟨names.1, by simp [Keyed, level, key], by simp [key]⟩
    · exact ⟨names.1, by simp [Keyed, level, key], by simp [key]⟩
    · refine ⟨names.1, by simp [Keyed, flow, key], fun q other same => ?_⟩
      cases key.symm.trans same
      exact not_not.1 (mt component?_eq_none.2 (by simp [found]))

/-- A guess that the state knows is for one variable, and for one of its own. -/
theorem Knows.names (knows : state.Knows guess) : ∃ v ∈ state.vars, ∀ w, state.toState.Names guess w ↔ w = v := by
  obtain ⟨v, names⟩ := knows_iff.1 knows
  refine ⟨v, mem_vars_of_target (target_eq_ok_iff.2 names), fun w => ⟨fun also => ?_, fun same => same ▸ names⟩⟩
  exact Expr.var.inj (Option.some.inj (also.2.symm.trans names.2))

end Names

section Runs

variable [Scalar K] (state : IdealState K) {guess : Guess K} {guesses : List (Guess K)} {s t : Store K}

theorem on_applyGuess {v : VarId} (names : state.toState.Names guess v) (s : Store K) :
    (state.applyGuess guess).on s = (.ok (), s.offer v guess.value) := by
  rw [applyGuess, Action.on_bind, Action.on_ofExcept, target_eq_ok_iff.2 names]
  rfl

/-- Accepted or not, guesses offer their values to the variables that they name. -/
theorem applyGuesses_offers (guesses : List (Guess K)) : (state.applyGuesses guesses).Offers fun v x =>
    ∃ guess ∈ guesses, state.toState.Names guess v ∧ guess.value = x := by
  rw [applyGuesses_eq]
  refine .forM fun guess inside s => ?_
  cases target : state.target guess with
  | error e =>
    rw [on_applyGuess_eq_error.2 ⟨target_eq_error_iff.1 target, rfl⟩]
    exact .refl s _
  | ok v =>
    have names := target_eq_ok_iff.1 target
    rw [state.on_applyGuess names s]
    exact .of_offer s ⟨guess, inside, names, rfl⟩

/-- Guesses are accepted if the state knows them all. -/
theorem accepts_iff (s : Store K) : (∃ t, (state.applyGuesses guesses).on s = (.ok (), t)) ↔
    ∀ guess ∈ guesses, state.Knows guess := by
  induction guesses generalizing s with
  | nil => simp [applyGuesses]
  | cons guess rest ih =>
    rw [applyGuesses, List.forall_mem_cons]
    cases target : state.target guess with
    | error e =>
      have refused : (state.applyGuess guess).on s = (.error e, s) :=
        on_applyGuess_eq_error.2 ⟨target_eq_error_iff.1 target, rfl⟩
      rw [Action.on_bind, refused]
      simp [knows_iff, ← target_eq_ok_iff, target]
    | ok v =>
      have names := target_eq_ok_iff.1 target
      rw [Action.on_bind_of_ok (state.on_applyGuess names s), ih, and_iff_right (knows_iff.2 ⟨v, names⟩)]

/-- Of the guesses for a free variable the last decides. -/
theorem get?_of_last {before after : List (Guess K)} {v : VarId} (names : state.toState.Names guess v)
    (last : ∀ later ∈ after, ¬state.toState.Names later v) (free : s.isFixed v = false)
    (accepted : (state.applyGuesses (before ++ guess :: after)).on s = (.ok (), t)) :
    t.get? v = (s.get? v).map fun entry => { entry with value := guess.value } := by
  rw [applyGuesses_append] at accepted
  obtain ⟨_, u, begun, rest⟩ := Action.on_bind_eq_ok.1 accepted
  rw [applyGuesses, Action.on_bind_of_ok (state.on_applyGuess names u)] at rest
  have first := state.applyGuesses_offers before s
  have later := state.applyGuesses_offers after (u.offer v guess.value)
  rw [begun] at first
  rw [rest] at later
  have unasked : ∀ x, ¬∃ other ∈ after, state.toState.Names other v ∧ other.value = x :=
    fun x ⟨other, inside, also, _⟩ => last other inside also
  rw [later.kept (.inr unasked), Store.get?_offer, if_pos ⟨rfl, (first.isFixed v).trans free⟩, first.map_value]

/-- Guesses that are not accepted are refused for the first that the state does not know. -/
theorem exists_first_unknown {e : PropertyError} (refused : (state.applyGuesses guesses).on s = (.error e, t)) :
    ∃ before bad after, guesses = before ++ bad :: after ∧ (∀ guess ∈ before, state.Knows guess) ∧
      state.Refuses bad e ∧ (state.applyGuesses before).on s = (.ok (), t) := by
  rw [applyGuesses_eq] at refused
  obtain ⟨before, bad, after, u, rfl, begun, failed⟩ := Action.exists_of_on_forM_error refused
  obtain ⟨unfit, rfl⟩ := on_applyGuess_eq_error.1 failed
  rw [← applyGuesses_eq] at begun
  exact ⟨before, bad, after, rfl, (state.accepts_iff s).1 ⟨u, begun⟩, unfit, begun⟩

/-- Whatever is fixed, guesses that a state knows are accepted. Each is for one of its variables, and of the guesses for
a variable that is free the last decides; no other variable changes, and nothing but values. If there are guesses that
the state does not know, it refuses them with what is wrong with the first, and all is as after those before it. -/
theorem applyGuesses_meaning (guesses : List (Guess K)) (s : Store K) :
    ((∀ guess ∈ guesses, state.Knows guess) →
      (∀ guess ∈ guesses, ∃ v ∈ state.vars, ∀ w, state.toState.Names guess w ↔ w = v) ∧
      ∃ t, (state.toState.applyGuesses guesses).on s = (.ok (), t) ∧ t.size = s.size ∧
        (∀ v, t.isFixed v = s.isFixed v) ∧
        (∀ v, s.isFixed v = true ∨ (∀ guess ∈ guesses, ¬state.toState.Names guess v) → t.get? v = s.get? v) ∧
        ∀ before guess after v, guesses = before ++ guess :: after → state.toState.Names guess v →
          (∀ later ∈ after, ¬state.toState.Names later v) → s.isFixed v = false →
          t.get? v = (s.get? v).map fun entry => { entry with value := guess.value }) ∧
    (¬(∀ guess ∈ guesses, state.Knows guess) →
      ∃ before bad after e t, guesses = before ++ bad :: after ∧ (∀ guess ∈ before, state.Knows guess) ∧
        ¬state.Knows bad ∧ (∀ e', state.Refuses bad e' ↔ e' = e) ∧
        (state.toState.applyGuesses before).on s = (.ok (), t) ∧
        (state.toState.applyGuesses guesses).on s = (.error e, t)) := by
  refine ⟨fun known => ⟨fun guess inside => (known guess inside).names, ?_⟩, fun unknown => ?_⟩
  · obtain ⟨t, accepted⟩ := (state.accepts_iff s).2 known
    have offered := state.applyGuesses_offers guesses s
    rw [accepted] at offered
    refine ⟨t, accepted, offered.size, offered.isFixed, fun v spared => offered.kept (spared.imp id ?_), ?_⟩
    · rintro unnamed x ⟨guess, inside, names, _⟩
      exact unnamed guess inside names
    · rintro before guess after v rfl names last free
      exact state.get?_of_last names last free accepted
  · rcases ran : (state.applyGuesses guesses).on s with ⟨e | _, t⟩
    · obtain ⟨before, bad, after, split, known, unfit, begun⟩ := state.exists_first_unknown ran
      have answer := target_eq_error_iff.2 unfit
      refine ⟨before, bad, after, e, t, split, known, fun knows => ?_, fun e' => ?_, begun, ran⟩
      · obtain ⟨v, names⟩ := knows_iff.1 knows
        rw [← target_eq_ok_iff, answer] at names
        cases names
      · rw [← target_eq_error_iff, answer, Except.error.injEq, eq_comm]
    · exact absurd ((state.accepts_iff s).1 ⟨t, ran⟩) unknown

theorem applyGuesses_meaning_mixed :
    let state : IdealState ℝ := ⟨"stream", [⟨⟨"benzene", 135, 82, 30720⟩, 0, 1⟩], 2, 3, 298, [], none, true⟩
    let s : Store ℝ :=
      ⟨#[⟨"liquid", 1, false⟩, ⟨"vapor", 1, false⟩, ⟨"temperature", 298, false⟩, ⟨"pressure", 1, true⟩]⟩
    let known : List (Guess ℝ) := [⟨"temperature", none, 350⟩,
      ⟨"flow_mol_phase_comp", some (.phaseComponent .vapor "benzene"), 4⟩, ⟨"pressure", none, 2⟩,
      ⟨"temperature", none, 360⟩]
    let mixed : List (Guess ℝ) := ⟨"temperature", none, 350⟩ :: ⟨"pressure", some (.phase .vapor), 2⟩ :: known
    ((∀ guess ∈ known, state.Knows guess) ∧ ∃ t, (state.toState.applyGuesses known).on s = (.ok (), t) ∧
      t.get? 0 = s.get? 0 ∧ t.get? 2 = some ⟨"temperature", 360, false⟩ ∧ t.get? 3 = s.get? 3) ∧
    ¬(∀ guess ∈ mixed, state.Knows guess) ∧
      ∃ before e t, (∀ guess ∈ before, state.Knows guess) ∧ (state.toState.applyGuesses before).on s = (.ok (), t) ∧
        (state.toState.applyGuesses mixed).on s = (.error e, t) := by
  intro state s known mixed
  have knows : ∀ guess ∈ known, state.Knows guess := by
    simp [known, state, Knows, Keyed, guessable]
  have unknown : ¬∀ guess ∈ mixed, state.Knows guess := by
    simp [mixed, state, Knows, Keyed, guessable]
  obtain ⟨_, t, accepted, _, _, kept, last⟩ := (state.applyGuesses_meaning known s).1 knows
  obtain ⟨before, bad, _, e, u, _, fine, _, _, begun, refused⟩ := (state.applyGuesses_meaning mixed s).2 unknown
  refine ⟨⟨knows, t, accepted, kept 0 (.inr ?_), ?_, kept 3 (.inl rfl)⟩, unknown, before, e, u, fine, begun, refused⟩
  · simp [known, state, names_iff, component?, ComponentFlows.flow]
  · exact last (known.take 3) ⟨"temperature", none, 360⟩ [] 2 rfl (names_iff.2 (.inl ⟨rfl, rfl, rfl⟩)) (by simp) rfl

end Runs

end IdealState

end Distillation
