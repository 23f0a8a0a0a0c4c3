import Distillation.Proofs.Property.Guesses
import Distillation.Proofs.Tray.Variables
import Distillation.Tray.Startup

namespace Distillation

variable {K : Type}

/-- At most the free ones among some variables have changed, and only in value. -/
structure Store.Guessed (vars : List VarId) (s t : Store K) : Prop where
  size : t.size = s.size
  isFixed : ∀ v, t.isFixed v = s.isFixed v
  kept : ∀ v, (v ∈ vars → s.isFixed v = true) → t.get? v = s.get? v

namespace Store.Guessed

variable {s t : Store K} {vars : List VarId}

/-- Where all the variables are fixed, nothing has changed. -/
theorem eq_of_fixed (guessed : s.Guessed vars t) (fixed : ∀ v ∈ vars, s.isFixed v = true) : t = s :=
  ext_get? fun v => guessed.kept v (fixed v)

theorem of_offered {offers : VarId → K → Prop} (offered : s.Offered t offers)
    (own : ∀ v x, offers v x → v ∈ vars) : s.Guessed vars t := by
  refine ⟨offered.size, offered.isFixed, fun v spared => offered.kept ?_⟩
  by_cases inside : v ∈ vars
  · exact .inl (spared inside)
  · exact .inr fun x given => inside (own v x given)

end Store.Guessed

/-- A step of which at most some variables are guessed, whether it succeeds or not. -/
def Action.Guesses {E : Type} (vars : List VarId) (step : Action K E Unit) : Prop :=
  ∀ s : Store K, s.Guessed vars (step.on s).2

namespace Tray

/-- The states of the inlets with the guesses that they are handed, in their order. -/
def guessed (tray : Tray K) (args : StartupArgs K) : List (PropertyState K × List (Guess K)) :=
  tray.feeds.map (·, args.feed) ++ tray.liquids.map (·, args.liquid) ++ tray.vapors.map (·, args.vapor)

/-- Hands some states their guesses. -/
def handOut (handed : List (PropertyState K × List (Guess K))) : Action K PropertyError Unit :=
  handed.forM fun entry => entry.1.applyGuesses entry.2

theorem handOut_append (first later : List (PropertyState K × List (Guess K))) :
    handOut (first ++ later) = handOut first >>= fun _ => handOut later :=
  List.forM_append

theorem handOut_stream (states : List (PropertyState K)) (guesses : List (Guess K)) :
    handOut (states.map (·, guesses)) = guessStream states guesses := by
  induction states with
  | nil => rfl
  | cons state rest ih => exact congrArg (state.applyGuesses guesses >>= fun _ => ·) ih

theorem mem_inlets_of_guessed {tray : Tray K} {args : StartupArgs K} {entry : PropertyState K × List (Guess K)}
    (inside : entry ∈ tray.guessed args) : entry.1 ∈ tray.inlets := by
  simp only [guessed, List.mem_append, List.mem_map] at inside
  simp only [inlets, List.mem_append]
  rcases inside with (⟨state, among, rfl⟩ | ⟨state, among, rfl⟩) | ⟨state, among, rfl⟩
  · exact .inl (.inl among)
  · exact .inl (.inr among)
  · exact .inr among

variable [Scalar K] {package : IdealPackage K} {tray : Tray K} {points : List (IdealPoint K)}

namespace Anatomy

variable (anatomy : Anatomy package tray points)
include anatomy

/-- To guess nothing is always accepted and changes nothing. -/
theorem on_guessStream_nil {states : List (PropertyState K)} (own : states ⊆ tray.states) (s : Store K) :
    (guessStream states []).on s = (.ok (), s) := by
  induction states with
  | nil => rfl
  | cons state rest ih =>
    obtain ⟨here, later⟩ := List.cons_subset.1 own
    obtain ⟨ideal, rfl⟩ := anatomy.exists_ideal here
    exact ih later

/-- The outlet is handed nothing, so all that counts are the inlets. -/
theorem on_applyGuesses (args : StartupArgs K) (s : Store K) :
    (tray.applyGuesses args).on s = (handOut (tray.guessed args)).on s := by
  have handed : tray.applyGuesses args = handOut (tray.guessed args) >>= fun _ => guessStream tray.outlets [] := by
    simp only [guessed, handOut_append, handOut_stream, bind_assoc]
    rfl
  obtain ⟨_, _, _, outlets⟩ := tray.streams_subset
  rw [handed, Action.on_bind]
  rcases (handOut (tray.guessed args)).on s with ⟨_ | _, t⟩
  · rfl
  · exact anatomy.on_guessStream_nil outlets t

/-- Accepted or not, guesses that states of the inlets are handed are offered to what they name there. -/
theorem handOut_offers {handed : List (PropertyState K × List (Guess K))}
    (own : ∀ entry ∈ handed, entry.1 ∈ tray.inlets) : (handOut handed).Offers fun v x =>
      ∃ entry ∈ handed, v ∈ entry.1.vars ∧ ∃ guess ∈ entry.2, entry.1.Names guess v ∧ guess.value = x := by
  refine .forM fun entry inside s => ?_
  obtain ⟨_, _, ideal, _, same⟩ := anatomy.mem_inlets.1 (own entry inside)
  have offered := ideal.applyGuesses_offers entry.2 s
  rw [same]
  refine offered.mono fun v x ⟨guess, among, names, value⟩ => ⟨entry, inside, ?_, guess, among, same ▸ names, value⟩
  rw [same]
  exact IdealState.mem_vars_of_target (IdealState.target_eq_ok_iff.2 names)

/-- The guesses of a start-up reach the inlets alone. -/
theorem applyGuesses_guesses (args : StartupArgs K) :
    (tray.applyGuesses args).Guesses (tray.inlets.flatMap (·.vars)) := by
  intro s
  rw [anatomy.on_applyGuesses]
  refine .of_offered (anatomy.handOut_offers (fun _ => mem_inlets_of_guessed) s) fun v x => ?_
  rintro ⟨entry, inside, own, _⟩
  exact List.mem_flatMap.2 ⟨entry.1, mem_inlets_of_guessed inside, own⟩

theorem applyGuesses_nil (verbosity : Nat) (s : Store K) :
    (tray.applyGuesses ⟨[], [], [], verbosity⟩).on s = (.ok (), s) := by
  obtain ⟨feeds, liquids, vapors, outlets⟩ := tray.streams_subset
  rw [applyGuesses, Action.on_bind, anatomy.on_guessStream_nil feeds]
  simp only [Action.on_bind, anatomy.on_guessStream_nil liquids, anatomy.on_guessStream_nil vapors,
    anatomy.on_guessStream_nil outlets]

end Anatomy

end Tray

end Distillation
