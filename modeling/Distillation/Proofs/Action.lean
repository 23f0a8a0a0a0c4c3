import Distillation.Action
import Distillation.Proofs.Lists

namespace Distillation.Action

variable {K E F α β : Type} {s t : Store K}

theorem on_bind_eq_ok {step : Action K E α} {next : α → Action K E β} {b : β} :
    (step >>= next).on s = (Except.ok b, t) ↔
      ∃ a u, step.on s = (Except.ok a, u) ∧ (next a).on u = (Except.ok b, t) := by
  rw [on_bind]
  rcases step.on s with ⟨result, u⟩
  cases result with
  | error e => simp
  | ok a =>
    constructor
    · intro rest
      exact ⟨a, u, rfl, rest⟩
    · rintro ⟨a', u', first, rest⟩
      cases first
      exact rest

theorem on_bind_of_ok {step : Action K E α} {a : α} (ran : step.on s = (Except.ok a, t)) (next : α → Action K E β) :
    (step >>= next).on s = (next a).on t := by
  rw [on_bind, ran]

theorem on_map (f : α → β) (step : Action K E α) :
    (f <$> step).on s = ((step.on s).1.map f, (step.on s).2) := by
  rw [map_eq_pure_bind, on_bind]
  rcases step.on s with ⟨result, u⟩
  cases result <;> rfl

theorem on_map_eq_ok {f : α → β} {step : Action K E α} {b : β} :
    (f <$> step).on s = (Except.ok b, t) ↔ ∃ a, step.on s = (Except.ok a, t) ∧ f a = b := by
  rw [on_map]
  rcases step.on s with ⟨result, u⟩
  cases result with
  | error e => simp [Except.map]
  | ok c => simp [Except.map]; grind

theorem on_mapError_eq_ok {f : E → F} {step : Action K E α} {a : α} :
    (mapError f step).on s = (Except.ok a, t) ↔ step.on s = (Except.ok a, t) := by
  rw [on_mapError]
  rcases step.on s with ⟨result, u⟩
  rw [Prod.mk.injEq, Prod.mk.injEq, mapError_eq_ok]

theorem on_ofExcept_eq_ok {result : Except E α} {a : α} :
    (ofExcept result : Action K E α).on s = (Except.ok a, t) ↔ result = .ok a ∧ s = t := by
  rw [on_ofExcept, Prod.mk.injEq]

theorem length_of_on_mapM {f : α → Action K E β} {l : List α} : ∀ {bs : List β} {s t : Store K},
    (l.mapM f).on s = (Except.ok bs, t) → bs.length = l.length := by
  induction l with
  | nil =>
    intro bs s t ran
    cases ran
    rfl
  | cons a rest ih =>
    intro bs s t ran
    rw [List.mapM_cons] at ran
    obtain ⟨b, u, _, ran⟩ := on_bind_eq_ok.1 ran
    obtain ⟨others, w, later, ran⟩ := on_bind_eq_ok.1 ran
    cases ran
    rw [List.length_cons, List.length_cons, ih later]

/-- A run of steps that leave the store alone is a run of their results. -/
theorem on_mapM_of_steady (f : α → Action K E β) (l : List α) (steady : ∀ a ∈ l, ((f a).on s).2 = s) :
    (l.mapM f).on s = (l.mapM fun a => ((f a).on s).1, s) := by
  induction l with
  | nil => rfl
  | cons a rest ih =>
    obtain ⟨first, later⟩ := List.forall_mem_cons.1 steady
    have stepped : (f a).on s = (((f a).on s).1, s) := Prod.ext rfl first
    rw [List.mapM_cons, on_bind, List.mapM_cons, stepped]
    cases ((f a).on s).1 with
    | error e => rfl
    | ok b =>
      simp only [on_bind, ih later]
      cases (rest.mapM fun a => ((f a).on s).1) <;> rfl

/-- A run of steps that fails does so at one of them, on the store that the steps before it have left. -/
theorem exists_of_on_forM_error {f : α → Action K E Unit} {l : List α} {e : E}
    (ran : (l.forM f).on s = (Except.error e, t)) : ∃ before a after u, l = before ++ a :: after ∧
      (before.forM f).on s = (Except.ok (), u) ∧ (f a).on u = (Except.error e, t) := by
  induction l generalizing s with
  | nil => cases ran
  | cons a rest ih =>
    change (f a >>= fun _ => rest.forM f).on s = _ at ran
    rw [on_bind] at ran
    rcases first : (f a).on s with ⟨other | _, u⟩ <;> rw [first] at ran
    · exact ⟨[], a, rest, s, rfl, rfl, first.trans ran⟩
    · obtain ⟨before, b, after, w, rfl, begun, failed⟩ := ih ran
      exact ⟨a :: before, b, after, w, rfl, (on_bind_of_ok first _).trans begun, failed⟩

/-- The step gives a result on every store. -/
def Succeeds (step : Action K E α) : Prop :=
  ∀ s, ∃ a t, step.on s = (Except.ok a, t)

namespace Succeeds

theorem pure (a : α) : Succeeds (Pure.pure a : Action K E α) :=
  fun s => ⟨a, s, rfl⟩

theorem create (name : String) (value : K) : Succeeds (Action.create name value : Action K E VarId) :=
  fun s => ⟨s.size, (s.create name value).2, rfl⟩

theorem ofExcept {result : Except E α} {a : α} (accepted : result = .ok a) :
    Succeeds (Action.ofExcept result : Action K E α) :=
  fun s => ⟨a, s, by rw [on_ofExcept, accepted]⟩

theorem bind {step : Action K E α} {next : α → Action K E β} (first : Succeeds step)
    (later : ∀ a, Succeeds (next a)) : Succeeds (step >>= next) := by
  intro s
  obtain ⟨a, t, ran⟩ := first s
  obtain ⟨b, u, rest⟩ := later a t
  exact ⟨b, u, on_bind_eq_ok.2 ⟨a, t, ran, rest⟩⟩

theorem map {step : Action K E α} (first : Succeeds step) (f : α → β) : Succeeds (f <$> step) := by
  intro s
  obtain ⟨a, t, ran⟩ := first s
  exact ⟨f a, t, on_map_eq_ok.2 ⟨a, ran, rfl⟩⟩

theorem mapError {step : Action K E α} (first : Succeeds step) (f : E → F) : Succeeds (Action.mapError f step) := by
  intro s
  obtain ⟨a, t, ran⟩ := first s
  exact ⟨a, t, on_mapError_eq_ok.2 ran⟩

theorem mapM {f : α → Action K E β} {l : List α} (each : ∀ a ∈ l, Succeeds (f a)) : Succeeds (l.mapM f) := by
  induction l with
  | nil => exact .pure []
  | cons a rest ih =>
    obtain ⟨first, later⟩ := List.forall_mem_cons.1 each
    rw [List.mapM_cons]
    exact first.bind fun b => (ih later).bind fun bs => .pure (b :: bs)

end Succeeds

/-- The step fails with this error on every store, before it has done anything. -/
def Refuses (step : Action K E α) (e : E) : Prop :=
  ∀ s, step.on s = (Except.error e, s)

namespace Refuses

variable {e : E}

theorem ofExcept {result : Except E α} (refused : result = .error e) : Refuses (Action.ofExcept result : Action K E α) e :=
  fun s => by rw [on_ofExcept, refused]

theorem bind {step : Action K E α} (first : Refuses step e) (next : α → Action K E β) : Refuses (step >>= next) e :=
  fun s => by rw [on_bind, first s]

/-- A refusal may come after a step that has a result and leaves the store alone. -/
theorem after {step : Action K E α} {a : α} {next : α → Action K E β} (ran : ∀ s, step.on s = (Except.ok a, s))
    (later : Refuses (next a) e) : Refuses (step >>= next) e :=
  fun s => by rw [on_bind_of_ok (ran s), later s]

theorem map {step : Action K E α} (first : Refuses step e) (f : α → β) : Refuses (f <$> step) e :=
  fun s => by rw [on_map, first s]; rfl

theorem mapError {step : Action K E α} (first : Refuses step e) (f : E → F) : Refuses (Action.mapError f step) (f e) :=
  fun s => by rw [on_mapError, first s]; rfl

theorem mapM {f : α → Action K E β} {l : List α} (present : l ≠ []) (each : ∀ a ∈ l, Refuses (f a) e) :
    Refuses (l.mapM f) e := by
  obtain ⟨a, rest, rfl⟩ := List.exists_cons_of_ne_nil present
  rw [List.mapM_cons]
  exact (each a List.mem_cons_self).bind _

end Refuses

end Distillation.Action
