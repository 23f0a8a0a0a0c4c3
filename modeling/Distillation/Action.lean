import Distillation.Store

namespace Distillation

/-- A step on the store that may fail half-way. What was done to the store before a failure stays done. -/
abbrev Action (K E : Type) := ExceptT E (StateM (Store K))

namespace Action

variable {K E F α : Type}

/-- The result and the store after a step. -/
def on (step : Action K E α) (s : Store K) : Except E α × Store K :=
  step.run.run s

def create (name : String) (value : K) : Action K E VarId :=
  fun s => (Except.ok (s.create name value).1, (s.create name value).2)

def update (change : Store K → Store K) : Action K E Unit :=
  fun s => (Except.ok (), change s)

/-- Gives the errors of a step another type. -/
def mapError (f : E → F) (step : Action K E α) : Action K F α :=
  fun s => ((step.on s).1.mapError f, (step.on s).2)

/-- A step that leaves the store alone. -/
def ofExcept (result : Except E α) : Action K E α :=
  fun s => (result, s)

section Laws

variable {β : Type} (s : Store K)

@[simp] theorem on_pure (a : α) : (pure a : Action K E α).on s = (Except.ok a, s) := rfl

@[simp] theorem on_create (name : String) (value : K) :
    (create name value : Action K E VarId).on s =
      (Except.ok s.size, (s.create name value).2) := rfl

@[simp] theorem on_update (change : Store K → Store K) :
    (update change : Action K E Unit).on s = (Except.ok (), change s) := rfl

@[simp] theorem on_ofExcept (result : Except E α) :
    (ofExcept result : Action K E α).on s = (result, s) := rfl

@[simp] theorem on_mapError (f : E → F) (step : Action K E α) :
    (mapError f step).on s = ((step.on s).1.mapError f, (step.on s).2) := rfl

theorem on_bind (step : Action K E α) (next : α → Action K E β) :
    (step >>= next).on s =
      match step.on s with
      | (Except.ok a, t) => (next a).on t
      | (Except.error e, t) => (Except.error e, t) := by
  change (ExceptT.bindCont next (step s).1 (step s).2) = _
  unfold on ExceptT.run StateT.run
  rcases step s with ⟨_ | _, t⟩ <;> rfl

end Laws

end Action

end Distillation
