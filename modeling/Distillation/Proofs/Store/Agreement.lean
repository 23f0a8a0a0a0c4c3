import Distillation.Proofs.Action
import Distillation.Proofs.Expr.Variables
import Distillation.Proofs.Store.Flags

namespace Distillation

namespace Store

variable {K : Type}

/-- The variables that are seen have the same names, values and flags in both stores, or neither knows them. -/
def Agree (seen : VarId → Prop) (s t : Store K) : Prop :=
  ∀ v, seen v → t.get? v = s.get? v

namespace Agree

variable {s t u : Store K} {seen others : VarId → Prop} {v : VarId}

theorem refl (seen : VarId → Prop) (s : Store K) : s.Agree seen s :=
  fun _ _ => rfl

theorem trans (first : s.Agree seen t) (second : t.Agree seen u) : s.Agree seen u :=
  fun v inside => (second v inside).trans (first v inside)

theorem mono (agree : s.Agree seen t) (fewer : ∀ v, others v → seen v) : s.Agree others t :=
  fun v inside => agree v (fewer v inside)

theorem value [Zero K] (agree : s.Agree seen t) (inside : seen v) : t.value v = s.value v := by
  rw [Store.value, agree v inside, Store.value]

theorem isFixed (agree : s.Agree seen t) (inside : seen v) : t.isFixed v = s.isFixed v := by
  rw [Store.isFixed, agree v inside, Store.isFixed]

theorem known (agree : s.Agree seen t) (inside : seen v) : v < t.size ↔ v < s.size := by
  have present : ∀ u : Store K, v < u.size ↔ (u.get? v).isSome := fun u => by simp [get?, size]
  rw [present, present, agree v inside]

/-- One change to one variable keeps an agreement, whether the variable is seen or not. -/
theorem modify (agree : s.Agree seen t) (v : VarId) (change : Variable K → Variable K) :
    (s.modify v change).Agree seen (t.modify v change) := by
  intro w inside
  rw [get?_modify, get?_modify, agree w inside]

theorem set (agree : s.Agree seen t) (v : VarId) (x : K) : (s.set v x).Agree seen (t.set v x) :=
  agree.modify v _

theorem fixAt (agree : s.Agree seen t) (v : VarId) (x : K) : (s.fixAt v x).Agree seen (t.fixAt v x) :=
  (agree.set v x).modify v _

theorem unfix (agree : s.Agree seen t) (v : VarId) : (s.unfix v).Agree seen (t.unfix v) :=
  agree.modify v _

theorem foldl {α : Type} {change : Store K → α → Store K}
    (step : ∀ {s t : Store K} a, s.Agree seen t → (change s a).Agree seen (change t a)) (l : List α) :
    ∀ {s t : Store K}, s.Agree seen t → (l.foldl change s).Agree seen (l.foldl change t) := by
  induction l with
  | nil => exact id
  | cons a rest ih => exact fun agree => ih (step a agree)

theorem fixAll (agree : s.Agree seen t) (specs : List (VarId × K)) :
    (s.fixAll specs).Agree seen (t.fixAll specs) := by
  have each : ∀ {s t : Store K} (spec : VarId × K), s.Agree seen t →
      (s.fixAt spec.1 spec.2).Agree seen (t.fixAt spec.1 spec.2) := fun spec agree => agree.fixAt spec.1 spec.2
  exact foldl each specs agree

/-- To change a variable that is not seen is to change nothing that is. -/
theorem modify_hidden (s : Store K) (hidden : ¬seen v) (change : Variable K → Variable K) :
    s.Agree seen (s.modify v change) := by
  intro w inside
  have other : v ≠ w := fun same => hidden (same ▸ inside)
  rw [get?_modify, if_neg other]

theorem set_hidden (s : Store K) (hidden : ¬seen v) (x : K) : s.Agree seen (s.set v x) :=
  modify_hidden s hidden _

theorem fixAt_hidden (s : Store K) (hidden : ¬seen v) (x : K) : s.Agree seen (s.fixAt v x) :=
  (set_hidden s hidden x).trans (modify_hidden _ hidden _)

theorem foldl_hidden {α : Type} {change : Store K → α → Store K} {l : List α}
    (step : ∀ a ∈ l, ∀ s : Store K, s.Agree seen (change s a)) (s : Store K) :
    s.Agree seen (l.foldl change s) := by
  induction l generalizing s with
  | nil => exact refl seen s
  | cons a rest ih =>
    obtain ⟨first, later⟩ := List.forall_mem_cons.1 step
    exact (first s).trans (ih later _)

theorem fixAll_hidden {specs : List (VarId × K)} (hidden : ∀ spec ∈ specs, ¬seen spec.1) (s : Store K) :
    s.Agree seen (s.fixAll specs) :=
  foldl_hidden (fun spec inside s => fixAt_hidden s (hidden spec inside) spec.2) s

theorem eval [Scalar K] (agree : s.Agree seen t) {e : Expr K} (own : ∀ v ∈ e.vars, seen v) : e.eval t = e.eval s :=
  Expr.evalWith_congr e fun v occurs => agree.value (own v occurs)

end Agree

end Store

namespace Action

variable {K E α β : Type} {seen : VarId → Prop}

/-- Stores that agree on what is seen give the step the same result, and agree on it afterwards. -/
def Local (seen : VarId → Prop) (step : Action K E α) : Prop :=
  ∀ s t : Store K, s.Agree seen t → (step.on t).1 = (step.on s).1 ∧ (step.on s).2.Agree seen (step.on t).2

theorem Local.pure (seen : VarId → Prop) (a : α) : Local seen (Pure.pure a : Action K E α) :=
  fun _ _ agree => ⟨rfl, agree⟩

theorem Local.bind {step : Action K E α} {next : α → Action K E β} (first : Local seen step)
    (later : ∀ a, Local seen (next a)) : Local seen (step >>= next) := by
  intro s t agree
  obtain ⟨same, kept⟩ := first s t agree
  rw [on_bind, on_bind]
  rcases stepped : step.on s with ⟨result, s'⟩
  rcases stepped' : step.on t with ⟨result', t'⟩
  rw [stepped, stepped'] at same kept
  cases same
  cases result with
  | error e => exact ⟨rfl, kept⟩
  | ok a => exact later a s' t' kept

theorem Local.mapM {f : α → Action K E β} {l : List α} (each : ∀ a ∈ l, Local seen (f a)) :
    Local seen (l.mapM f) := by
  induction l with
  | nil => exact .pure seen []
  | cons a rest ih =>
    obtain ⟨first, later⟩ := List.forall_mem_cons.1 each
    rw [List.mapM_cons]
    exact first.bind fun b => (ih later).bind fun bs => .pure seen (b :: bs)

theorem Local.forM {f : α → Action K E Unit} {l : List α} (each : ∀ a ∈ l, Local seen (f a)) :
    Local seen (l.forM f) := by
  induction l with
  | nil => exact .pure seen ()
  | cons a rest ih =>
    obtain ⟨first, later⟩ := List.forall_mem_cons.1 each
    exact first.bind fun _ => ih later

/-- The step leaves every variable that was there as it was, whether it succeeds or not. -/
def Extends (step : Action K E α) : Prop :=
  ∀ s : Store K, s.Agree (· < s.size) (step.on s).2

theorem Extends.pure (a : α) : Extends (Pure.pure a : Action K E α) :=
  fun s => .refl _ s

theorem Extends.ofExcept (result : Except E α) : Extends (Action.ofExcept result : Action K E α) :=
  fun s => .refl _ s

theorem Extends.create (name : String) (value : K) : Extends (Action.create name value : Action K E VarId) := by
  intro s v old
  rw [on_create, s.get?_create, if_neg (Nat.ne_of_lt old)]

theorem Extends.mapError {F : Type} {step : Action K E α} (adds : Extends step) (f : E → F) :
    Extends (Action.mapError f step) :=
  adds

theorem Extends.bind {step : Action K E α} {next : α → Action K E β} (first : Extends step)
    (later : ∀ a, Extends (next a)) : Extends (step >>= next) := by
  intro s
  have begun := first s
  rw [on_bind]
  rcases stepped : step.on s with ⟨result, t⟩
  rw [stepped] at begun
  cases result with
  | error e => exact begun
  | ok a => exact begun.trans ((later a t).mono fun v old => (begun.known old).2 old)

theorem Extends.map {step : Action K E α} (adds : Extends step) (f : α → β) : Extends (f <$> step) := by
  rw [map_eq_pure_bind]
  exact adds.bind fun a => .pure (f a)

theorem Extends.mapM {f : α → Action K E β} {l : List α} (each : ∀ a ∈ l, Extends (f a)) : Extends (l.mapM f) := by
  induction l with
  | nil => exact .pure []
  | cons a rest ih =>
    obtain ⟨first, later⟩ := List.forall_mem_cons.1 each
    rw [List.mapM_cons]
    exact first.bind fun b => (ih later).bind fun bs => .pure (b :: bs)

end Action

end Distillation
