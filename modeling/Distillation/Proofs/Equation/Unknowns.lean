import Mathlib.Algebra.GroupWithZero.Nat
import Mathlib.Data.Finset.Card
import Distillation.Proofs.Expr.Variables
import Distillation.Proofs.Store.Flags

namespace Distillation

variable {K : Type}

namespace Expr

/-- A variable occurs in an expression, at any depth. -/
inductive Occurs (v : VarId) : Expr K → Prop
  | var : Occurs v (var v)
  | term {terms : List (Expr K)} {term : Expr K} (listed : term ∈ terms) (inside : Occurs v term) : Occurs v (sum terms)
  | first {a : Expr K} (b : Expr K) (inside : Occurs v a) : Occurs v (product a b)
  | second (a : Expr K) {b : Expr K} (inside : Occurs v b) : Occurs v (product a b)
  | upper {a : Expr K} (b : Expr K) (inside : Occurs v a) : Occurs v (quotient a b)
  | lower (a : Expr K) {b : Expr K} (inside : Occurs v b) : Occurs v (quotient a b)
  | neg {a : Expr K} (inside : Occurs v a) : Occurs v (neg a)

theorem mem_vars_iff_occurs {v : VarId} {e : Expr K} : v ∈ e.vars ↔ Occurs v e := by
  constructor
  · induction e with
    | const c => simp
    | var w =>
      intro listed
      rw [vars_var, List.mem_singleton] at listed
      exact listed ▸ .var
    | sum terms ih =>
      intro listed
      obtain ⟨term, among, inside⟩ := mem_vars_sum.1 listed
      exact .term among (ih term among inside)
    | product a b iha ihb => exact fun listed => (mem_vars_product.1 listed).elim (.first b ∘ iha) (.second a ∘ ihb)
    | quotient a b iha ihb => exact fun listed => (mem_vars_quotient.1 listed).elim (.upper b ∘ iha) (.lower a ∘ ihb)
    | neg a ih => exact fun listed => .neg (ih (vars_neg_node (a := a) ▸ listed))
  · intro occurs
    induction occurs with
    | var => simp
    | term listed _ ih => exact mem_vars_sum.2 ⟨_, listed, ih⟩
    | first b _ ih => exact mem_vars_product.2 (.inl ih)
    | second a _ ih => exact mem_vars_product.2 (.inr ih)
    | upper b _ ih => exact mem_vars_quotient.2 (.inl ih)
    | lower a _ ih => exact mem_vars_quotient.2 (.inr ih)
    | neg _ ih => rwa [vars_neg_node]

end Expr

/-- A variable occurs in an equation of the family. -/
def Family.Refers (family : Family K) (v : VarId) : Prop :=
  ∃ c ∈ family.constraints, c.body.Occurs v

namespace Model

variable {model model' : Model K} {s s' : Store K} {v : VarId}

/-- A variable occurs in an equation of an active family. -/
def Refers (model : Model K) (v : VarId) : Prop :=
  ∃ family ∈ model.families, family.active = true ∧ family.Refers v

theorem refers_iff_mem : model.Refers v ↔ v ∈ model.referenced := by
  simp only [Refers, Family.Refers, mem_referenced, mem_equations, Expr.mem_vars_iff_occurs]
  grind

instance (model : Model K) (v : VarId) : Decidable (model.Refers v) :=
  decidable_of_iff _ refers_iff_mem.symm

theorem mem_unknowns_iff : v ∈ model.unknowns s ↔ s.isFixed v = false ∧ model.Refers v := by
  rw [mem_unknowns, refers_iff_mem, mem_referenced]

/-- Each unknown that is gained is one more degree of freedom, each equation one less. -/
theorem freedom_of_kept {n : Nat} (kept : ∀ v ∈ model.unknowns s, v ∈ model'.unknowns s')
    (count : model'.equations.length = model.equations.length + n) : model'.freedom s' =
      model.freedom s + ((model'.unknowns s').toFinset \ (model.unknowns s).toFinset).card - n := by
  have subset : (model.unknowns s).toFinset ⊆ (model'.unknowns s').toFinset :=
    fun v inside => List.mem_toFinset.2 (kept v (List.mem_toFinset.1 inside))
  have total := Finset.card_sdiff_add_card_eq_card subset
  rw [List.toFinset_card_of_nodup (model.unknowns_nodup s), List.toFinset_card_of_nodup (model'.unknowns_nodup s')] at total
  rw [freedom, freedom, count]
  omega

/-- Of two stores that agree but for one variable, the one where it is free has it for an unknown, if it occurs. -/
theorem freedom_of_released (fixed : s.isFixed v = true) (free : s'.isFixed v = false)
    (same : ∀ w, w ≠ v → s'.isFixed w = s.isFixed w) :
    model.freedom s' = model.freedom s + if model.Refers v then 1 else 0 := by
  have unknowns : ∀ w, w ∈ model.unknowns s' ↔ w ∈ model.unknowns s ∨ w = v ∧ model.Refers v := by
    intro w
    rw [mem_unknowns_iff, mem_unknowns_iff]
    by_cases here : w = v
    · subst here
      simp [free, fixed]
    · simp [same w here, here]
  have held : v ∉ model.unknowns s := by
    simp [mem_unknowns_iff, fixed]
  have gained : (model.unknowns s').toFinset \ (model.unknowns s).toFinset = if model.Refers v then {v} else ∅ := by
    ext w
    rw [Finset.mem_sdiff, List.mem_toFinset, List.mem_toFinset, unknowns]
    split <;> grind
  rw [freedom_of_kept (n := 0) (fun w old => (unknowns w).2 (.inl old)) rfl, gained]
  split <;> simp

section Activation

variable {family : Family K}

theorem length_equations (model : Model K) : model.equations.length =
    (model.families.map fun family => if family.active then family.size else 0).sum := by
  obtain ⟨name, families⟩ := model
  induction families with
  | nil => rfl
  | cons family rest ih =>
    rw [List.map_cons, List.sum_cons, ← ih, equations, List.filter_cons]
    split <;> simp [equations, Family.constraints, Family.size]

/-- Equations that come from a family bring the variables that are new with them. -/
theorem freedom_of_switched (refers : ∀ v, model'.Refers v ↔ family.Refers v ∨ model.Refers v) {n : Nat}
    (count : model'.equations.length = model.equations.length + n) : ∃ gained : Finset VarId,
      (∀ v, v ∈ gained ↔ s.isFixed v = false ∧ family.Refers v ∧ ¬model.Refers v) ∧
        model'.freedom s = model.freedom s + gained.card - n := by
  refine ⟨_, fun v => ?_, freedom_of_kept (fun v old => ?_) count⟩
  · rw [Finset.mem_sdiff, List.mem_toFinset, List.mem_toFinset, mem_unknowns_iff, mem_unknowns_iff, refers]
    grind
  · obtain ⟨free, occurs⟩ := mem_unknowns_iff.1 old
    exact mem_unknowns_iff.2 ⟨free, (refers v).2 (.inr occurs)⟩

variable {name : String} {before after : List (Family K)}

/-- One family apart from the others. -/
theorem refers_split : (⟨name, before ++ family :: after⟩ : Model K).Refers v ↔
    family.active = true ∧ family.Refers v ∨ ∃ other ∈ before ++ after, other.active = true ∧ other.Refers v := by
  simp only [Refers, List.mem_append, List.mem_cons]
  grind

theorem freedom_activate (inactive : family.active = false) : ∃ gained : Finset VarId,
    (∀ v, v ∈ gained ↔ s.isFixed v = false ∧ family.Refers v ∧
      ∀ other ∈ before ++ after, other.active = true → ¬other.Refers v) ∧
    (⟨name, before ++ family.activate :: after⟩ : Model K).freedom s =
      (⟨name, before ++ family :: after⟩ : Model K).freedom s + gained.card - family.size := by
  have others : ∀ v, (⟨name, before ++ family :: after⟩ : Model K).Refers v ↔
      ∃ other ∈ before ++ after, other.active = true ∧ other.Refers v := by
    intro v
    rw [refers_split, inactive]
    simp
  have refers : ∀ v, (⟨name, before ++ family.activate :: after⟩ : Model K).Refers v ↔
      family.Refers v ∨ (⟨name, before ++ family :: after⟩ : Model K).Refers v := by
    intro v
    rw [refers_split, others]
    simp [Family.Refers, Family.activate, Family.constraints]
  obtain ⟨gained, mem_gained, freedom⟩ := freedom_of_switched (s := s) refers (n := family.size) (by
    simp [length_equations, inactive, Family.activate, Family.size]
    omega)
  refine ⟨gained, fun v => ?_, freedom⟩
  rw [mem_gained, others]
  grind

variable {ι : Type} [DecidableEq ι] {listed : List ι} {table : ι → Family K} {i : ι}

/-- A family may be listed more than once, and then brings its equations each time. -/
theorem freedom_activate_listed (present : i ∈ listed) (inactive : (table i).active = false) :
    ∃ gained : Finset VarId, (∀ v, v ∈ gained ↔ s.isFixed v = false ∧ (table i).Refers v ∧
        ∀ j ∈ listed, (table j).active = true → ¬(table j).Refers v) ∧
      (⟨name, listed.map (Function.update table i (table i).activate)⟩ : Model K).freedom s =
        (⟨name, listed.map table⟩ : Model K).freedom s + gained.card - (listed.count i * (table i).size : Nat) := by
  have refers : ∀ v, (⟨name, listed.map (Function.update table i (table i).activate)⟩ : Model K).Refers v ↔
      (table i).Refers v ∨ (⟨name, listed.map table⟩ : Model K).Refers v := by
    intro v
    simp only [Refers, List.mem_map]
    constructor
    · rintro ⟨_, ⟨j, among, rfl⟩, active, occurs⟩
      by_cases same : j = i
      · subst same
        rw [Function.update_self] at occurs
        exact .inl occurs
      · rw [Function.update_of_ne same] at active occurs
        exact .inr ⟨table j, ⟨j, among, rfl⟩, active, occurs⟩
    · rintro (occurs | ⟨_, ⟨j, among, rfl⟩, active, occurs⟩)
      · exact ⟨(table i).activate, ⟨i, present, Function.update_self ..⟩, rfl, occurs⟩
      · have other : j ≠ i := by
          rintro rfl
          rw [inactive] at active
          cases active
        exact ⟨table j, ⟨j, among, Function.update_of_ne other ..⟩, active, occurs⟩
  have count : ∀ listed : List ι,
      (⟨name, listed.map (Function.update table i (table i).activate)⟩ : Model K).equations.length =
        (⟨name, listed.map table⟩ : Model K).equations.length + listed.count i * (table i).size := by
    intro listed
    simp only [length_equations, List.map_map]
    induction listed with
    | nil => simp
    | cons j rest ih =>
      rw [List.map_cons, List.sum_cons, ih, List.map_cons, List.sum_cons, List.count_cons]
      by_cases same : j = i
      · subst same
        simp [inactive, Family.activate, Family.size, Nat.add_mul]
        omega
      · simp [same]
        omega
  obtain ⟨gained, mem_gained, freedom⟩ := freedom_of_switched (s := s) refers (count listed)
  refine ⟨gained, fun v => ?_, freedom⟩
  rw [mem_gained, Refers]
  simp

end Activation

/-- The unknowns of a model are exactly the free variables that occur in its active equations, in increasing order.
So a variable that is fixed costs a degree of freedom where it occurs and none elsewhere, and releasing it restores
store and freedom. A family that is switched on adds the free variables that occur in it and in no other active
family, and takes away one degree of freedom for each of its equations; where the model lists it more than once, its
equations count each time. -/
theorem unknowns_exact (model : Model K) (s : Store K) :
    (model.unknowns s).Pairwise (· < ·) ∧
    (∀ v, v ∈ model.unknowns s ↔ s.isFixed v = false ∧ model.Refers v) ∧
    (∀ v < s.size, s.isFixed v = false → (s.fix v).unfix v = s ∧
      model.freedom (s.fix v) = model.freedom s - if model.Refers v then 1 else 0) ∧
    (∀ v, s.isFixed v = true → (s.unfix v).fix v = s ∧
      model.freedom (s.unfix v) = model.freedom s + if model.Refers v then 1 else 0) ∧
    (∀ before family after, model.families = before ++ family :: after → family.active = false →
      ∃ gained : Finset VarId, (∀ v, v ∈ gained ↔ s.isFixed v = false ∧ family.Refers v ∧
          ∀ other ∈ before ++ after, other.active = true → ¬other.Refers v) ∧
        ({ model with families := before ++ family.activate :: after } : Model K).freedom s =
          model.freedom s + gained.card - family.size) ∧
    ∀ (ι : Type) [DecidableEq ι] (listed : List ι) (table : ι → Family K), model.families = listed.map table →
      ∀ i ∈ listed, (table i).active = false →
        ∃ gained : Finset VarId, (∀ v, v ∈ gained ↔ s.isFixed v = false ∧ (table i).Refers v ∧
            ∀ j ∈ listed, (table j).active = true → ¬(table j).Refers v) ∧
          ({ model with families := listed.map (Function.update table i (table i).activate) } : Model K).freedom s =
            model.freedom s + gained.card - (listed.count i * (table i).size : Nat) := by
  refine ⟨model.unknowns_increasing s, fun v => mem_unknowns_iff, fun v known free => ⟨Store.unfix_fix free, ?_⟩,
    fun v fixed => ⟨Store.fix_unfix fixed, ?_⟩, ?_, ?_⟩
  · have released : model.freedom s = model.freedom (s.fix v) + if model.Refers v then 1 else 0 := by
      refine freedom_of_released (by rw [Store.isFixed_fix]; simp [known]) free fun w other => ?_
      rw [Store.isFixed_fix]
      simp [other.symm]
    rw [released, Int.add_sub_cancel]
  · refine freedom_of_released fixed (by rw [Store.isFixed_unfix]; simp) fun w other => ?_
    rw [Store.isFixed_unfix]
    simp [other.symm]
  · obtain ⟨name, families⟩ := model
    rintro before family after rfl inactive
    exact freedom_activate inactive
  · obtain ⟨name, families⟩ := model
    rintro ι _ listed table rfl i present inactive
    exact freedom_activate_listed present inactive

/-- Two families share a variable, and the second, which is switched off, has an equation twice. Switching it on gains
one unknown for two equations. -/
theorem unknowns_exact_shared :
    let first : Family Float := .ofMembers "first" [(.time 0, ⟨"first[0]", .var 0 + .var 1⟩)]
    let second : Family Float := .ofMembers "second" [(.time 0, ⟨"second[0]", .var 1 * .var 2⟩),
      (.time 0, ⟨"second[0]", .var 1 * .var 2⟩)]
    let model : Model Float := ⟨"block", [first, second.deactivate]⟩
    let s : Store Float := ⟨#[⟨"x", 1, false⟩, ⟨"y", 1, false⟩, ⟨"z", 1, false⟩]⟩
    model.unknowns s = [0, 1] ∧ model.freedom s = 1 ∧ model.freedom (s.fix 1) = 0 ∧ model.freedom (s.fix 2) = 1 ∧
      (⟨"block", [first, second]⟩ : Model Float).freedom s = 0 := by
  intro first second model s
  obtain ⟨_, _, fixing, _, activating, _⟩ := unknowns_exact model s
  have start : model.freedom s = 1 := rfl
  obtain ⟨gained, mem_gained, activated⟩ := activating [first] second.deactivate [] rfl rfl
  have third : gained = {2} := by
    have own : ∀ v, first.Refers v ↔ v = 0 ∨ v = 1 := by
      simp [first, Family.Refers, Family.ofMembers, Family.constraints, ← Expr.mem_vars_iff_occurs]
    have other : ∀ v, second.deactivate.Refers v ↔ v = 1 ∨ v = 2 := by
      simp [second, Family.Refers, Family.ofMembers, Family.constraints, Family.deactivate, ← Expr.mem_vars_iff_occurs]
    ext v
    rw [mem_gained, other, Finset.mem_singleton]
    constructor
    · rintro ⟨_, occurs, apart⟩
      exact occurs.resolve_left fun shared => apart first (by simp) rfl ((own v).2 (.inr shared))
    · rintro rfl
      refine ⟨rfl, .inr rfl, fun family listed _ occurs => ?_⟩
      rw [List.mem_singleton.1 listed, own] at occurs
      exact absurd occurs (by decide)
  refine ⟨rfl, start, ?_, ?_, ?_⟩
  · rw [(fixing 1 (by decide) rfl).2, start]
    rfl
  · rw [(fixing 2 (by decide) rfl).2, start]
    rfl
  · rw [start, third] at activated
    exact activated

end Model

end Distillation
