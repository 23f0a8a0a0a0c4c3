import Mathlib.Algebra.GroupWithZero.Nat
import Mathlib.Data.List.Forall2
import Mathlib.Data.List.Nodup
import Mathlib.Data.List.Perm.Basic

namespace Distillation

section Related

variable {α β : Type} {R : α → β → Prop}

/-- A relation through images picks originals. -/
theorem exists_map_of_forall₂ {γ : Type} {f : γ → β} {P : α → γ → Prop} {as : List α} {bs : List β}
    (related : List.Forall₂ (fun a b => ∃ c, b = f c ∧ P a c) as bs) :
    ∃ cs, bs = cs.map f ∧ List.Forall₂ P as cs := by
  induction related with
  | nil => exact ⟨[], rfl, .nil⟩
  | cons first _ ih =>
    obtain ⟨c, rfl, holds⟩ := first
    obtain ⟨cs, rfl, later⟩ := ih
    exact ⟨c :: cs, rfl, .cons holds later⟩

theorem of_forall₂_range {P : Nat → α → Prop} {n : Nat} {as : List α}
    (related : List.Forall₂ P (List.range n) as) {i : Nat} {a : α} (found : as[i]? = some a) : P i a := by
  obtain ⟨bound, rfl⟩ := List.getElem?_eq_some_iff.1 found
  have short : i < (List.range n).length := related.length_eq ▸ bound
  simpa using related.get short bound

theorem exists_getElem?_of_forall₂ {as : List α} {bs : List β} (related : List.Forall₂ R as bs) {i : Nat} {a : α}
    (found : as[i]? = some a) : ∃ b, bs[i]? = some b ∧ R a b := by
  obtain ⟨bound, rfl⟩ := List.getElem?_eq_some_iff.1 found
  have inside : i < bs.length := related.length_eq ▸ bound
  exact ⟨bs[i], List.getElem?_eq_getElem inside, related.get bound inside⟩

theorem exists_left_of_forall₂ {as : List α} {bs : List β}
    (related : List.Forall₂ R as bs) {b : β} (inside : b ∈ bs) : ∃ a ∈ as, R a b := by
  induction related with
  | nil => simp at inside
  | cons first _ ih =>
    rcases List.mem_cons.1 inside with rfl | later
    · exact ⟨_, List.mem_cons_self, first⟩
    · obtain ⟨a, among, holds⟩ := ih later
      exact ⟨a, List.mem_cons_of_mem _ among, holds⟩

theorem exists_right_of_forall₂ {as : List α} {bs : List β}
    (related : List.Forall₂ R as bs) {a : α} (inside : a ∈ as) : ∃ b ∈ bs, R a b :=
  exists_left_of_forall₂ (List.Forall₂.flip related) inside

theorem exists_forall₂ {l : List α} (each : ∀ a ∈ l, ∃ b, R a b) : ∃ bs, List.Forall₂ R l bs := by
  induction l with
  | nil => exact ⟨[], .nil⟩
  | cons a rest ih =>
    obtain ⟨⟨b, holds⟩, later⟩ := List.forall_mem_cons.1 each
    obtain ⟨bs, related⟩ := ih later
    exact ⟨b :: bs, .cons holds related⟩

theorem forall₂_filterMap {f : α → Option β} {l : List α} (each : ∀ a ∈ l, ∃ b, f a = some b ∧ R a b) :
    List.Forall₂ R l (l.filterMap f) := by
  induction l with
  | nil => exact .nil
  | cons a rest ih =>
    obtain ⟨⟨b, found, holds⟩, later⟩ := List.forall_mem_cons.1 each
    rw [List.filterMap_cons_some found]
    exact .cons holds (ih later)

end Related

section Results

variable {α β E : Type}

theorem bind_eq_ok {result : Except E α} {next : α → Except E β} {b : β} :
    result >>= next = .ok b ↔ ∃ a, result = .ok a ∧ next a = .ok b := by
  cases result with
  | error e =>
    constructor
    · intro ran
      cases ran
    · rintro ⟨a, ran, _⟩
      cases ran
  | ok a =>
    constructor
    · exact fun ran => ⟨a, rfl, ran⟩
    · rintro ⟨_, same, ran⟩
      cases same
      exact ran

theorem bind_pure_eq_error {result : Except E α} {f : α → β} {e : E} :
    (do let a ← result; return f a : Except E β) = .error e ↔ result = .error e := by
  cases result with
  | error other =>
    constructor
    · intro ran
      cases ran
      rfl
    · intro same
      cases same
      rfl
  | ok a => exact iff_of_false (fun ran => nomatch ran) (fun same => nomatch same)

theorem mapError_eq_ok {F : Type} {f : E → F} {result : Except E α} {a : α} :
    result.mapError f = .ok a ↔ result = .ok a := by
  cases result with
  | error e =>
    constructor
    · intro mapped
      cases mapped
    · intro same
      cases same
  | ok b =>
    constructor
    · intro mapped
      cases mapped
      rfl
    · intro same
      cases same
      rfl

theorem forall₂_of_mapM_eq_ok {f : α → Except E β} {l : List α} :
    ∀ {bs : List β}, l.mapM f = .ok bs → List.Forall₂ (fun a b => f a = .ok b) l bs := by
  induction l with
  | nil =>
    intro bs ran
    cases ran
    exact .nil
  | cons a rest ih =>
    intro bs ran
    rw [List.mapM_cons] at ran
    obtain ⟨b, first, ran⟩ := bind_eq_ok.1 ran
    obtain ⟨others, later, ran⟩ := bind_eq_ok.1 ran
    cases ran
    exact .cons first (ih later)

theorem elim_eq_ok {error? : Option E} {a b : α} :
    error?.elim (.ok a) .error = (.ok b : Except E α) ↔ error? = none ∧ b = a := by
  cases error? <;> simp [eq_comm]

theorem elim_eq_error {error? : Option E} {a : α} {e : E} :
    error?.elim (.ok a) .error = (.error e : Except E α) ↔ error? = some e := by
  cases error? <;> simp

theorem findSome?_congr {f g : α → Option β} {l : List α} (same : ∀ a ∈ l, f a = g a) :
    l.findSome? f = l.findSome? g := by
  rw [← List.head?_filterMap, ← List.head?_filterMap, List.filterMap_congr same]

/-- If whatever is found is marked alike, a search is known by whether it finds anything. -/
theorem map_findSome? {γ : Type} {f : α → Option β} {mark : β → γ} {c : γ} {l : List α} {p : α → Bool}
    (each : ∀ a ∈ l, (f a).map mark = if p a then none else some c) :
    (l.findSome? f).map mark = if l.all p then none else some c := by
  induction l with
  | nil => rfl
  | cons a rest ih =>
    obtain ⟨first, later⟩ := List.forall_mem_cons.1 each
    rw [List.findSome?_cons, List.all_cons]
    cases found : f a <;> cases passed : p a <;> simp_all

/-- Where each step either fails with an error of its own or gives a value, a run fails with the first error
or gives all values. -/
theorem mapM_eq_findSome? {f : α → Except E β} (error? : α → Option E) (value : α → β) {l : List α}
    (each : ∀ a ∈ l, f a = (error? a).elim (.ok (value a)) .error) :
    l.mapM f = (l.findSome? error?).elim (.ok (l.map value)) .error := by
  induction l with
  | nil => rfl
  | cons a rest ih =>
    obtain ⟨first, later⟩ := List.forall_mem_cons.1 each
    rw [List.mapM_cons, first, ih later, List.findSome?_cons]
    cases error? a with
    | some e => rfl
    | none => cases rest.findSome? error? <;> rfl

theorem mapM_congr {f g : α → Except E β} {l : List α} (same : ∀ a ∈ l, f a = g a) : l.mapM f = l.mapM g := by
  induction l with
  | nil => rfl
  | cons a rest ih =>
    obtain ⟨first, later⟩ := List.forall_mem_cons.1 same
    rw [List.mapM_cons, List.mapM_cons, first, ih later]

theorem mapM_eq_ok {f : α → Except E β} {value : α → β} {l : List α} (each : ∀ a ∈ l, f a = .ok (value a)) :
    l.mapM f = .ok (l.map value) := by
  have none : (l.findSome? fun _ => (none : Option E)) = none := List.findSome?_eq_none_iff.2 fun _ _ => rfl
  rw [mapM_eq_findSome? (fun _ => .none) value each, none]
  rfl

theorem mapM_eq_some_of_forall₂ {f : α → Option β} {l : List α} {bs : List β}
    (related : List.Forall₂ (fun a b => f a = some b) l bs) : l.mapM f = some bs := by
  induction related with
  | nil => rfl
  | cons first _ ih => simp [List.mapM_cons, first, ih]

theorem mapM_eq_ok_of_forall₂ {f : α → Except E β} {l : List α} {bs : List β}
    (related : List.Forall₂ (fun a b => f a = .ok b) l bs) : l.mapM f = .ok bs := by
  induction related with
  | nil => rfl
  | cons first _ ih =>
    rw [List.mapM_cons, first, ih]
    rfl

theorem forall₂_of_mapM_eq_some {f : α → Option β} {l : List α} :
    ∀ {bs : List β}, l.mapM f = some bs → List.Forall₂ (fun a b => f a = some b) l bs := by
  induction l with
  | nil =>
    intro bs ran
    cases ran
    exact .nil
  | cons a rest ih =>
    intro bs ran
    rw [List.mapM_cons] at ran
    obtain ⟨b, first, ran⟩ := Option.bind_eq_some_iff.1 ran
    obtain ⟨others, later, ran⟩ := Option.bind_eq_some_iff.1 ran
    cases ran
    exact .cons first (ih later)

theorem exists_mapM_eq_some_iff {f : α → Option β} {l : List α} :
    (∃ bs, l.mapM f = some bs) ↔ ∀ a ∈ l, ∃ b, f a = some b := by
  constructor
  · rintro ⟨bs, ran⟩ a inside
    obtain ⟨b, _, made⟩ := exists_right_of_forall₂ (forall₂_of_mapM_eq_some ran) inside
    exact ⟨b, made⟩
  · intro each
    obtain ⟨bs, related⟩ := exists_forall₂ each
    exact ⟨bs, mapM_eq_some_of_forall₂ related⟩

theorem exists_mapM_eq_ok_iff {f : α → Except E β} {l : List α} :
    (∃ bs, l.mapM f = .ok bs) ↔ ∀ a ∈ l, ∃ b, f a = .ok b := by
  constructor
  · rintro ⟨bs, ran⟩ a inside
    obtain ⟨b, _, made⟩ := exists_right_of_forall₂ (forall₂_of_mapM_eq_ok ran) inside
    exact ⟨b, made⟩
  · intro each
    obtain ⟨bs, related⟩ := exists_forall₂ each
    exact ⟨bs, mapM_eq_ok_of_forall₂ related⟩

/-- A run fails with the error of the first step that fails. -/
theorem mapM_eq_error_iff {f : α → Except E β} {e : E} {l : List α} : l.mapM f = .error e ↔
    ∃ before a after, l = before ++ a :: after ∧ (∀ earlier ∈ before, ∃ b, f earlier = .ok b) ∧ f a = .error e := by
  induction l with
  | nil =>
    constructor
    · intro ran
      cases ran
    · rintro ⟨before, a, after, empty, _⟩
      simp at empty
  | cons a rest ih =>
    rw [List.mapM_cons]
    cases first : f a with
    | error other =>
      constructor
      · intro ran
        cases ran
        exact ⟨[], a, rest, rfl, by simp, first⟩
      · rintro ⟨before, b, after, split, passed, failed⟩
        cases before with
        | nil =>
          cases split
          cases first.symm.trans failed
          rfl
        | cons c before =>
          cases split
          obtain ⟨_, made⟩ := passed _ List.mem_cons_self
          cases first.symm.trans made
    | ok made =>
      refine bind_pure_eq_error.trans (ih.trans ⟨?_, ?_⟩)
      · rintro ⟨before, b, after, rfl, passed, failed⟩
        exact ⟨a :: before, b, after, rfl, List.forall_mem_cons.2 ⟨⟨made, first⟩, passed⟩, failed⟩
      · rintro ⟨before, b, after, split, passed, failed⟩
        cases before with
        | nil =>
          cases split
          cases first.symm.trans failed
        | cons c before =>
          cases split
          exact ⟨before, b, after, rfl, fun earlier inside => passed earlier (List.mem_cons_of_mem _ inside), failed⟩

end Results

section Lookup

variable {α β : Type}

/-- A key that stands for one value only is looked up to it. -/
theorem lookup_of_unique [BEq α] [LawfulBEq α] {a : α} {b : β} {l : List (α × β)} (inside : (a, b) ∈ l)
    (unique : ∀ other, (a, other) ∈ l → other = b) : l.lookup a = some b := by
  induction l with
  | nil => simp at inside
  | cons entry rest ih =>
    obtain ⟨key, value⟩ := entry
    rw [List.lookup_cons]
    by_cases here : a = key
    · subst here
      have first := unique value List.mem_cons_self
      simp [first]
    · have other : (a == key) = false := beq_false_of_ne here
      rw [other]
      refine ih ?_ fun other later => unique other (List.mem_cons_of_mem _ later)
      rcases List.mem_cons.1 inside with same | later
      · exact absurd (congrArg Prod.fst same) here
      · exact later

/-- Where all keys are different, each entry is looked up at its own. -/
theorem lookup_of_nodup [BEq α] [LawfulBEq α] {a : α} {b : β} {l : List (α × β)} (distinct : (l.map (·.1)).Nodup)
    (inside : (a, b) ∈ l) : l.lookup a = some b :=
  lookup_of_unique inside fun _ among =>
    (Prod.mk.inj (List.inj_on_of_nodup_map distinct among inside rfl)).2

theorem mem_of_lookup_eq_some [BEq α] [LawfulBEq α] {a : α} {b : β} {l : List (α × β)} (found : l.lookup a = some b) :
    (a, b) ∈ l := by
  obtain ⟨before, after, rfl, _⟩ := List.lookup_eq_some_iff.1 found
  exact List.mem_append_right _ List.mem_cons_self

theorem exists_lookup_iff [BEq α] [LawfulBEq α] {a : α} {l : List (α × β)} :
    (∃ b, l.lookup a = some b) ↔ a ∈ l.map (·.1) := by
  rw [← Option.isSome_iff_exists, List.lookup_isSome_iff, List.mem_map]
  exact exists_congr fun entry => and_congr_right fun _ => beq_iff_eq.trans eq_comm

theorem lookup_zip_of_not_mem [BEq α] [LawfulBEq α] {a : α} {l : List α} (absent : a ∉ l) (bs : List β) :
    (l.zip bs).lookup a = none :=
  List.lookup_eq_none_iff.2 fun entry inside => by
    simpa using fun same : a = entry.1 => absent (same ▸ (List.of_mem_zip inside).1)

/-- Under keys that tell positions apart, each element is looked up at its position. -/
theorem lookup_mapIdx {γ : Type} [BEq γ] [LawfulBEq γ] {key : Nat → γ} (apart : Function.Injective key)
    (value : Nat → α → β) {l : List α} {i : Nat} {a : α} (here : l[i]? = some a) :
    (l.mapIdx fun i a => (key i, value i a)).lookup (key i) = some (value i a) := by
  obtain ⟨bound, rfl⟩ := List.getElem?_eq_some_iff.1 here
  refine lookup_of_unique (List.mem_mapIdx.2 ⟨i, bound, rfl⟩) fun other inside => ?_
  obtain ⟨k, _, same⟩ := List.mem_mapIdx.1 inside
  obtain ⟨position, rfl⟩ := Prod.mk.inj same
  obtain rfl := apart position
  rfl

theorem lookup_map {γ : Type} [BEq α] (key : γ → α) (term : γ → β) (a : α) (l : List γ) :
    (l.map fun c => (key c, term c)).lookup a = (l.find? fun c => a == key c).map term := by
  induction l with
  | nil => rfl
  | cons c rest ih =>
    rw [List.map_cons, List.lookup_cons, List.find?_cons, ih]
    cases a == key c <;> rfl

/-- Where all marks are different, each element is found by its own. -/
theorem find?_of_nodup [BEq β] [LawfulBEq β] {f : α → β} {l : List α} (distinct : (l.map f).Nodup) {a : α}
    (inside : a ∈ l) : (l.find? fun other => f other == f a) = some a := by
  induction l with
  | nil => simp at inside
  | cons first rest ih =>
    obtain ⟨fresh, later⟩ := List.nodup_cons.1 distinct
    rcases List.mem_cons.1 inside with rfl | inRest
    · simp
    · have other : (f first == f a) = false :=
        beq_false_of_ne fun same => fresh (List.mem_map.2 ⟨a, inRest, same.symm⟩)
      rw [List.find?_cons, other]
      exact ih later inRest

end Lookup

section Indices

variable {α β : Type}

theorem map_mapIdx {γ : Type} (f : Nat → α → β) (g : β → γ) (h : α → γ) (same : ∀ i a, g (f i a) = h a)
    (l : List α) : (l.mapIdx f).map g = l.map h := by
  refine List.ext_getElem? fun i => ?_
  simp [same, Function.comp_def]

theorem map_mapIdx_position {γ : Type} (f : Nat → α → β) (g : β → γ) (h : Nat → γ) (same : ∀ i a, g (f i a) = h i)
    (l : List α) : (l.mapIdx f).map g = (List.range l.length).map h := by
  refine List.ext_getElem (by simp) fun i _ _ => ?_
  simp [same]

theorem getElem?_filterMap_of_isSome (f : α → Option β) {l : List α} (full : ∀ a ∈ l, (f a).isSome) :
    ∀ i : Nat, (l.filterMap f)[i]? = l[i]?.bind f := by
  induction l with
  | nil => simp
  | cons a rest ih =>
    intro i
    obtain ⟨b, found⟩ := Option.isSome_iff_exists.1 (full a List.mem_cons_self)
    rw [List.filterMap_cons, found]
    cases i with
    | zero => simp [found]
    | succ i => simpa using ih (fun c later => full c (List.mem_cons_of_mem _ later)) i

/-- What is kept stands at the number of earlier elements from which something is kept. -/
theorem getElem?_filterMap_eq_some {f : α → Option β} {l : List α} {b : β} : ∀ {i : Nat},
    (l.filterMap f)[i]? = some b ↔
      ∃ (k : Nat) (a : α), l[k]? = some a ∧ f a = some b ∧ (l.take k).countP (fun a => (f a).isSome) = i := by
  induction l with
  | nil => simp
  | cons first rest ih =>
    intro i
    rw [← Nat.or_exists_add_one]
    simp only [List.getElem?_cons_zero, List.getElem?_cons_succ, List.take_zero, List.take_succ_cons, List.countP_nil,
      List.countP_cons]
    cases made : f first with
    | none =>
      rw [List.filterMap_cons_none made, ih]
      simp [made]
    | some own =>
      rw [List.filterMap_cons_some made]
      cases i with
      | zero => simp [made]
      | succ i => simp [ih]

/-- Where lists have nothing in common, an element tells which of them it comes from. -/
theorem position_of_nodup_flatMap {f : α → List β} {l : List α} (distinct : (l.flatMap f).Nodup) {i j : Nat} {a a' : α}
    {b : β} (here : l[i]? = some a) (there : l[j]? = some a') (inside : b ∈ f a) (inside' : b ∈ f a') : i = j := by
  have apart := List.pairwise_iff_getElem.1 (List.nodup_flatMap.1 distinct).2
  obtain ⟨bound, rfl⟩ := List.getElem?_eq_some_iff.1 here
  obtain ⟨bound', rfl⟩ := List.getElem?_eq_some_iff.1 there
  rcases Nat.lt_trichotomy i j with before | same | after
  · exact (apart i j bound bound' before inside inside').elim
  · exact same
  · exact (apart j i bound' bound after inside' inside).elim

theorem map_if (f : α → β) (b : Bool) (l : List α) :
    (if b then l.map f else []) = l.flatMap fun a => if b then [f a] else [] := by
  cases b with
  | true => exact List.map_eq_flatMap
  | false => simp

theorem flatMap_four_perm (f g h k : α → List β) (l : List α) :
    (l.flatMap f ++ (l.flatMap g ++ (l.flatMap h ++ l.flatMap k))).Perm
      (l.flatMap fun a => f a ++ (g a ++ (h a ++ k a))) := by
  have last := List.flatMap_append_perm l h k
  have middle := List.flatMap_append_perm l g fun a => h a ++ k a
  exact (((last.append_left _).trans middle).append_left _).trans (List.flatMap_append_perm l f _)

theorem flatMap_zipIdx (f : α → List β) (l : List α) :
    l.zipIdx.flatMap (fun entry => f entry.1) = l.flatMap f := by
  rw [← List.flatMap_map, List.zipIdx_map_fst]

theorem flatMap_zipIdx_position (f : Nat → List β) (l : List α) :
    l.zipIdx.flatMap (fun entry => f entry.2) = (List.range l.length).flatMap f := by
  rw [← List.flatMap_map, List.zipIdx_map_snd, List.range_eq_range']

/-- Lists of one length each have together that length as often as there are lists. -/
theorem length_flatten_of_forall {lists : List (List α)} {n : Nat} (each : ∀ list ∈ lists, list.length = n) :
    lists.flatten.length = lists.length * n := by
  rw [List.length_flatten, List.map_congr_left each, List.map_const', List.sum_replicate_nat]

theorem sum_map_mul (n : Nat) (f : α → Nat) (l : List α) : (l.map fun a => n * f a).sum = n * (l.map f).sum := by
  induction l with
  | nil => rfl
  | cons a rest ih => rw [List.map_cons, List.map_cons, List.sum_cons, List.sum_cons, ih, Nat.mul_add]

/-- What counts for nothing may be left out of a count. -/
theorem sum_map_filter {f : α → Nat} {p : α → Bool} {l : List α} (zero : ∀ a ∈ l, p a = false → f a = 0) :
    ((l.filter p).map f).sum = (l.map f).sum := by
  induction l with
  | nil => rfl
  | cons a rest ih =>
    obtain ⟨here, later⟩ := List.forall_mem_cons.1 zero
    rw [List.filter_cons]
    cases kept : p a with
    | true => rw [if_pos rfl, List.map_cons, List.map_cons, List.sum_cons, List.sum_cons, ih later]
    | false => rw [if_neg Bool.false_ne_true, List.map_cons, List.sum_cons, here kept, ih later, Nat.zero_add]

end Indices

end Distillation
