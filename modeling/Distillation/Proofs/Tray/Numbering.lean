import Distillation.Proofs.Tray.Balances
import Distillation.Proofs.Tray.Equations

namespace Distillation

namespace ComponentSet

theorem indexOf?_eq_some_iff {components : ComponentSet} (distinct : components.names.Nodup) {name : String} {j : Nat} :
    components.indexOf? name = some j ↔ components.names[j]? = some name := by
  rw [indexOf?, List.findIdx?_eq_some_iff_getElem, List.getElem?_eq_some_iff]
  refine exists_congr fun bound => ?_
  rw [beq_iff_eq, and_iff_left_iff_imp]
  intro same i before other
  have position := distinct.getElem_inj_iff.1 ((beq_iff_eq.1 other).trans same.symm)
  exact before.ne position

/-- As many names are left as were given where none was given twice. -/
theorem count_ofList_iff {names : List String} : (ofList names).count = names.length ↔ names.Nodup := by
  constructor
  · intro count
    have included : (ofList names).names ⊆ names := fun name => mem_ofList.1
    have same := (List.subperm_of_subset (nodup_ofList names) included).perm_of_length_le count.ge
    exact same.nodup_iff.1 (nodup_ofList names)
  · intro distinct
    rw [count, names_ofList distinct]

end ComponentSet

/-- The time position of an equation. -/
def EquationIndex.point : EquationIndex → Nat
  | time t => t
  | timeComponent t _ => t

theorem EquationIndex.countP_grid {t n : Nat} (bound : t < n) (m : Nat) : (grid n m).countP (·.point == t) = m := by
  have other : ∀ u, u ≠ t → u ∈ List.range n → ((List.range m).map (timeComponent u)).countP (·.point == t) = 0 := by
    intro u apart _
    simp [point, apart]
  have own : ((List.range m).map (timeComponent t)).countP (·.point == t) = m := by
    simp [Function.comp_def, point]
  have once := List.count_eq_one_of_mem List.nodup_range (List.mem_range.2 bound)
  rw [grid, List.countP_flatMap, Function.comp_def, List.sum_map_eq_nsmul_single t _ other, once, one_nsmul, own]

namespace Family

variable {K : Type}

/-- The indices and names of the equations. -/
def listing (family : Family K) : List (EquationIndex × String) :=
  family.members.map fun member => (member.1, member.2.name)

/-- The number of equations at a time point. -/
def sizeAt (family : Family K) (t : Nat) : Nat :=
  family.members.countP (·.1.point == t)

theorem sizeAt_eq (family : Family K) (t : Nat) : family.sizeAt t = (family.members.map (·.1)).countP (·.point == t) := by
  rw [List.countP_map]
  rfl

end Family

variable {K : Type} [Scalar K]

namespace Balances

variable {tray : String} {phases : List Phase} {components : ComponentSet} {points : List (Mixing K)}

theorem listing_materialFamily : (materialFamily tray phases components points).listing =
    (List.range points.length).flatMap fun t => components.names.mapIdx fun j name =>
      (.timeComponent t j, s!"{tray}.material_mixing_equations[{t},{name}]") := by
  rw [Family.listing, materialFamily, Family.ofMembers, List.map_flatMap, ← flatMap_zipIdx_position]
  refine List.flatMap_congr fun entry _ => ?_
  dsimp only
  rw [List.mapIdx_eq_zipIdx_map, List.mapIdx_eq_zipIdx_map, List.map_map]
  rfl

theorem sizeAt_materialFamily {t : Nat} (bound : t < points.length) :
    (materialFamily tray phases components points).sizeAt t = components.count := by
  rw [Family.sizeAt_eq, (materialFamily_indexed tray phases points components).listed, EquationIndex.countP_grid bound]

end Balances

namespace IdealState

variable {package : IdealPackage K} {reference : K} {state : IdealState K} (accepted : package.checkFactors = .ok ())
  (fits : state.Fits package reference)
include accepted fits

theorem listing_equilibriumFamily (t : Nat) : (state.equilibriumFamily package.equilibrium t).listing =
    package.components.mapIdx fun k c => (.timeComponent t k, s!"{state.label}.equilibrium_constraint[{t},{c.name}]") := by
  have count : state.components.length = (state.equilibriumBodies package.equilibrium).length := by
    rw [length_equilibriumBodies accepted fits, fits.count]
  have data : (state.components.zip (state.equilibriumBodies package.equilibrium)).map (·.1.data) =
      package.components := by
    have paired := congrArg (List.map (·.data)) (List.map_fst_zip (Nat.le_of_eq count))
    rw [List.map_map, fits.data] at paired
    exact paired
  rw [Family.listing, equilibriumFamily, Family.ofMembers, ← data, List.mapIdx_eq_zipIdx_map,
    List.mapIdx_eq_zipIdx_map, List.map_map, List.zipIdx_map, List.map_map]
  rfl

theorem sizeAt_equilibriumFamily (t : Nat) :
    (state.equilibriumFamily package.equilibrium t).sizeAt t = package.components.length := by
  have count : (state.equilibriumFamily package.equilibrium t).members.length = package.components.length := by
    rw [← List.length_map, ← Family.listing, listing_equilibriumFamily accepted fits, List.length_mapIdx]
  rw [Family.sizeAt, ← count, List.countP_eq_length]
  intro member inside
  obtain ⟨j, _, rfl⟩ := List.mem_mapIdx.1 inside
  exact beq_self_eq_true t

end IdealState

namespace Tray

/-- At each time point the balance of a component stands at its number in the component set, and so does whatever
equilibrium relation is named after it. -/
def SameNumbers (package : IdealPackage K) (tray : Tray K) : Prop :=
  ∀ (t : Nat) (outlet : PropertyState K), tray.outlets[t]? = some outlet → ∀ name ∈ package.componentSet.names,
    ∃ j, package.componentSet.indexOf? name = some j ∧
      (tray.balances.material.get? (.timeComponent t j)).map (·.name) =
        some s!"{tray.name}.material_mixing_equations[{t},{name}]" ∧
      ∀ family ∈ outlet.families, ∀ i,
        (i, s!"{outlet.label}.equilibrium_constraint[{t},{name}]") ∈ family.listing → i = .timeComponent t j

/-- At each time point there are as many equilibrium relations as balances of material. -/
def SameSizes (tray : Tray K) : Prop :=
  ∀ (t : Nat) (outlet : PropertyState K), tray.outlets[t]? = some outlet → ∀ family ∈ outlet.families,
    family.sizeAt t = tray.balances.material.sizeAt t

namespace Anatomy

variable {package : IdealPackage K} {tray : Tray K} {points : List (IdealPoint K)}
  (anatomy : Anatomy package tray points)
include anatomy

/-- The only equations of an outlet are its equilibrium relations, one for each component that was given. -/
theorem listing_outlet {t : Nat} {outlet : PropertyState K} (here : tray.outlets[t]? = some outlet) :
    ∃ family, outlet.families = [family] ∧ family.sizeAt t = package.components.length ∧
      family.listing = package.components.mapIdx fun k c =>
        (.timeComponent t k, s!"{outlet.label}.equilibrium_constraint[{t},{c.name}]") := by
  rw [anatomy.outlets_eq, List.getElem?_map, Option.map_eq_some_iff] at here
  obtain ⟨point, found, rfl⟩ := here
  have fits := anatomy.outlet_fits (List.mem_of_getElem? found)
  refine ⟨point.outlet.equilibriumFamily package.equilibrium t, ?_,
    IdealState.sizeAt_equilibriumFamily anatomy.factors fits t,
    IdealState.listing_equilibriumFamily anatomy.factors fits t⟩
  rw [IdealState.toState, anatomy.outlet t point found]
  rfl

theorem length_outlets : tray.outlets.length = tray.time.count := by
  rw [anatomy.outlets_eq, List.length_map, anatomy.count]

theorem exists_first_outlet : ∃ outlet, tray.outlets[0]? = some outlet := by
  have positive : 0 < tray.outlets.length := anatomy.length_outlets ▸ tray.time.count_pos
  exact ⟨_, List.getElem?_eq_getElem positive⟩

theorem length_mixings : tray.mixings.length = tray.time.count := by
  rw [anatomy.mixings_eq, List.length_map, anatomy.count]

theorem sizeAt_material {t : Nat} {outlet : PropertyState K} (here : tray.outlets[t]? = some outlet) :
    tray.balances.material.sizeAt t = package.componentSet.count := by
  obtain ⟨bound, _⟩ := List.getElem?_eq_some_iff.1 here
  rw [anatomy.material, Balances.sizeAt_materialFamily]
  rwa [anatomy.length_mixings, ← anatomy.length_outlets]

theorem sameSizes_iff : tray.SameSizes ↔ package.Distinct := by
  have counts : package.components.length = package.componentSet.count ↔ package.Distinct := by
    rw [← List.length_map, eq_comm]
    exact ComponentSet.count_ofList_iff
  rw [← counts]
  constructor
  · intro same
    obtain ⟨outlet, here⟩ := anatomy.exists_first_outlet
    obtain ⟨family, only, size, _⟩ := anatomy.listing_outlet here
    rw [← size, ← anatomy.sizeAt_material here]
    exact same 0 outlet here family (only ▸ List.mem_singleton_self family)
  · intro count t outlet here family listed
    obtain ⟨_, only, size, _⟩ := anatomy.listing_outlet here
    rw [only, List.mem_singleton] at listed
    rw [listed, size, anatomy.sizeAt_material here, count]

/-- Two relations of one name would stand at two places, but both at the number of the name. -/
theorem distinct_of_sameNumbers (same : tray.SameNumbers package) : package.Distinct := by
  obtain ⟨outlet, here⟩ := anatomy.exists_first_outlet
  obtain ⟨family, only, _, listing⟩ := anatomy.listing_outlet here
  have member : family ∈ outlet.families := only ▸ List.mem_singleton_self family
  have stands : ∀ (k : Nat) (bound : k < (package.components.map (·.name)).length), (EquationIndex.timeComponent 0 k,
      s!"{outlet.label}.equilibrium_constraint[{0},{(package.components.map (·.name))[k]}]") ∈ family.listing := by
    intro k bound
    rw [listing, List.mem_mapIdx]
    exact ⟨k, by simpa using bound, by rw [List.getElem_map]⟩
  refine List.nodup_iff_injective_getElem.2 fun i k alike => Fin.ext ?_
  dsimp only at alike
  have among : (package.components.map (·.name))[i.1] ∈ package.componentSet.names :=
    ComponentSet.mem_ofList.2 (List.getElem_mem i.2)
  obtain ⟨j, _, _, each⟩ := same 0 outlet here _ among
  have first := each family member _ (stands i.1 i.2)
  have second := each family member (.timeComponent 0 k.1) (by rw [alike]; exact stands k.1 k.2)
  exact (EquationIndex.timeComponent.inj (first.trans second.symm)).2

theorem sameNumbers_of_distinct (distinct : package.Distinct) : tray.SameNumbers package := by
  intro t outlet here name among
  have unique : package.componentSet.names.Nodup := ComponentSet.nodup_ofList _
  obtain ⟨j, number⟩ := List.getElem?_of_mem among
  refine ⟨j, (ComponentSet.indexOf?_eq_some_iff unique).2 number, ?_, fun family listed i stands => ?_⟩
  · obtain ⟨bound, _⟩ := List.getElem?_eq_some_iff.1 here
    rw [anatomy.length_outlets, ← anatomy.length_mixings] at bound
    rw [anatomy.material, Balances.get?_materialFamily (List.getElem?_eq_getElem bound) number]
    rfl
  · obtain ⟨_, only, _, listing⟩ := anatomy.listing_outlet here
    rw [only, List.mem_singleton] at listed
    rw [listed, listing, List.mem_mapIdx] at stands
    obtain ⟨k, bound, same⟩ := stands
    obtain ⟨rfl, named⟩ := Prod.mk.inj same
    have own : toString package.components[k].name = toString name := by simpa using named
    have number' : package.componentSet.names[k]? = some name := by
      rw [distinct.componentSet_names, List.getElem?_map, List.getElem?_eq_getElem bound, Option.map_some]
      exact congrArg some own
    obtain ⟨within, _⟩ := List.getElem?_eq_some_iff.1 number'
    rw [(List.getElem?_inj within unique).1 (number'.trans number.symm)]

end Anatomy

/-- How the equations of components are numbered on a tray that is built from an ideal package, whatever components it
is given. The balances of material are numbered by the component set at each time point; the equilibrium relations by
the components as they were given, each named after its component. So both have the number of the component just where
no name is repeated, and just then they are equally many at each time point. -/
theorem component_numbers {package : IdealPackage K} {config : TrayConfig K} {time : TimeSet K} {name : String}
    {s s' : Store K} {tray : Tray K} (built : (build name config package.toPackage time).on s = (.ok tray, s')) :
    tray.outlets.length = time.count ∧
    (tray.balances.material.listing = (List.range time.count).flatMap fun t =>
      package.componentSet.names.mapIdx fun j component =>
        (.timeComponent t j, s!"{name}.material_mixing_equations[{t},{component}]")) ∧
    (∀ (t : Nat) (outlet : PropertyState K), tray.outlets[t]? = some outlet →
      ∃ family, outlet.families = [family] ∧ family.listing = package.components.mapIdx fun k c =>
        (.timeComponent t k, s!"{outlet.label}.equilibrium_constraint[{t},{c.name}]")) ∧
    (tray.SameNumbers package ↔ package.Distinct) ∧ (tray.SameSizes ↔ package.Distinct) := by
  obtain ⟨labelled, _, points, anatomy⟩ := build_eq_ok built
  rw [← labelled.time_eq, ← labelled.name_eq]
  refine ⟨anatomy.length_outlets, ?_, fun t outlet here => ?_, ?_, anatomy.sameSizes_iff⟩
  · rw [anatomy.material, Balances.listing_materialFamily, anatomy.length_mixings]
  · obtain ⟨family, only, _, listing⟩ := anatomy.listing_outlet here
    exact ⟨family, only, listing⟩
  · exact ⟨anatomy.distinct_of_sameNumbers, anatomy.sameNumbers_of_distinct⟩

/-- Benzene and toluene have the same numbers in both families. -/
theorem benzeneToluene_numbers : ∃ (tray : Tray Float) (s : Store Float),
    (build "tray" .plain IdealPackage.benzeneToluene.toPackage .steady).on .empty = (.ok tray, s) ∧
      tray.SameNumbers IdealPackage.benzeneToluene ∧ tray.SameSizes := by
  have distinct : (IdealPackage.benzeneToluene : IdealPackage Float).Distinct := IdealPackage.benzeneToluene_distinct
  obtain ⟨tray, s, built⟩ : ∃ (tray : Tray Float) (s : Store Float),
      (build "tray" .plain IdealPackage.benzeneToluene.toPackage .steady).on .empty = (.ok tray, s) := ⟨_, _, rfl⟩
  obtain ⟨_, _, _, numbers, sizes⟩ := component_numbers built
  exact ⟨tray, s, built, numbers.2 distinct, sizes.2 distinct⟩

/-- Benzene is given twice, before toluene. -/
def benzeneTwice : IdealPackage Float :=
  .ofComponents [⟨"benzene", 135.0, 82.0, 30720.0⟩, ⟨"benzene", 135.0, 82.0, 30720.0⟩,
    ⟨"toluene", 157.0, 104.0, 33180.0⟩]

/-- There are then more relations than balances, and relations without the number of their component. -/
theorem benzeneTwice_numbers : ∃ (tray : Tray Float) (s : Store Float),
    (build "tray" .plain benzeneTwice.toPackage .steady).on .empty = (.ok tray, s) ∧
      ¬tray.SameNumbers benzeneTwice ∧ ¬tray.SameSizes := by
  have repeated : ¬benzeneTwice.Distinct := by
    simp [IdealPackage.Distinct, benzeneTwice, IdealPackage.ofComponents]
  obtain ⟨tray, s, built⟩ : ∃ (tray : Tray Float) (s : Store Float),
      (build "tray" .plain benzeneTwice.toPackage .steady).on .empty = (.ok tray, s) := ⟨_, _, rfl⟩
  obtain ⟨_, _, points, anatomy⟩ := build_eq_ok built
  exact ⟨tray, s, built, mt anatomy.distinct_of_sameNumbers repeated, mt anatomy.sameSizes_iff.1 repeated⟩

end Tray

end Distillation
