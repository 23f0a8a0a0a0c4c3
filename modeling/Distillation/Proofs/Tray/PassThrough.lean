import Distillation.Proofs.Lists
import Distillation.Tray.Build

namespace Distillation

variable {K : Type}

/-- The names under which a state offers members to ports, in order. -/
def PropertyState.offers (state : PropertyState K) : List String :=
  state.portMembers.map (·.1)

theorem PropertyState.getElem?_offers {state : PropertyState K} {k : Nat} {name : String} {q : Quantity K}
    (entry : state.portMembers[k]? = some (name, q)) : state.offers[k]? = some name := by
  rw [offers, List.getElem?_map, entry, Option.map_some]

/-- Whatever the port shows at a time is what the state at that time offers under the name of the member. -/
def Port.ShowsOwn (port : Port K) (states : List (PropertyState K)) : Prop :=
  ∀ member ∈ port.members, ∀ (t : Nat) (q : Quantity K), member.values[t]? = some q →
    ∃ state, states[t]? = some state ∧ (member.name, q) ∈ state.portMembers

/-- The names that the first of some states offers. -/
def firstOffers (states : List (PropertyState K)) : List String :=
  (states.head?.map (·.offers)).getD []

/-- As far as the first state has members, each state offers those of an earlier one in their order, or leaves out the
last of them. -/
def InStep (states : List (PropertyState K)) : Prop :=
  states.Pairwise fun earlier later => later.offers.take (firstOffers states).length <+: earlier.offers

instance (states : List (PropertyState K)) : Decidable (InStep states) :=
  inferInstanceAs (Decidable (states.Pairwise _))

/-- How many of the states before the one at `u` offer a member at place `k`. -/
def standing (states : List (PropertyState K)) (k u : Nat) : Nat :=
  (states.take u).countP (·.portMembers[k]?.isSome)

/-- What a state has at the place of a member of the first state is offered, under the name of this member, by the state
at whose time it is shown. -/
def InPlace (states : List (PropertyState K)) : Prop :=
  ∀ (k : Nat) (name : String), (firstOffers states)[k]? = some name →
    ∀ (u : Nat) (state : PropertyState K) (other : String) (q : Quantity K), states[u]? = some state →
      state.portMembers[k]? = some (other, q) →
        ∃ shown, states[standing states k u]? = some shown ∧ (name, q) ∈ shown.portMembers

namespace Tray

section PassThrough

variable {title : String} {states : List (PropertyState K)} {k t : Nat} {q : Quantity K}

theorem names_passThrough (title : String) (states : List (PropertyState K)) :
    (passThrough title states).members.map (·.name) = firstOffers states := by
  cases states with
  | nil => rfl
  | cons first rest => exact map_mapIdx _ PortMember.name Prod.fst (fun _ _ => rfl) first.portMembers

/-- What the port shows of a member are the entries at its place, state by state. -/
theorem values_passThrough {member : PortMember K} (own : (passThrough title states).members[k]? = some member) :
    member.values = states.filterMap fun state => state.portMembers[k]?.map (·.2) := by
  rw [passThrough, Port.input, List.getElem?_mapIdx, Option.map_eq_some_iff] at own
  obtain ⟨_, _, rfl⟩ := own
  rw [List.filterMap_map]
  rfl

/-- Where all states offer the same names, each member has an entry of each state under its name. -/
theorem forall₂_values_passThrough (same : ∀ state ∈ states, state.offers = firstOffers states) :
    ∀ member ∈ (passThrough title states).members,
      List.Forall₂ (fun state q => (member.name, q) ∈ state.portMembers) states member.values := by
  intro member inside
  obtain ⟨k, own⟩ := List.getElem?_of_mem inside
  have named : (firstOffers states)[k]? = some member.name := by
    rw [← names_passThrough title, List.getElem?_map, own, Option.map_some]
  rw [values_passThrough own]
  refine forall₂_filterMap fun state among => ?_
  rw [← same state among, PropertyState.offers, List.getElem?_map, Option.map_eq_some_iff] at named
  obtain ⟨⟨_, q⟩, entry, rfl⟩ := named
  exact ⟨q, by rw [entry, Option.map_some], List.mem_of_getElem? entry⟩

/-- An entry of a state is shown as many time points early as there are earlier states without one at its place. -/
theorem getElem?_values_passThrough {member : PortMember K} (own : (passThrough title states).members[k]? = some member) :
    member.values[t]? = some q ↔ ∃ (u : Nat) (state : PropertyState K) (name : String), states[u]? = some state ∧
      state.portMembers[k]? = some (name, q) ∧ standing states k u = t := by
  rw [values_passThrough own, getElem?_filterMap_eq_some]
  simp only [Option.map_eq_some_iff, Prod.exists, exists_eq_right, Option.isSome_map, standing, exists_and_right,
    exists_and_left]

theorem showsOwn_passThrough_iff : (passThrough title states).ShowsOwn states ↔ InPlace states := by
  rw [InPlace, ← names_passThrough title]
  constructor
  · intro shows k name named u state other q here entry
    rw [List.getElem?_map, Option.map_eq_some_iff] at named
    obtain ⟨member, own, rfl⟩ := named
    exact shows member (List.mem_of_getElem? own) _ q
      ((getElem?_values_passThrough own).2 ⟨u, state, other, here, entry, rfl⟩)
  · intro each member inside t q shown
    obtain ⟨k, own⟩ := List.getElem?_of_mem inside
    obtain ⟨u, state, other, here, entry, rfl⟩ := (getElem?_values_passThrough own).1 shown
    exact each k member.name (by rw [List.getElem?_map, own, Option.map_some]) u state other q here entry

end PassThrough

section InStep

variable {states : List (PropertyState K)} {k u : Nat} {state : PropertyState K} {name : String}

/-- An entry is shown on time where all earlier states have a member at its place. -/
theorem standing_eq_iff (here : states[u]? = some state) : standing states k u = u ↔
    ∀ v < u, ∀ earlier, states[v]? = some earlier → earlier.offers[k]?.isSome := by
  obtain ⟨bound, _⟩ := List.getElem?_eq_some_iff.1 here
  have count : (states.take u).length = u := List.length_take_of_le (Nat.le_of_lt bound)
  have all : standing states k u = u ↔ ∀ earlier ∈ states.take u, earlier.portMembers[k]?.isSome := by
    rw [← List.countP_eq_length, count, standing]
  have same : ∀ earlier : PropertyState K, earlier.offers[k]?.isSome = earlier.portMembers[k]?.isSome := fun earlier => by
    rw [PropertyState.offers, List.getElem?_map, Option.isSome_map]
  simp only [all, same]
  constructor
  · intro each v before earlier there
    exact each earlier (List.mem_of_getElem? ((List.getElem?_take_of_lt before).trans there))
  · intro each earlier inside
    obtain ⟨v, there⟩ := List.getElem?_of_mem inside
    obtain ⟨within, _⟩ := List.getElem?_eq_some_iff.1 there
    rw [count] at within
    exact each v within earlier ((List.getElem?_take_of_lt within).symm.trans there)

/-- Place by place: what a state offers there, earlier ones have offered. -/
theorem inStep_iff_earlier : InStep states ↔ ∀ k < (firstOffers states).length, ∀ v u : Nat, v < u →
    ∀ earlier later, states[v]? = some earlier → states[u]? = some later → ∀ name, later.offers[k]? = some name →
      earlier.offers[k]? = some name := by
  rw [InStep, List.pairwise_iff_getElem]
  constructor
  · intro each k bound v u before earlier later there here name offered
    obtain ⟨within, rfl⟩ := List.getElem?_eq_some_iff.1 there
    obtain ⟨within', rfl⟩ := List.getElem?_eq_some_iff.1 here
    obtain ⟨rest, whole⟩ := each v u within within' before
    have taken := (List.getElem?_take_of_lt bound).trans offered
    obtain ⟨short, _⟩ := List.getElem?_eq_some_iff.1 taken
    rw [← whole, List.getElem?_append_left short, taken]
  · intro each v u within within' before
    refine List.prefix_iff_getElem?.2 fun k short => ?_
    rw [List.length_take, Nat.lt_min] at short
    refine each k short.1 v u before _ _ (List.getElem?_eq_getElem within) (List.getElem?_eq_getElem within') _ ?_
    rw [List.getElem_take]
    exact List.getElem?_eq_getElem short.2

/-- In step, every entry has the name that the first state has for its place, and is shown on time. -/
theorem inStep_iff : InStep states ↔ ∀ (k : Nat) (name : String), (firstOffers states)[k]? = some name →
    ∀ (u : Nat) (state : PropertyState K) (other : String), states[u]? = some state → state.offers[k]? = some other →
      other = name ∧ standing states k u = u := by
  rw [inStep_iff_earlier]
  constructor
  · intro each k name named u state other here own
    obtain ⟨bound, _⟩ := List.getElem?_eq_some_iff.1 named
    have upTo : ∀ v ≤ u, ∀ earlier, states[v]? = some earlier → earlier.offers[k]? = some other := by
      intro v before earlier there
      rcases Nat.lt_or_eq_of_le before with before | rfl
      · exact each k bound v u before earlier state there here other own
      · cases there.symm.trans here
        exact own
    refine ⟨?_, (standing_eq_iff here).2 fun v before earlier there => ?_⟩
    · cases states with
      | nil => cases here
      | cons first rest => exact Option.some.inj ((upTo 0 u.zero_le first rfl).symm.trans named)
    · rw [upTo v (Nat.le_of_lt before) earlier there]
      rfl
  · intro each k bound v u before earlier later there here other own
    have named := List.getElem?_eq_getElem bound
    obtain ⟨rfl, onTime⟩ := each k _ named u later other here own
    obtain ⟨name, present⟩ := Option.isSome_iff_exists.1 ((standing_eq_iff here).1 onTime v before earlier there)
    obtain ⟨rfl, _⟩ := each k _ named v earlier name there present
    exact present

end InStep

section Own

variable {title : String} {states : List (PropertyState K)}

theorem showsOwn_of_inStep (inStep : InStep states) : (passThrough title states).ShowsOwn states := by
  refine showsOwn_passThrough_iff.2 fun k name named u state other q here entry => ?_
  obtain ⟨rfl, onTime⟩ := inStep_iff.1 inStep k name named u state other here (PropertyState.getElem?_offers entry)
  rw [onTime]
  exact ⟨state, here, List.mem_of_getElem? entry⟩

/-- Where no two entries are alike, an entry that is shown elsewhere, or under another name, is no state's own. -/
theorem inStep_of_showsOwn (distinct : (states.flatMap fun state => state.portMembers.map (·.2)).Nodup)
    (shows : (passThrough title states).ShowsOwn states) : InStep states := by
  have each := (List.nodup_flatMap.1 distinct).1
  refine inStep_iff.2 fun k name named u state other here own => ?_
  obtain ⟨q, entry⟩ : ∃ q, state.portMembers[k]? = some (other, q) := by
    rw [PropertyState.offers, List.getElem?_map, Option.map_eq_some_iff] at own
    obtain ⟨⟨_, q⟩, entry, rfl⟩ := own
    exact ⟨q, entry⟩
  obtain ⟨shown, there, declared⟩ := showsOwn_passThrough_iff.1 shows k name named u state other q here entry
  have inside := List.mem_of_getElem? entry
  have atShown : q ∈ shown.portMembers.map (·.2) := List.mem_map_of_mem declared
  have atOwn : q ∈ state.portMembers.map (·.2) := List.mem_map_of_mem inside
  have same : standing states k u = u := position_of_nodup_flatMap distinct there here atShown atOwn
  rw [same, here] at there
  cases there
  have alike := List.inj_on_of_nodup_map (each state (List.mem_of_getElem? here)) inside declared rfl
  exact ⟨congrArg Prod.fst alike, same⟩

end Own

end Tray

end Distillation
