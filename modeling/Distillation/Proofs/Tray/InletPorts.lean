import Distillation.Proofs.Tray.KeptExpressions

namespace Distillation

variable {K : Type}

namespace Tray

/-- The streams that enter a tray, each with the name of its port, the feed first. -/
def inletStreams (tray : Tray K) : List (String × List (PropertyState K)) :=
  (if tray.config.feed then [("feed", tray.feeds)] else []) ++ [("liq_in", tray.liquids), ("vap_in", tray.vapors)]

theorem inputs_of_streams {tray : Tray K} (inputs : tray.ports.inputs = inletPorts tray.config.feed tray.points) :
    tray.ports.inputs = tray.inletStreams.map fun stream => passThrough stream.1 stream.2 := by
  rw [inputs, inletPorts, inletStreams, List.map_append]
  cases tray.config.feed <;> rfl

/-- A tray with a feed has one at each time point. -/
theorem feed_of_declareStates {name : String} {config : TrayConfig K} {package : PropertyPackage K} {time : TimeSet K}
    {points : List (TrayStates K)} {s t : Store K} (run : (declareStates name config package time).on s = (.ok points, t)) :
    ∀ point ∈ points, point.feed.isSome = config.feed := by
  obtain ⟨feeds, liquids, vapors, outlets, a, b, c, feedRun, _, _, _, rfl⟩ := opened_of_declareStates run
  have fed : ∀ feed ∈ feeds, feed.isSome = config.feed := by
    unfold declareFeed at feedRun
    split at feedRun
    · rename_i present
      obtain ⟨states, _, rfl⟩ := Action.on_map_eq_ok.1 feedRun
      exact List.forall_mem_map.2 fun _ _ => present.symm
    · rename_i absent
      cases feedRun
      exact List.forall_mem_map.2 fun _ _ => (Bool.eq_false_of_not_eq_true absent).symm
  intro point inside
  rw [← List.map_uncurry_zip_eq_zipWith] at inside
  obtain ⟨⟨feed, _⟩, among, rfl⟩ := List.mem_map.1 inside
  exact fed feed (List.of_mem_zip among).1

/-- The state of a stream at a time point is that of this position. -/
theorem length_of_mem_inletStreams {tray : Tray K} (count : tray.points.length = tray.time.count)
    (feed : ∀ point ∈ tray.points, point.feed.isSome = tray.config.feed) :
    ∀ stream ∈ tray.inletStreams, stream.2.length = tray.time.count := by
  intro stream entering
  rcases List.mem_append.1 entering with feeding | passing
  · split at feeding
    · rename_i present
      rw [List.mem_singleton.1 feeding, ← count]
      exact List.filterMap_length_eq_length.2 fun point inside => (feed point inside).trans present
    · cases feeding
  · rcases List.mem_pair.1 passing with rfl | rfl <;> exact (List.length_map _).trans count

variable [Scalar K]

/-- What the inlet ports of a tray show, whatever the property package. There is one port for each stream, with the
members that its first state offers. An entry that a state has at the place of a member is shown as many time points
early as there are earlier states that have none at this place. So the port shows at each time what the state at this
time offers under the name of the member just where the entries are in place. They are if the states are in step; and
where no two entries are alike, in no other case. -/
theorem inlets_in_step {package : PropertyPackage K} {config : TrayConfig K} {time : TimeSet K} {name : String}
    {s s' : Store K} {tray : Tray K} (built : (build name config package time).on s = (.ok tray, s')) :
    tray.ports.inputs.map (·.name) = tray.inletStreams.map (·.1) ∧
    ∀ stream ∈ tray.inletStreams, stream.2.length = time.count ∧
      ∃ port, tray.ports.input? stream.1 = some port ∧ port.members.map (·.name) = firstOffers stream.2 ∧
        (∀ (k t : Nat) (member : PortMember K) (q : Quantity K), port.members[k]? = some member →
          (member.values[t]? = some q ↔ ∃ (u : Nat) (state : PropertyState K) (other : String),
            stream.2[u]? = some state ∧ state.portMembers[k]? = some (other, q) ∧ standing stream.2 k u = t)) ∧
        (port.ShowsOwn stream.2 ↔ InPlace stream.2) ∧ (InStep stream.2 → port.ShowsOwn stream.2) ∧
        ((stream.2.flatMap fun state => state.portMembers.map (·.2)).Nodup →
          (port.ShowsOwn stream.2 ↔ InStep stream.2)) := by
  obtain ⟨_, rfl, rfl, ⟨_, _, _, declared, _⟩, inputs, _⟩ := opened_of_build built
  have passed := inputs_of_streams inputs
  have names : tray.ports.inputs.map (·.name) = tray.inletStreams.map (·.1) := by
    rw [passed, List.map_map]
    rfl
  have distinct : (tray.ports.inputs.map (·.name)).Nodup := by
    rw [names, inletStreams]
    cases tray.config.feed <;> simp
  refine ⟨names, fun stream entering => ⟨?_, passThrough stream.1 stream.2, ?_, names_passThrough _ _, ?_,
    showsOwn_passThrough_iff, ?_, ?_⟩⟩
  · exact length_of_mem_inletStreams (length_declareStates declared) (feed_of_declareStates declared) stream entering
  · have present : passThrough stream.1 stream.2 ∈ tray.ports.inputs := passed ▸ List.mem_map_of_mem entering
    exact find?_of_nodup distinct present
  · exact fun k t member q own => getElem?_values_passThrough own
  · exact showsOwn_of_inStep
  · exact fun distinct => ⟨inStep_of_showsOwn distinct, showsOwn_of_inStep⟩

/-- A package whose states have a temperature and a pressure and offer some of them, by time point. -/
def levelPackage (offers : Nat → List String) : PropertyPackage Float where
  phases := [.liquid, .vapor]
  components := .ofList []
  declare label t spec := do
    let temperature ← Action.create s!"{label}.temperature" 300.0
    let pressure ← Action.create s!"{label}.pressure" 1.0
    let member? : String → Option (Quantity Float)
      | "temperature" => some (.scalar (.var temperature))
      | "pressure" => some (.scalar (.var pressure))
      | _ => none
    return {
      label, temperature, pressure, member?
      materialFlow := fun _ _ => 0
      enthalpyFlow := fun _ => 0
      portMembers := (offers t).filterMap fun name => (member? name).map (name, ·)
      vars := [temperature, pressure]
      families := []
      phaseEquilibrium := spec.phaseEquilibrium
      defined := spec.defined
      applyGuesses := fun _ => pure () }

/-- Two time points. -/
def twoPoints : TimeSet Float :=
  ⟨[0.0, 1.0], by simp⟩

/-- The pressure is left out from the second time point on. -/
def shrinking : Nat → List String
  | 0 => ["temperature", "pressure"]
  | _ => ["temperature"]

theorem shrinking_shows_own : ∃ (tray : Tray Float) (s : Store Float) (port : Port Float),
    (build "tray" .plain (levelPackage shrinking) twoPoints).on .empty = (.ok tray, s) ∧
      tray.ports.input? "liq_in" = some port ∧ port.ShowsOwn tray.liquids ∧
      port.members.map (·.values.length) = [2, 1] := by
  obtain ⟨tray, s, port, built, found, inStep, stream, counts⟩ : ∃ (tray : Tray Float) (s : Store Float) (port : Port Float),
      (build "tray" .plain (levelPackage shrinking) twoPoints).on .empty = (.ok tray, s) ∧
        tray.ports.input? "liq_in" = some port ∧ InStep tray.liquids ∧ ("liq_in", tray.liquids) ∈ tray.inletStreams ∧
        port.members.map (·.values.length) = [2, 1] := ⟨_, _, _, rfl, rfl, by decide, List.mem_cons_self, rfl⟩
  obtain ⟨_, port', found', _, _, _, own, _⟩ := (inlets_in_step built).2 _ stream
  cases found.symm.trans found'
  exact ⟨tray, s, port, built, found, own inStep, counts⟩

/-- The members change places at the second time point. -/
def swapping : Nat → List String
  | 0 => ["temperature", "pressure"]
  | _ => ["pressure", "temperature"]

/-- The inlet port then shows the pressure as the temperature. -/
theorem swapping_mistaken : ∃ (tray : Tray Float) (s : Store Float) (port : Port Float),
    (build "tray" .plain (levelPackage swapping) twoPoints).on .empty = (.ok tray, s) ∧
      tray.ports.input? "liq_in" = some port ∧ ¬port.ShowsOwn tray.liquids := by
  refine ⟨_, _, _, rfl, rfl, fun shows => ?_⟩
  obtain ⟨state, here, listed⟩ := shows _ List.mem_cons_self 1 _ rfl
  cases here
  rcases List.mem_cons.1 listed with same | others
  · exact absurd (Prod.mk.inj same).1 (by decide)
  · cases List.mem_singleton.1 others

end Tray

end Distillation
