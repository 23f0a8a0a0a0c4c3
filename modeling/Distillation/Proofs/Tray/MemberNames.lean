import Mathlib.Data.List.Infix
import Mathlib.Data.List.TakeWhile
import Mathlib.Data.Set.Function
import Distillation.Tray.MemberKind

namespace Distillation

/-- A word stands in a name. -/
def Mentions (name word : String) : Prop :=
  word.toList <:+: name.toList

instance (name word : String) : Decidable (Mentions name word) :=
  decidable_of_iff (occursIn word.toList name.toList = true) occursIn_iff

/-- The name is that of a mole or mass fraction. -/
def NamesComposition (name : String) : Prop :=
  Mentions name "frac" ∧ (Mentions name "mole" ∨ Mentions name "mass")

instance (name : String) : Decidable (NamesComposition name) :=
  inferInstanceAs (Decidable (_ ∧ _))

/-- What has no underscore in it does not reach across one. -/
theorem infix_across_iff {word : List Char} (plain : '_' ∉ word) (head tail : List Char) :
    word <:+: head ++ '_' :: tail ↔ word <:+: head ∨ word <:+: tail := by
  constructor
  · intro occurs
    rcases List.infix_append_iff_ne_nil.1 occurs with inHead | inTail | ⟨before, after, _, nonempty, rfl, _, starts⟩
    · exact .inl inHead
    · rcases List.infix_cons_iff.1 inTail with starts | inTail
      · cases word with
        | nil => exact .inr (List.nil_infix)
        | cons c rest =>
          obtain ⟨rfl, _⟩ := List.cons_prefix_cons.1 starts
          exact absurd List.mem_cons_self plain
      · exact .inr inTail
    · obtain ⟨c, rest, rfl⟩ := List.exists_cons_of_ne_nil nonempty
      obtain ⟨rfl, _⟩ := List.cons_prefix_cons.1 starts
      exact absurd (List.mem_append_right before List.mem_cons_self) plain
  · rintro (inHead | inTail)
    · exact inHead.trans (List.prefix_append _ _).isInfix
    · exact inTail.trans ((List.suffix_cons _ _).trans (List.suffix_append _ _)).isInfix

/-- A text has one last segment. -/
theorem lastSegment_unique {head tail head' tail' : List Char} (plain : '_' ∉ tail) (plain' : '_' ∉ tail')
    (same : head ++ '_' :: tail = head' ++ '_' :: tail') : head = head' ∧ tail = tail' := by
  rcases List.append_eq_append_iff.1 same with ⟨more, rfl, rest⟩ | ⟨more, rfl, rest⟩
  · cases more with
    | nil => simpa using rest
    | cons c more =>
      obtain ⟨rfl, rfl⟩ := List.cons.inj rest
      exact absurd (List.mem_append_right more List.mem_cons_self) plain
  · cases more with
    | nil => simpa [eq_comm] using rest
    | cons c more =>
      obtain ⟨rfl, rfl⟩ := List.cons.inj rest
      exact absurd (List.mem_append_right more List.mem_cons_self) plain'

namespace MemberKind

/-- A word is put before the last segment of a name, or after its only one. -/
theorem beforeLastSegment_cases (word name : List Char) :
    ('_' ∉ name ∧ beforeLastSegment word name = name ++ '_' :: word) ∨
      ∃ head last, name = head ++ '_' :: last ∧ '_' ∉ last ∧
        beforeLastSegment word name = head ++ '_' :: (word ++ '_' :: last) := by
  have parts : name.reverse.takeWhile (· ≠ '_') ++ name.reverse.dropWhile (· ≠ '_') = name.reverse :=
    List.takeWhile_append_dropWhile
  have plain : '_' ∉ name.reverse.takeWhile (· ≠ '_') := fun inside => by
    simpa using List.mem_takeWhile_imp inside
  unfold beforeLastSegment
  cases rest : name.reverse.dropWhile (· ≠ '_') with
  | nil =>
    rw [rest, List.append_nil] at parts
    rw [parts] at plain
    exact .inl ⟨by simpa using plain, rfl⟩
  | cons c head =>
    have first : c = '_' := by
      have present : name.reverse.dropWhile (· ≠ '_') ≠ [] := rest ▸ List.cons_ne_nil _ _
      have stopped := List.head_dropWhile_not _ present
      simp only [rest, List.head_cons] at stopped
      simpa using stopped
    subst first
    rw [rest] at parts
    refine .inr ⟨head.reverse, (name.reverse.takeWhile (· ≠ '_')).reverse, ?_, by simpa using plain, ?_⟩
    · simpa using (congrArg List.reverse parts).symm
    · simp

variable {kind kind' : MemberKind} {name name' word : String} {indexed indexed' : Bool}

/-- A sibling is named like its member, with the word for the phase between two segments or after the last. -/
theorem sibling_cases (kind : MemberKind) (name : String) :
    (kind = flowByComponent → '_' ∉ name.toList) ∧
        (kind.sibling name).toList = name.toList ++ '_' :: "phase".toList ∨
      (kind = fractionTotal ∨ kind = flowByComponent) ∧ ∃ head last, name.toList = head ++ '_' :: last ∧
        '_' ∉ last ∧ (kind.sibling name).toList = head ++ '_' :: ("phase".toList ++ '_' :: last) := by
  have after : (name ++ "_phase").toList = name.toList ++ '_' :: "phase".toList := String.toList_append
  cases kind with
  | fractionTotal | flowByComponent =>
    rcases beforeLastSegment_cases "phase".toList name.toList with ⟨plain, marked⟩ | ⟨head, last, parts, plain, marked⟩
    · exact .inl ⟨fun _ => plain, (String.toList_ofList).trans marked⟩
    · exact .inr ⟨by simp, head, last, parts, plain, (String.toList_ofList).trans marked⟩
  | _ => exact .inl ⟨by simp, after⟩

/-- Naming the phase brings one word into a name and takes none out of it. -/
theorem mentions_sibling (kind : MemberKind) (name : String) (plain : '_' ∉ word.toList) :
    Mentions (kind.sibling name) word ↔ Mentions name word ∨ Mentions "phase" word := by
  unfold Mentions
  rcases sibling_cases kind name with ⟨_, marked⟩ | ⟨_, head, last, parts, _, marked⟩
  · rw [marked, infix_across_iff plain]
  · rw [marked, parts, infix_across_iff plain, infix_across_iff plain, infix_across_iff plain]
    tauto

/-- The rules of classification, said of the words in the name. -/
theorem classify_eq (name : String) (indexed : Bool) : classify name indexed =
    if ¬Mentions name "flow" ∧ ¬Mentions name "frac" ∧ ¬Mentions name "enth" then .ok (some intensive)
    else if NamesComposition name then
      if Mentions name "phase" then .ok (some fractionByPhase)
      else if indexed then .ok (some fractionTotal)
      else .error (.unexpectedShape name "an indexed total fraction")
    else if Mentions name "flow" then
      if Mentions name "phase" then .error (.unsupportedFlowMember name)
      else if indexed = false then .ok (some flowTotal)
      else if "_comp".toList <:+ name.toList then .ok (some flowByComponent)
      else .error (.unexpectedShape name "a component flow named X_Y_comp")
    else if Mentions name "enth" then
      if Mentions name "phase" then .ok (some enthalpyByPhase)
      else if indexed then .error (.indexedTotalEnthalpy name)
      else .ok (some enthalpyTotal)
    else .ok none := by
  have has : ∀ word : String, occursIn word.toList name.toList = decide (Mentions name word) := fun word => by
    rw [Bool.eq_iff_iff, decide_eq_true_iff]
    exact occursIn_iff
  simp only [classify, has, NamesComposition, List.isSuffixOf_iff_suffix, Bool.and_eq_true, Bool.or_eq_true,
    Bool.not_eq_true', decide_eq_true_iff, decide_eq_false_iff_not, and_assoc]
  rfl

/-- What the name of a synthesized member says of its kind. -/
def Worded (name : String) : MemberKind → Prop
  | fractionTotal => NamesComposition name
  | flowTotal => ¬NamesComposition name ∧ Mentions name "flow"
  | flowByComponent => ¬NamesComposition name ∧ Mentions name "flow" ∧ "_comp".toList <:+ name.toList
  | enthalpyTotal => ¬NamesComposition name ∧ ¬Mentions name "flow" ∧ Mentions name "enth"
  | intensive | fractionByPhase | enthalpyByPhase => False

/-- A member that is synthesized names no phase, and its name says its kind. -/
theorem words_of_classify (classified : classify name indexed = .ok (some kind)) (built : kind.isSynthesized = true) :
    ¬Mentions name "phase" ∧ Worded name kind := by
  rw [classify_eq] at classified
  split_ifs at classified with quiet composition _ _ flow phase shape ends enth heat <;> cases classified
  · cases built
  · cases built
  · exact ⟨‹_›, composition⟩
  · exact ⟨phase, composition, flow⟩
  · exact ⟨phase, composition, flow, ends⟩
  · cases built
  · exact ⟨heat, composition, flow, enth⟩

section Sibling

theorem mentions_sibling_phase (kind : MemberKind) (name : String) : Mentions (kind.sibling name) "phase" :=
  (mentions_sibling kind name (by decide)).2 (.inr (List.infix_refl _))

theorem mentions_sibling_iff (kind : MemberKind) (name : String)
    (listed : word ∈ ["flow", "frac", "mole", "mass", "enth"]) :
    Mentions (kind.sibling name) word ↔ Mentions name word := by
  have other : ∀ word ∈ ["flow", "frac", "mole", "mass", "enth"],
      '_' ∉ word.toList ∧ ¬Mentions "phase" word := by decide
  obtain ⟨plain, absent⟩ := other word listed
  rw [mentions_sibling kind name plain, or_iff_left absent]

theorem namesComposition_sibling (kind : MemberKind) (name : String) :
    NamesComposition (kind.sibling name) ↔ NamesComposition name := by
  unfold NamesComposition
  rw [mentions_sibling_iff kind name (by simp), mentions_sibling_iff kind name (by simp),
    mentions_sibling_iff kind name (by simp)]

/-- What the sibling of a member is classified as. What is not synthesized is read from the member itself. -/
def siblingKind : MemberKind → String → Except ResolveError (Option MemberKind)
  | fractionTotal, _ => .ok (some fractionByPhase)
  | enthalpyTotal, _ => .ok (some enthalpyByPhase)
  | flowTotal, sibling | flowByComponent, sibling => .error (.unsupportedFlowMember sibling)
  | kind, _ => .ok (some kind)

/-- The sibling of a total is the quantity by phase; that of a flow is none that a port could carry. -/
theorem classify_sibling (classified : classify name indexed = .ok (some kind)) (built : kind.isSynthesized = true)
    (shape : Bool) : classify (kind.sibling name) shape = kind.siblingKind (kind.sibling name) := by
  have words := (words_of_classify classified built).2
  have flow : Mentions (kind.sibling name) "flow" ↔ Mentions name "flow" := mentions_sibling_iff kind name (by simp)
  have enth : Mentions (kind.sibling name) "enth" ↔ Mentions name "enth" := mentions_sibling_iff kind name (by simp)
  have composition := namesComposition_sibling kind name
  rw [classify_eq]
  cases kind with
  | intensive | fractionByPhase | enthalpyByPhase => cases built
  | fractionTotal =>
    have frac : Mentions (fractionTotal.sibling name) "frac" := (mentions_sibling_iff _ name (by simp)).2 words.1
    rw [if_neg fun none => none.2.1 frac, if_pos (composition.2 words), if_pos (mentions_sibling_phase _ _)]
    rfl
  | flowTotal =>
    have flows := flow.2 words.2
    rw [if_neg fun none => none.1 flows, if_neg (mt composition.1 words.1), if_pos flows,
      if_pos (mentions_sibling_phase _ _)]
    rfl
  | flowByComponent =>
    have flows := flow.2 words.2.1
    rw [if_neg fun none => none.1 flows, if_neg (mt composition.1 words.1), if_pos flows,
      if_pos (mentions_sibling_phase _ _)]
    rfl
  | enthalpyTotal =>
    have heat := enth.2 words.2.2
    rw [if_neg fun none => none.2.2 heat, if_neg (mt composition.1 words.1), if_neg (mt flow.1 words.2.1), if_pos heat,
      if_pos (mentions_sibling_phase _ _)]
    rfl

/-- A name that is marked after its last segment and one that is marked before it end differently. -/
theorem marks_apart {head last start : List Char} (plain : ¬Mentions name "phase") (parts : name.toList = head ++ '_' :: last)
    (own : '_' ∉ last) : start ++ '_' :: "phase".toList ≠ head ++ '_' :: ("phase".toList ++ '_' :: last) := by
  intro same
  rw [← List.cons_append, ← List.append_assoc] at same
  refine plain ?_
  rw [Mentions, parts, (lastSegment_unique (by decide) own same).2]
  exact ((List.suffix_cons _ _).trans (List.suffix_append _ _)).isInfix

/-- Taking the word for the phase out again, one is back at the name. -/
theorem name_of_sibling (plain : ¬Mentions name "phase") (plain' : ¬Mentions name' "phase")
    (same : kind.sibling name = kind'.sibling name') : name = name' := by
  have texts := congrArg String.toList same
  rcases sibling_cases kind name with ⟨_, marked⟩ | ⟨_, head, last, parts, own, marked⟩ <;>
    rcases sibling_cases kind' name' with ⟨_, marked'⟩ | ⟨_, head', last', parts', own', marked'⟩ <;>
    rw [marked, marked'] at texts
  · exact String.toList_injective (List.append_cancel_right texts)
  · exact absurd texts (marks_apart plain' parts' own')
  · exact absurd texts.symm (marks_apart plain parts own)
  · rw [← List.cons_append, ← List.cons_append, ← List.append_assoc, ← List.append_assoc] at texts
    obtain ⟨heads, lasts⟩ := lastSegment_unique own own' texts
    rw [← String.toList_inj, parts, parts', lasts, List.append_cancel_right heads]

theorem sibling_flowTotal_ne (plain : ¬Mentions name "phase") (ends : "_comp".toList <:+ name.toList) :
    flowTotal.sibling name ≠ flowByComponent.sibling name := by
  intro same
  have texts := congrArg String.toList same
  rw [show (flowTotal.sibling name).toList = name.toList ++ '_' :: "phase".toList from String.toList_append] at texts
  rcases sibling_cases flowByComponent name with ⟨single, _⟩ | ⟨_, head, last, parts, own, marked⟩
  · exact single rfl (ends.subset (by decide))
  · exact marks_apart plain parts own (texts.trans marked)

/-- One name does not stand for two synthesized members with one sibling. -/
theorem kind_of_sibling (plain : ¬Mentions name "phase") (words : Worded name kind) (words' : Worded name kind')
    (same : kind.sibling name = kind'.sibling name) : kind = kind' := by
  cases kind <;> cases kind' <;> simp only [Worded] at words words'
  case flowTotal.flowByComponent => exact absurd same (sibling_flowTotal_ne plain words'.2.2)
  case flowByComponent.flowTotal => exact absurd same.symm (sibling_flowTotal_ne plain words.2.2)
  all_goals tauto

end Sibling

/-- The names of members are closed under naming a phase. The sibling of a composition or of an enthalpy, whatever
its shape, is the one by phase, and that of a flow is refused. What names a flow and no composition is a flow
that is split, if it is carried at all. And a synthesized member is told by its sibling. -/
theorem naming_closed :
    (∀ name indexed shape, classify name indexed = .ok (some fractionTotal) →
      classify (fractionTotal.sibling name) shape = .ok (some fractionByPhase)) ∧
    (∀ name indexed shape, classify name indexed = .ok (some enthalpyTotal) →
      classify (enthalpyTotal.sibling name) shape = .ok (some enthalpyByPhase)) ∧
    (∀ name indexed shape kind, kind.isSplit = true → classify name indexed = .ok (some kind) →
      classify (kind.sibling name) shape = .error (.unsupportedFlowMember (kind.sibling name))) ∧
    (∀ name indexed answer, Mentions name "flow" → ¬NamesComposition name → classify name indexed = .ok answer →
      ∃ kind, answer = some kind ∧ kind.isSplit = true ∧ kind.isSynthesized = true) ∧
    Set.InjOn (fun member : String × MemberKind => member.2.sibling member.1)
      {member | member.2.isSynthesized = true ∧ ∃ indexed, classify member.1 indexed = .ok (some member.2)} := by
  refine ⟨fun name indexed shape classified => classify_sibling classified rfl shape,
    fun name indexed shape classified => classify_sibling classified rfl shape,
    fun name indexed shape kind split classified => ?_, fun name indexed answer flow other classified => ?_, ?_⟩
  · cases kind with
    | flowTotal | flowByComponent => exact classify_sibling classified rfl shape
    | _ => cases split
  · rw [classify_eq, if_neg fun none => none.1 flow, if_neg other, if_pos flow] at classified
    split_ifs at classified <;> cases classified
    · exact ⟨flowTotal, rfl, rfl, rfl⟩
    · exact ⟨flowByComponent, rfl, rfl, rfl⟩
  · rintro ⟨name, kind⟩ ⟨built, indexed, classified⟩ ⟨name', kind'⟩ ⟨built', indexed', classified'⟩ same
    obtain ⟨plain, words⟩ := words_of_classify classified built
    obtain ⟨plain', words'⟩ := words_of_classify classified' built'
    obtain rfl : name = name' := name_of_sibling plain plain' same
    obtain rfl : kind = kind' := kind_of_sibling plain words words' same
    rfl

example : classify "mole_frac_comp" true = .ok (some fractionTotal) ∧
    fractionTotal.sibling "mole_frac_comp" = "mole_frac_phase_comp" ∧
    classify "flow_mol_comp" true = .ok (some flowByComponent) ∧
    classify "flow_mol_phase_comp" false = .error (.unsupportedFlowMember "flow_mol_phase_comp") := by
  decide +kernel

end MemberKind

end Distillation
