import Distillation.Scalar

namespace Distillation

/-- Variables are numbered in the order of their creation. -/
abbrev VarId := Nat

/-- A fixed variable is a specification, a free one an unknown. -/
structure Variable (K : Type) where
  name : String
  value : K
  fixed : Bool

/-- The variables of a flowsheet, which units, ports and solvers share by id. -/
structure Store (K : Type) where
  entries : Array (Variable K)

namespace Store

variable {K : Type}

def empty : Store K :=
  ⟨#[]⟩

instance : Inhabited (Store K) :=
  ⟨empty⟩

def size (s : Store K) : Nat :=
  s.entries.size

def get? (s : Store K) (v : VarId) : Option (Variable K) :=
  s.entries[v]?

/-- The value of a variable; zero for an id that the store does not know. -/
def value [Zero K] (s : Store K) (v : VarId) : K :=
  match s.get? v with
  | some entry => entry.value
  | none => 0

def isFixed (s : Store K) (v : VarId) : Bool :=
  (s.get? v).any (·.fixed)

/-- A new variable is free. -/
def create (s : Store K) (name : String) (value : K) : VarId × Store K :=
  (s.size, ⟨s.entries.push ⟨name, value, false⟩⟩)

def modify (s : Store K) (v : VarId) (change : Variable K → Variable K) : Store K :=
  ⟨s.entries.modify v change⟩

def set (s : Store K) (v : VarId) (x : K) : Store K :=
  s.modify v fun entry => { entry with value := x }

def fix (s : Store K) (v : VarId) : Store K :=
  s.modify v fun entry => { entry with fixed := true }

def unfix (s : Store K) (v : VarId) : Store K :=
  s.modify v fun entry => { entry with fixed := false }

def fixAt (s : Store K) (v : VarId) (x : K) : Store K :=
  (s.set v x).fix v

def values (s : Store K) : Array K :=
  s.entries.map (·.value)

/-- Gives the variables the listed values in order; those beyond the list keep theirs. -/
def setValues (s : Store K) (xs : Array K) : Store K :=
  ⟨s.entries.mapIdx fun i entry => { entry with value := xs.getD i entry.value }⟩

/-- Gives all variables new values. There has to be one for each. -/
def setAll? (s : Store K) (xs : Array K) : Option (Store K) :=
  if xs.size = s.size then some (s.setValues xs) else none

/-- The free ones of some variables, in the given order. -/
def free (s : Store K) (vs : List VarId) : List VarId :=
  vs.filter fun v => !s.isFixed v

/-- The first variable with a name. -/
def find? (s : Store K) (name : String) : Option VarId :=
  s.entries.findIdx? (·.name == name)

theorem ext_get? {s t : Store K} (same : ∀ v, s.get? v = t.get? v) : s = t := by
  obtain ⟨entries⟩ := s
  exact congrArg mk (Array.ext_getElem? same)

section Laws

variable (s : Store K) (v w : VarId) (x : K)

@[simp] theorem size_create (name : String) : (s.create name x).2.size = s.size + 1 := by
  simp [create, size]

@[simp] theorem size_modify (change : Variable K → Variable K) :
    (s.modify v change).size = s.size := by
  simp [modify, size]

@[simp] theorem size_set : (s.set v x).size = s.size :=
  size_modify s v _

theorem get?_modify (change : Variable K → Variable K) :
    (s.modify v change).get? w = if v = w then (s.get? w).map change else s.get? w := by
  simp [modify, get?, Array.getElem?_modify]

theorem get?_create (name : String) :
    (s.create name x).2.get? w = if w = s.size then some ⟨name, x, false⟩ else s.get? w := by
  exact Array.getElem?_push

theorem value_set [Zero K] :
    (s.set v x).value w = if v = w ∧ w < s.size then x else s.value w := by
  unfold value set
  rw [get?_modify]
  by_cases same : v = w
  · by_cases known : w < s.size
    · simp [same, get?, size] at known ⊢
      simp [known]
    · have absent : s.get? w = none := Array.getElem?_eq_none (Nat.le_of_not_lt known)
      simp [same, known, absent]
  · simp [same]

@[simp] theorem isFixed_set : (s.set v x).isFixed w = s.isFixed w := by
  unfold isFixed set
  rw [get?_modify]
  split
  · cases s.get? w <;> rfl
  · rfl

/-- Setting a variable and setting it back changes nothing. -/
theorem set_set_value [Zero K] : (s.set v x).set v (s.value v) = s := by
  refine ext_get? fun w => ?_
  by_cases hit : v = w
  · subst hit
    cases found : s.get? v <;> simp [set, get?_modify, value, found]
  · simp [set, get?_modify, hit]

end Laws

end Store

end Distillation
