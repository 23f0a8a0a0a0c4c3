import Distillation.Scalar

namespace Distillation

/-- The time points of a flowsheet. Whatever depends on time is stored by position among them. -/
structure TimeSet (K : Type) where
  points : List K
  nonempty : points ≠ []

namespace TimeSet

variable {K : Type}

/-- There is no time set without a point. -/
def ofList? (points : List K) : Option (TimeSet K) :=
  match points with
  | [] => none
  | first :: rest => some ⟨first :: rest, List.cons_ne_nil first rest⟩

/-- The one point of a flowsheet at rest. -/
def steady [Zero K] : TimeSet K :=
  ⟨[0], List.cons_ne_nil 0 []⟩

def count (time : TimeSet K) : Nat :=
  time.points.length

def point? (time : TimeSet K) (t : Nat) : Option K :=
  time.points[t]?

def indices (time : TimeSet K) : List Nat :=
  List.range time.count

theorem count_pos (time : TimeSet K) : 0 < time.count :=
  List.length_pos_iff.2 time.nonempty

@[simp] theorem length_indices (time : TimeSet K) : time.indices.length = time.count :=
  List.length_range

end TimeSet

/-- The components of a mixture, in order. The position of a component is the `j` of every equation
that is indexed by component. -/
structure ComponentSet where
  names : List String
  deriving DecidableEq, Repr

namespace ComponentSet

/-- Adds a name at the end unless it is there. -/
def add (seen : List String) (name : String) : List String :=
  if name ∈ seen then seen else seen ++ [name]

/-- Each name once, at its first place. -/
def ofList (names : List String) : ComponentSet :=
  ⟨names.foldl add []⟩

def count (components : ComponentSet) : Nat :=
  components.names.length

def indexOf? (components : ComponentSet) (name : String) : Option Nat :=
  components.names.findIdx? (· == name)

def contains (components : ComponentSet) (name : String) : Bool :=
  (components.indexOf? name).isSome

def text (components : ComponentSet) : String :=
  "\x7b" ++ ", ".intercalate components.names ++ "\x7d"

theorem nodup_add {seen : List String} (distinct : seen.Nodup) (name : String) :
    (add seen name).Nodup := by
  unfold add
  split
  · exact distinct
  · rename_i fresh
    exact List.nodup_append.2 ⟨distinct, by simp, by grind⟩

theorem mem_add {seen : List String} {name other : String} :
    other ∈ add seen name ↔ other ∈ seen ∨ other = name := by
  unfold add
  split <;> grind

theorem nodup_foldl_add (names : List String) :
    ∀ seen : List String, seen.Nodup → (names.foldl add seen).Nodup := by
  induction names with
  | nil => exact fun _ distinct => distinct
  | cons name rest ih => exact fun seen distinct => ih _ (nodup_add distinct name)

theorem mem_foldl_add (names : List String) {other : String} :
    ∀ seen : List String, other ∈ names.foldl add seen ↔ other ∈ seen ∨ other ∈ names := by
  induction names with
  | nil => simp
  | cons name rest ih => intro seen; simp only [List.foldl_cons, ih, mem_add, List.mem_cons]; grind

theorem nodup_ofList (names : List String) : (ofList names).names.Nodup :=
  nodup_foldl_add names [] .nil

@[simp] theorem mem_ofList {names : List String} {name : String} :
    name ∈ (ofList names).names ↔ name ∈ names := by
  simp [ofList, mem_foldl_add]

end ComponentSet

end Distillation
