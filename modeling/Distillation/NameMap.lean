namespace Distillation

/-- Values under names, kept in the order of the names. -/
structure NameMap (α : Type) where
  entries : List (String × α)

namespace NameMap

variable {α : Type}

def empty : NameMap α :=
  ⟨[]⟩

instance : Inhabited (NameMap α) :=
  ⟨empty⟩

/-- Puts a value at its place among ordered entries; an entry of the same name is replaced. -/
def place (name : String) (a : α) : List (String × α) → List (String × α)
  | [] => [(name, a)]
  | (other, b) :: rest =>
    if name < other then (name, a) :: (other, b) :: rest
    else if name = other then (name, a) :: rest
    else (other, b) :: place name a rest

def insert (map : NameMap α) (name : String) (a : α) : NameMap α :=
  ⟨place name a map.entries⟩

def find? (map : NameMap α) (name : String) : Option α :=
  map.entries.lookup name

def contains (map : NameMap α) (name : String) : Bool :=
  (map.find? name).isSome

def names (map : NameMap α) : List String :=
  map.entries.map (·.1)

def size (map : NameMap α) : Nat :=
  map.entries.length

/-- A later value under the same name replaces the earlier one. -/
def ofList (entries : List (String × α)) : NameMap α :=
  entries.foldl (fun map entry => map.insert entry.1 entry.2) empty

theorem lookup_place (name other : String) (a : α) (entries : List (String × α)) :
    (place name a entries).lookup other =
      if other = name then some a else entries.lookup other := by
  induction entries with
  | nil => simp only [place, List.lookup_cons, List.lookup_nil]; grind
  | cons entry rest ih => simp only [place]; grind

@[simp] theorem find?_empty (name : String) : (empty : NameMap α).find? name = none := rfl

theorem find?_insert (map : NameMap α) (name other : String) (a : α) :
    (map.insert name a).find? other = if other = name then some a else map.find? other :=
  lookup_place name other a map.entries

end NameMap

end Distillation
