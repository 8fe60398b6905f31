import Docbase.DocumentType.Basic

namespace Docbase

/-- A type of documents that can be bound. Types of one name, from different modules or with different
parameters, are told apart by their full names. -/
structure BoundType extends DocumentType where
  fullName : String := name

instance : Coe DocumentType BoundType := ⟨fun T => { T with }⟩

inductive Binding where
  | named (collection : String)
  | inherits (base : BoundType)

/-- Bindings of types under their full names, the latest first. -/
structure Registry where
  bindings : List (String × Binding) := []

namespace Registry

def register (r : Registry) (T : BoundType) (collection : String) : Registry :=
  ⟨(T.fullName, .named collection) :: r.bindings⟩

def inherit (r : Registry) (derived base : BoundType) : Registry :=
  ⟨(derived.fullName, .inherits base) :: r.bindings⟩

def registered? (r : Registry) (T : BoundType) : Option String :=
  match r.bindings.lookup T.fullName with
  | some (.named collection) => some collection
  | _ => none

/-- The bases of a type, the nearest first, up to one that was visited before. -/
def basesFrom (r : Registry) : (rounds : Nat) → (visited : List String) → String →
    List BoundType
  | 0, _, _ => []
  | rounds + 1, visited, name =>
    match r.bindings.lookup name with
    | some (.inherits base) =>
      if base.fullName ∈ visited then []
      else base :: basesFrom r rounds (base.fullName :: visited) base.fullName
    | _ => []

/-- The bases of a type. Each of them but the last has a binding of its own, so there are at most as
many as there are bindings. -/
def bases (r : Registry) (T : BoundType) : List BoundType :=
  r.basesFrom r.bindings.length [T.fullName] T.fullName

def inherited? (r : Registry) (T : BoundType) : Option String :=
  (r.bases T).findSome? fun base => (r.registered? base).or base.collection

/-- The collection for a type: one asked for, else the registered one, else the one that the type
names itself, else that of its bases, else one with the name of the type. -/
def resolve (r : Registry) (T : BoundType) (asked : Option String) : String :=
  (asked.or ((r.registered? T).or (T.collection.or (r.inherited? T)))).getD T.name

end Registry

end Docbase
