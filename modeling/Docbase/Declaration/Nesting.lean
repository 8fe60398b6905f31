import Docbase.Declaration.Basic
import Docbase.DocumentType.Resolution

namespace Docbase.Declaration

/-- What a type that is written for a field stands for. -/
inductive ValueType where
  | plain (t : FieldType)
  | declared (name : String)
  | optional (inner : ValueType)
  | boxed (inner : ValueType)
  | list (item : ValueType)

namespace ValueType

/-- The stored form of the values; a box does not show in it. -/
def fieldType : ValueType → FieldType
  | plain t => t
  | declared name => .record name
  | optional inner => .optional inner.fieldType
  | boxed inner => inner.fieldType
  | list item => .list item.fieldType

def inner? : ValueType → Option String
  | plain _ => none
  | declared name => some name
  | optional inner | boxed inner => inner.inner?
  | list item => item.inner?

end ValueType

def Derived.fields (D : Derived) : List (Constant × String × String) := D.constants.zip D.schema

def Derived.Any (_ : Derived) (_ : Constant) (_ : String) : Prop := True

/-- Whether the constant is spelled as its field is stored. All are but those of identities. -/
def Derived.Spells (_ : Derived) (c : Constant) (stored : String) : Prop := c.path = stored

def Derived.Names (D : Derived) (c : Constant) (_ : String) : Prop :=
  c.path ∈ D.schema.map Prod.fst

/-- Declarations under the names of types. The text of a type has a meaning in the place where it is
written. -/
structure Declarations where
  source : String → Option Source
  meaning : (owner text : String) → ValueType

namespace Declarations

variable (Δ : Declarations)

def derived? (name : String) : Option Derived := do (derive (← Δ.source name)).toOption

def records (name : String) : List (String × FieldType) :=
  match Δ.derived? name with
  | some D => D.schema.map fun (stored, text) => (stored, (Δ.meaning name text).fieldType)
  | none => []

def documentType (name : String) (part : DocumentPart) (key : KeyKind) : DocumentType :=
  ⟨name, part.collection, part.identity, part.timestamp, key, Δ.records⟩

/-- `Leads P owner path t`: the path leads from a type to values of the type `t`, put together with
dots from constants that fulfil `P`. -/
inductive Leads (P : Derived → Constant → String → Prop) : (owner path : String) → ValueType → Prop
  | constant {owner stored text : String} {D : Derived} {c : Constant}
    (hD : Δ.derived? owner = some D) (hc : (c, stored, text) ∈ D.fields) (hP : P D c stored) :
    Leads P owner c.path (Δ.meaning owner text)
  | andThen {owner path inner rest : String} {t u : ValueType} (hpath : Leads P owner path t)
    (hinner : t.inner? = some inner) (hrest : Leads P inner rest u) :
    Leads P owner (path ++ "." ++ rest) u

def KeysPlain : Prop := ∀ owner D c stored text, Δ.derived? owner = some D →
  (c, stored, text) ∈ D.fields → c.path ≠ stored → (Δ.meaning owner text).inner? = none

def Embeds (owner inner : String) : Prop :=
  ∃ D stored text, Δ.derived? owner = some D ∧ (stored, text) ∈ D.schema ∧
    (Δ.meaning owner text).inner? = some inner

end Declarations

/-- Stored names that paths can tell apart. -/
structure Derived.WellNamed (D : Derived) : Prop where
  distinct : (D.schema.map Prod.fst).Nodup
  spelled : ∀ field ∈ D.schema,
    field.1 ≠ "" ∧ '.' ∉ field.1.toList ∧ ¬Schema.isIndex field.1

end Docbase.Declaration
