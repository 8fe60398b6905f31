import Docbase.Declaration.Setting

namespace Docbase.Declaration

inductive Shape where
  | namedFields
  | tuple
  | unit
  | variants
  | union
  deriving DecidableEq, Repr

structure FieldDeclaration where
  name : String
  type : String
  groups : List SettingGroup

structure Source where
  target : Target
  name : String
  shape : Shape
  groups : List SettingGroup
  fields : List FieldDeclaration

/-- A field with its settings and the name under which it is stored. -/
structure Field where
  name : String
  type : TypeText
  storedName : String
  settings : FieldSettings

def plainName (name : String) : String :=
  match name.toList with
  | 'r' :: '#' :: rest => String.ofList rest
  | _ => name

/-- The path of a stored field, under a name by which the field is known where the type is used. -/
structure Constant where
  name : String
  type : String
  path : String

/-- What a declaration says about a type of documents. -/
structure DocumentPart where
  key : String
  identity : String
  timestamp : String
  identityOptional : Bool
  timestampOptional : Bool
  typeName : String
  collection : Option String

structure Derived where
  constants : List Constant
  traits : List String
  schema : List (String × String)
  document : Option DocumentPart

def Field.ofDeclaration (target : Target) (naming : Option Naming) (f : FieldDeclaration) :
    Except Fault Field := do
  let settings ← FieldSettings.ofGroups f.groups
  if settings.flattened then .error (.flattened target)
  else
    let plain := plainName f.name
    let spelled := match naming with
      | some rule => rule.apply plain
      | none => plain
    .ok ⟨f.name, .ofText f.type, settings.rename.getD spelled, settings⟩

def Field.isStored (f : Field) : Bool := !f.settings.skipped

def fieldFor (role : Role) (fields : List Field) : Except Fault Field :=
  match fields.filter fun f => f.settings.roles.contains role with
  | [f] => .ok f
  | _ :: _ :: _ => .error (.markedTwice role)
  | [] =>
    match fields.find? fun f => plainName f.name = role.name with
    | some f => .ok f
    | none => .error (.unmarked role)

def defaultLibrary : String := "::docrepo"

/-- The constant of a field; that of the identity holds the path of the stored identity. -/
def constantFor (library : String) (identity : Option String) (f : Field) : Constant where
  name := Text.upperASCII (plainName f.name)
  type := library ++ "::field::Field<Self," ++ f.type.text ++ ">"
  path := if identity = some f.name then "_id" else f.storedName

def documentPart (typeName : String) (c : Container) (identity timestamp : Field) :
    DocumentPart where
  key := identity.type.optional?.getD identity.type.text
  identity := identity.storedName
  timestamp := timestamp.storedName
  identityOptional := identity.type.optional?.isSome
  timestampOptional := timestamp.type.optional?.isSome
  typeName := typeName
  collection := c.collection

/-- What a declaration yields besides what `document` says, where `identity` is the name of the
field that holds the identity. -/
def assemble (c : Container) (fields : List Field) (identity : Option String)
    (document : Option DocumentPart) : Derived :=
  let library := c.library.getD defaultLibrary
  let stored := fields.filter Field.isStored
  let traits := ["::schema::Shape", "::field::Nested"] ++
    if document.isSome then ["::document::Document"] else []
  { constants := stored.map (constantFor library identity)
    traits := traits.map (library ++ ·)
    schema := stored.map fun f => (f.storedName, f.type.text)
    document := document }

def checkShape (target : Target) : Shape → Except Fault Unit
  | .namedFields => .ok ()
  | .tuple | .unit => .error (.unnamedFields target)
  | .variants | .union => .error (.noStruct target)

def derive (s : Source) : Except Fault Derived := do
  checkShape s.target s.shape
  let c ← Container.ofGroups s.groups
  let fields ← s.fields.mapM (Field.ofDeclaration s.target c.naming)
  match s.target with
  | .document => do
    let identity ← fieldFor .identity fields
    let timestamp ← fieldFor .timestamp fields
    if identity.isStored && timestamp.isStored then
      .ok (assemble c fields (some identity.name) (some (documentPart s.name c identity timestamp)))
    else .error .unserialized
  | .embedded =>
    if c.collection.isSome then .error .embeddedCollection
    else .ok (assemble c fields none none)

end Docbase.Declaration
