import Docbase.Declaration.Naming
import Docbase.Declaration.TypeText.Reading

namespace Docbase.Declaration

open Reader

/-- One option of a group: a key alone, a key with a value, or a key with a list of options. -/
inductive Setting where
  | bare (key : String)
  | string (key value : String)
  | literal (key : String)
  | list (key : String) (items : List Setting)

structure SettingGroup where
  name : String
  settings : List Setting

mutual

def Setting.trees? : Setting → Option (List Tree)
  | .bare key => Tree.ofText? key
  | .string key value => do
    some ((← Tree.ofText? key) ++ [.sign '=' false, .literal (Text.quoted value)])
  | .literal key => do some ((← Tree.ofText? key) ++ [.sign '=' false, .literal "0"])
  | .list key items => do some ((← Tree.ofText? key) ++ [.group .round (← settingTrees? items)])

def settingTrees? : List Setting → Option (List Tree)
  | [] => some []
  | [s] => s.trees?
  | s :: rest => do some ((← s.trees?) ++ .sign ',' false :: (← settingTrees? rest))

end

namespace Setting

def readKey : Reader (Option String) := do
  let leading ← accept "::"
  let ts ← ahead
  if beginsAnyWord ts then
    match ← take 1 ++ whileNext (begins "::") (take 2 ++ anyWord) with
    | [.word w] => return if leading.isEmpty then some w else none
    | _ => return none
  else if ts.isEmpty then demand [.nestedAttribute]
  else if beginsLiteral ts then misplace .literalForOption
  else misplace .tokenForOption

def readString : Reader String := do
  let _ ← require "="
  match ← ahead with
  | .literal text :: _ =>
    match Literal.string? text with
    | some s =>
      let _ ← take 1
      return s
    | none => demand [.string]
  | _ => demand [.string]

/-- Reads one option or more; `read` is given the key of each and reads what stands behind it. -/
def readEach {σ : Type} (read : σ → Option String → Reader σ) : (rounds : Nat) → σ → Reader σ
  | 0, state => return state
  | rounds + 1, state => do
    let state ← read state (← readKey)
    if (← ahead).isEmpty then return state
    let _ ← require ","
    if (← ahead).isEmpty then return state
    readEach read rounds state

def readAll {σ : Type} (read : σ → Option String → Reader σ) (state : σ) : Reader σ := do
  readEach read ((← ahead).length + 1) state

/-- The string for writing: the one behind the key, or in a list the one behind `serialize`. A list
may leave it out, but each of its keys takes a string. -/
def readForWriting (check : String → Except Fault Unit) : Reader (Option String) := do
  if begins "=" (← ahead) then
    let s ← readString
    check s
    return some s
  else
    inGroup .round <| readAll
      (fun chosen key => do
        let s ← readString
        if key = some "serialize" then
          check s
          return some s
        else return chosen)
      none

def skipValue (inner : Grammar.Inner) : Reader Unit := do
  let ts ← ahead
  if begins "=" ts then
    let _ ← take 1 ++ Grammar.expressionTrees inner true
  else if beginsGroup .round ts then inGroup .round (pure ())

end Setting

def SettingGroup.read {σ : Type} (group : SettingGroup)
    (read : Grammar.Inner → σ → Option String → Reader σ) (state : σ) : Except Fault σ :=
  match settingTrees? group.settings with
  | none => .error .unreadable
  | some [] => .ok state
  | some ts => Grammar.readTrees (fun inner => Setting.readAll (read inner) state) ts

structure Container where
  collection : Option String := none
  library : Option String := none
  naming : Option Naming := none

namespace Container

def readDocument (c : Container) (key : Option String) : Reader Container := do
  if key = some "collection" then
    let name ← Setting.readString
    if name.toList.all Text.isBlank then throw .emptyCollection
    return { c with collection := some name }
  else if key = some "crate" then
    return { c with library := some (← PathText.ofText (← Setting.readString)).text }
  else throw .unknownOption

def checkNaming (rule : String) : Except Fault Unit :=
  if (Naming.ofName? rule).isSome then .ok () else .error (.unknownNaming rule)

def readSerde (inner : Grammar.Inner) (c : Container) (key : Option String) : Reader Container := do
  if key = some "rename_all" then
    match ← Setting.readForWriting checkNaming with
    | some rule => return { c with naming := Naming.ofName? rule }
    | none => return c
  else
    Setting.skipValue inner
    return c

def readGroup (c : Container) (group : SettingGroup) : Except Fault Container :=
  if group.name = "document" then group.read (fun _ => readDocument) c
  else if group.name = "serde" then group.read readSerde c
  else .ok c

def ofGroups (groups : List SettingGroup) : Except Fault Container := groups.foldlM readGroup {}

end Container

structure FieldSettings where
  roles : List Role := []
  rename : Option String := none
  skipped : Bool := false
  flattened : Bool := false

namespace FieldSettings

def readDocument (f : FieldSettings) (key : Option String) : Reader FieldSettings :=
  match [Role.identity, Role.timestamp].find? fun role => some role.name = key with
  | some role => return { f with roles := role :: f.roles }
  | none => throw .unknownFieldOption

def readSerde (inner : Grammar.Inner) (f : FieldSettings) (key : Option String) :
    Reader FieldSettings := do
  if key = some "rename" then
    match ← Setting.readForWriting fun _ => .ok () with
    | some name => return { f with rename := some name }
    | none => return f
  else if key = some "skip" || key = some "skip_serializing" then
    return { f with skipped := true }
  else if key = some "flatten" then return { f with flattened := true }
  else
    Setting.skipValue inner
    return f

def readGroup (f : FieldSettings) (group : SettingGroup) : Except Fault FieldSettings :=
  if group.name = "document" then group.read (fun _ => readDocument) f
  else if group.name = "serde" then group.read readSerde f
  else .ok f

def ofGroups (groups : List SettingGroup) : Except Fault FieldSettings :=
  groups.foldlM readGroup {}

end FieldSettings

end Docbase.Declaration
