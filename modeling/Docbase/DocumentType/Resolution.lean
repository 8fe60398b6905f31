import Docbase.DocumentType.Basic
import Docbase.Failure
import Docbase.Sorting

namespace Docbase.DocumentType

variable (T : DocumentType)

/-- The stored form of a path. The identity answers to `_id` and, in any letter case, to its own
name; it has no parts. -/
def resolvePath (p : Path) : Except Failure Path :=
  if p.head = "_id" || Text.sameIgnoringCase p.head T.identity then
    if p.tail.isEmpty then .ok Path.identity else .error (.unresolved p T.name)
  else
    match T.schema.resolve? T.shapes p with
    | some q => .ok q
    | none => .error (.unresolved p T.name)

def normalizeKey (v : Value) : Value :=
  match T.key.ofValue v with
  | .ok key => key.stored
  | .error _ => v

def normalizeLiteral (op : Operator) (v : Value) : Value :=
  match op, v with
  | .anyOf, .array items | .noneOf, .array items => .array (items.map T.normalizeKey)
  | _, .null => .null
  | _, v => T.normalizeKey v

mutual

def resolveFilter : Filter → Except Failure Filter
  | .all parts => do .ok (.all (← resolveFilters parts))
  | .any parts => do .ok (.any (← resolveFilters parts))
  | .negation inner => do .ok (.negation (← resolveFilter inner))
  | .present path expected => do .ok (.present (← T.resolvePath path) expected)
  | .comparison path op v => do
    let path ← T.resolvePath path
    .ok (.comparison path op (if path = Path.identity then T.normalizeLiteral op v else v))

def resolveFilters : List Filter → Except Failure (List Filter)
  | [] => .ok []
  | f :: rest => do
    let f ← resolveFilter f
    let rest ← resolveFilters rest
    .ok (f :: rest)

end

def resolveSort (key : SortKey) : Except Failure SortKey := do
  .ok ⟨← T.resolvePath key.path, key.direction⟩

/-- The stored form of one operation. The identity and the time of the last write are not for
callers to change. -/
def resolveOp (op : UpdateOp) : Except Failure UpdateOp := do
  let path ← T.resolvePath op.path
  if path = Path.identity || path = Path.ofString T.timestamp then
    .error (.invalidArgument (.maintainedField path))
  else .ok (op.withPath path)

/-- The stored form of an update, which also sets the time of the write. -/
def resolveUpdate (update : Update) : Except Failure Update := do
  let ops ← update.mapM T.resolveOp
  .ok (ops ++ [.currentDate (← T.resolvePath (Path.ofString T.timestamp))])

end Docbase.DocumentType
