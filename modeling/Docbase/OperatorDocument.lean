import Docbase.Failure
import Docbase.Sorting
import Docbase.Text.Pattern

namespace Docbase

namespace Operator

/-- The pattern of a text that has to stand behind `before` and in front of `after`. -/
def pattern (before : List Char) (text : String) (after : List Char) : Document :=
  [("$regex", .string (String.ofList (before ++ Text.literalPattern text.toList ++ after)))]

def containsDocument : Value → Document
  | .string s => pattern [] s []
  | .array items => [("$all", .array items)]
  | v => [("$eq", v)]

def asList : Value → Value
  | .array items => .array items
  | v => .array [v]

def document (literal : Value) : Operator → Except Misuse Document
  | eq => .ok [("$eq", literal)]
  | ne => .ok [("$ne", literal)]
  | gt => .ok [("$gt", literal)]
  | gte => .ok [("$gte", literal)]
  | lt => .ok [("$lt", literal)]
  | lte => .ok [("$lte", literal)]
  | contains => .ok (containsDocument literal)
  | notContains => .ok [("$not", .document (containsDocument literal))]
  | startsWith =>
    match literal with
    | .string s => .ok (pattern ['^'] s [])
    | v => .error (.stringRequired startsWith v)
  | endsWith =>
    match literal with
    | .string s => .ok (pattern [] s ['$'])
    | v => .error (.stringRequired endsWith v)
  | anyOf => .ok [("$in", asList literal)]
  | noneOf => .ok [("$nin", asList literal)]

end Operator

namespace Filter

mutual

/-- The filter as a document of operators, which are keys that start with a dollar sign. The empty
document accepts everything, so none of it accepts nothing. -/
def operatorDocument : Filter → Except Misuse Document
  | all [] => .ok []
  | all parts => do .ok [("$and", .array (← operatorDocuments parts))]
  | any [] => .ok [("$nor", .array [.document []])]
  | any parts => do .ok [("$or", .array (← operatorDocuments parts))]
  | negation inner => do .ok [("$nor", .array [.document (← operatorDocument inner)])]
  | present path expected => .ok [(path.text, .document [("$exists", .bool expected)])]
  | comparison path op literal => do .ok [(path.text, .document (← op.document literal))]

def operatorDocuments : List Filter → Except Misuse (List Value)
  | [] => .ok []
  | f :: rest => do
    let d ← operatorDocument f
    let rest ← operatorDocuments rest
    .ok (.document d :: rest)

end

end Filter

namespace SortKey

def directionValue : Direction → Value
  | .asc => .int32 1
  | .desc => .int32 (-1)

/-- Adds a field unless it is there already: of two keys on one field the first decides. -/
def addField (d : Document) (key : SortKey) : Document :=
  if (d.get? key.path.text).isSome then d
  else d ++ [(key.path.text, directionValue key.direction)]

/-- The sort keys as a document, with the identity as the last key. Without keys there is nothing to
sort by. -/
def operatorDocument? (keys : List SortKey) : Option Document :=
  if keys.isEmpty then none else some ((keys ++ [SortKey.mk Path.identity .asc]).foldl addField [])

end SortKey

namespace UpdateOp

/-- The section of the update that an operation belongs to, and the value it has there. -/
def operand : UpdateOp → String × Value
  | set _ value => ("$set", value)
  | unset _ => ("$unset", .string "")
  | inc _ delta => ("$inc", delta)
  | currentDate _ => ("$currentDate", .bool true)

def addTo (sections : List (String × Document)) (op : UpdateOp) : List (String × Document) :=
  let (name, value) := op.operand
  match sections with
  | [] => [(name, [(op.path.text, value)])]
  | (n, fields) :: rest =>
    if n = name then (n, fields.insert op.path.text value) :: rest
    else (n, fields) :: addTo rest op

end UpdateOp

def Update.operatorDocument (update : Update) : Document :=
  (update.foldl UpdateOp.addTo []).map fun (name, fields) => (name, .document fields)

end Docbase
