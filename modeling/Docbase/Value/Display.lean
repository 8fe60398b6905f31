import Docbase.Number.Shortest
import Docbase.Text.Base64
import Docbase.Value.Basic
import Docbase.Value.Calendar

namespace Docbase.Value

def commaSeparated (pieces : List String) : String := String.intercalate ", " pieces

mutual

/-- The text of a value, as messages show it and as the store files documents under it. Strings get
quotes, but nothing in them is escaped. -/
def display : Value → String
  | .null => "null"
  | .undefined => "undefined"
  | .minKey => "MinKey"
  | .maxKey => "MaxKey"
  | .bool b => if b then "true" else "false"
  | .int32 n => toString n.toInt
  | .int64 n => toString n.toInt
  | .double x => x.display
  | .string s => "\"" ++ s ++ "\""
  | .symbol s => "Symbol(\"" ++ s ++ "\")"
  | .code source => source
  | .scopedCode source _ => source
  | .regex pattern options => "/" ++ pattern ++ "/" ++ options
  | .timestamp time increment => "Timestamp(" ++ toString time ++ ", " ++ toString increment ++ ")"
  | .dateTime millis => "DateTime(\"" ++ Calendar.text millis.toInt ++ "\")"
  | .objectId id => "ObjectId(\"" ++ id.hex ++ "\")"
  | .binary subtype bytes =>
    "Binary(0x" ++ String.ofList (Nat.toDigits 16 subtype.toNat) ++ ", " ++
      String.ofList (Text.base64 bytes) ++ ")"
  | .array items => "[" ++ commaSeparated (displayItems items) ++ "]"
  | .document [] => "\x7b\x7d"
  | .document fields => "\x7b " ++ commaSeparated (displayFields fields) ++ " \x7d"

def displayItems : List Value → List String
  | [] => []
  | v :: rest => v.display :: displayItems rest

def displayFields : List (String × Value) → List String
  | [] => []
  | (k, v) :: rest => ("\"" ++ k ++ "\": " ++ v.display) :: displayFields rest

end

end Docbase.Value
