import Docbase.Language.Parser
import Docbase.Sorting

namespace Docbase.Language

def direction? (word : String) : Option Direction :=
  if Text.sameIgnoringCase word "asc" || Text.sameIgnoringCase word "ascending" then some .asc
  else if Text.sameIgnoringCase word "desc" || Text.sameIgnoringCase word "descending" then
    some .desc
  else none

variable (finish : Nat)

def sortKeys : List Placed → Except Fault (List SortKey)
  | [] => unexpected finish .field []
  | t :: rest =>
    match fieldWord? t.token with
    | none => unexpected finish .field (t :: rest)
    | some field =>
      match rest with
      | [] => .ok [⟨Path.ofString field, .asc⟩]
      | ⟨.comma, _⟩ :: more => do .ok (⟨Path.ofString field, .asc⟩ :: (← sortKeys more))
      | ⟨.word word, position⟩ :: after =>
        match direction? word with
        | none => unexpected finish .direction (⟨.word word, position⟩ :: after)
        | some direction =>
          match after with
          | [] => .ok [⟨Path.ofString field, direction⟩]
          | ⟨.comma, _⟩ :: more => do .ok (⟨Path.ofString field, direction⟩ :: (← sortKeys more))
          | other => unexpected finish .commaOrEnd other
      | other => unexpected finish .commaOrEnd other

def orderOfTokens (ts : List Placed) : Except Fault (List SortKey) :=
  if ts.isEmpty then .error ⟨0, .empty .order⟩ else sortKeys finish ts

def parseOrder (text : String) : Except Fault (List SortKey) := do
  orderOfTokens text.utf8ByteSize (← tokens text)

end Docbase.Language
