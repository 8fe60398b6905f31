import Docbase.Declaration.Grammar.Item
import Docbase.Declaration.Grammar.Statement
import Docbase.Declaration.Grammar.Type

namespace Docbase.Declaration.Grammar

open Reader

def readers : (depth : Nat) → Inner
  | 0 => ⟨fun _ => demand [], fun _ _ => demand [], demand [], fun _ => demand [],
      fun _ => demand [], fun _ _ _ => demand [], fun _ => demand [], demand [], demand [],
      fun _ => demand [], demand []⟩
  | depth + 1 =>
    { type := fun sums r => type (readers depth) sums r
      bound := fun captures constants r => bound (readers depth) captures constants r
      pattern := fun r => pattern (readers depth) r
      expression := fun structs r => expression (readers depth) structs r
      operand := fun structs r => operand (readers depth) structs r
      operations := fun structs p e r => operations (readers depth) structs p e r
      leading := fun attributes r => leading (readers depth) attributes r
      statements := fun r => statements (readers depth) r
      item := fun r => item (readers depth) r
      imports := fun rooted r => imports (readers depth) rooted r
      fields := fun r => namedFields (readers depth) r }

/-- Reads all the trees. Every three readers inside of each other take one character away. -/
def readTrees {α : Type} (read : Inner → Reader α) (ts : List Tree) : Except Fault α := do
  let (a, r) ← (read (readers (3 * (charsOf ts).length + 3))).run ⟨ts, none⟩
  if r.leftIn.isSome || !r.trees.isEmpty then .error (.unread r.leftIn) else .ok a

def readText {α : Type} (read : Inner → Reader α) (text : String) : Except Fault α :=
  match Tree.ofText? text with
  | none => .error .unreadable
  | some ts => readTrees read ts

end Docbase.Declaration.Grammar
