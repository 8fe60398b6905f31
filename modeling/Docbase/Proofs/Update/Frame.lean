import Docbase.Proofs.Location
import Docbase.Proofs.Update.Unordered

namespace Docbase

namespace Value

variable {f : Value → Except UpdateError Value} {keeps : List String → List String → Prop}
  {trail segment : Path} {v v' child item : Value} {segments rest : List String}
  {fields : Document} {items : List Value} {k s next : String} {i : Nat}

end Value

namespace Document

/-- What a write leaves behind: one value at the path, and all as it was elsewhere. -/
structure Writes (p : Path) (new : Value) (d d' : Document) : Prop where
  found : d'.lookup p = [new]
  stored : (Value.document d').at? (d.locate p) = some new
  frame : Value.Frame (· <+: ·) (d.locate p) (.document d) (.document d')

variable {f : Value → Except UpdateError Value} {p : Path} {d d' : Document}

end Document

namespace UpdateOp

end UpdateOp

end Docbase
