import Docbase.DocumentType.Resolution
import Docbase.Language.OrderList
import Docbase.Page
import Docbase.Query

namespace Docbase

def DocumentType.parseFilter (T : DocumentType) (text : String) : Except Failure Filter :=
  match Language.parseFilter text with
  | .ok f => T.resolveFilter f
  | .error fault => .error (.parse text fault)

/-- Reads an order text and brings the sort keys to the stored form of the type. -/
def DocumentType.parseOrder (T : DocumentType) (text : String) : Except Failure (List SortKey) :=
  match Language.parseOrder text with
  | .ok keys => keys.mapM T.resolveSort
  | .error fault => .error (.parse text fault)

/-- What to look for, in which order, and which part of the result to take. No filter stands for the
filter that accepts everything. -/
structure Criteria where
  filter : Option Filter := none
  sort : List SortKey := []
  window : Option Window := none
  deriving BEq

namespace Criteria

def ofFilter (f : Filter) : Criteria := { filter := some f }

def and (c : Criteria) (f : Filter) : Criteria :=
  match c.filter with
  | some current => { c with filter := some (current.and f) }
  | none => { c with filter := some f }

def or (c : Criteria) (f : Filter) : Criteria :=
  match c.filter with
  | some current => { c with filter := some (current.or f) }
  | none => c

def not (c : Criteria) : Criteria := { c with filter := some (c.filter.getD (.all [])).not }

def orderBy (c : Criteria) (key : SortKey) : Criteria := { c with sort := c.sort ++ [key] }

def withWindow (c : Criteria) (w : Window) : Criteria := { c with window := some w }

def withoutWindow (c : Criteria) : Criteria := { c with window := none }

def page (c : Criteria) (number size : UInt64) : Except Failure Criteria :=
  match Window.ofPage number size with
  | .ok w => .ok (c.withWindow w)
  | .error misuse => .error (.invalidArgument misuse)

def andText (T : DocumentType) (c : Criteria) (text : String) : Except Failure Criteria := do
  .ok (c.and (← T.parseFilter text))

def orderByText (T : DocumentType) (c : Criteria) (text : String) : Except Failure Criteria := do
  .ok ((← T.parseOrder text).foldl orderBy c)

def parse (T : DocumentType) (text : String) : Except Failure Criteria := do
  .ok (ofFilter (← T.parseFilter text))

def parseOrdered (T : DocumentType) (text order : String) : Except Failure Criteria := do
  let c ← parse T text
  .ok { c with sort := ← T.parseOrder order }

/-- The query for a store, with all paths as they are. -/
def toQuery (c : Criteria) : Query where
  filter := c.filter
  sort := c.sort
  skip := c.window.map Window.offset
  limit := c.window.map Window.limit

/-- The query for a store in the stored form of the type. -/
def compile (T : DocumentType) (c : Criteria) : Except Failure Query := do
  let filter ← c.filter.mapM T.resolveFilter
  let sort ← c.sort.mapM T.resolveSort
  .ok { c.toQuery with filter, sort }

/-- Criteria under which the last document comes first: every key is turned round, and among equals
the greatest identity leads. -/
def reversed (c : Criteria) : Criteria where
  filter := c.filter
  sort := c.sort.map (fun key => ⟨key.path, key.direction.reversed⟩) ++ [⟨Path.identity, .desc⟩]
  window := some Window.single

end Criteria

end Docbase
