import Docbase.Failure
import Docbase.Number.Width

namespace Docbase

/-- How many documents to skip and how many to take after them. -/
structure Window where
  offset : UInt64
  limit : UInt64
  limit_pos : 0 < limit
  deriving DecidableEq

namespace Window

def ofLimits (offset limit : UInt64) : Except Misuse Window :=
  if h : 0 < limit then .ok ⟨offset, limit, h⟩ else .error (.windowLimit limit)

/-- The window of a page. The number of documents in front of it has to fit into 64 bits. -/
def ofPage (number size : UInt64) : Except Misuse Window :=
  if number = 0 then .error (.pageNumber number)
  else if h : 0 < size then
    let offset := (number.toNat - 1) * size.toNat
    if offset < UInt64.size then .ok ⟨UInt64.ofNat offset, size, h⟩ else .error .pageOffset
  else .error (.pageSize size)

def single : Window := ⟨0, 1, by decide⟩

def first (w : Window) : Window := ⟨w.offset, 1, by decide⟩

end Window

/-- The documents of a page, how many there are on all pages, and the numbers of the pages beside
it. -/
structure Page (α : Type) where
  items : List α
  count : UInt64
  next : Option UInt64
  previous : Option UInt64

namespace Page

/-- How many documents there are up to the end of a page, or the greatest number if that does not
fit into 64 bits. -/
def lastPosition (number size : UInt64) : UInt64 :=
  UInt64.ofNat (min (number.toNat * size.toNat) (UInt64.size - 1))

/-- The number of the page before this one, if there is one and its number fits into 64 bits. -/
def before? (number : UInt64) : Option (Option UInt64) :=
  if 1 < number then some <$> Number.uint64? (number.toNat - 1) else some none

/-- Page `number` of those with `size` documents, where `count` is the number of all documents. There
is none if the number of a page beside it does not fit into 64 bits. -/
def assemble {α : Type} (items : List α) (count number size : UInt64) : Option (Page α) := do
  -- The number of the next page is computed whether there is one or not.
  let following ← Number.uint64? (number.toNat + 1)
  let previous ← before? number
  some
    { items, count, next := if lastPosition number size < count then some following else none,
      previous }

end Page

end Docbase
