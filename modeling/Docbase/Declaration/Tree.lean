import Docbase.Declaration.Literal
import Docbase.Text.Blank
import Docbase.Text.Quoted

namespace Docbase.Declaration

inductive Bracket where
  | round
  | square
  | curly
  deriving DecidableEq, Repr

namespace Bracket

def list : List Bracket := [.round, .square, .curly]

def opening : Bracket → Char
  | round => '('
  | square => '['
  | curly => '\x7b'

def closing : Bracket → Char
  | round => ')'
  | square => ']'
  | curly => '\x7d'

end Bracket

inductive Tree where
  | word (text : String)
  | literal (text : String)
  | lifetime (name : String)
  | sign (c : Char) (joined : Bool)
  | group (bracket : Bracket) (inside : List Tree)

mutual

def Tree.chars : Tree → List Char
  | .word text | .literal text => text.toList
  | .lifetime name => '\'' :: name.toList
  | .sign c _ => [c]
  | .group bracket inside => bracket.opening :: charsOf inside ++ [bracket.closing]

def charsOf : List Tree → List Char
  | [] => []
  | t :: ts => t.chars ++ charsOf ts

end

namespace Tree

def isGap (c : Char) : Bool := Text.isBlank c || c.toNat = 0x200e || c.toNat = 0x200f

def splitLine : List Char → List Char × List Char
  | [] => ([], [])
  | '\n' :: cs | '\r' :: '\n' :: cs => ([], '\n' :: cs)
  | c :: cs =>
    let (line, rest) := splitLine cs
    (c :: line, rest)

def behindBlock? : (depth : Nat) → List Char → Option (List Char)
  | _, [] => none
  | depth, '/' :: '*' :: cs => behindBlock? (depth + 1) cs
  | depth, '*' :: '/' :: cs => if depth ≤ 1 then some cs else behindBlock? (depth - 1) cs
  | depth, _ :: cs => behindBlock? depth cs

def returnsEndLines : List Char → Bool
  | [] => true
  | '\r' :: '\n' :: cs => returnsEndLines cs
  | c :: cs => c ≠ '\r' && returnsEndLines cs

/-- A comment between quotes. Before a digit up to seven, a nul is written with all its digits. -/
def documentationChars : List Char → List Char
  | [] => ['"']
  | '\x00' :: c :: cs =>
    (if '0' ≤ c && c ≤ '7' then "\\x00" else "\\0").toList ++ documentationChars (c :: cs)
  | c :: cs => Text.escape '"' c ++ documentationChars cs

/-- The attribute for a comment that documents; an inner one is about what stands around it. -/
def documentation? (inner : Bool) (content : List Char) : Option (List Tree) :=
  let group := .group .square
    [.word "doc", .sign '=' false, .literal (String.ofList ('"' :: documentationChars content))]
  if returnsEndLines content then
    some (.sign '#' false :: (if inner then [.sign '!' false] else []) ++ [group])
  else none

/-- A comment without the two signs before it and those behind it, and the rest. -/
def commentText? : List Char → Option (List Char × List Char)
  | '/' :: '/' :: cs => some (splitLine cs)
  | '/' :: '*' :: cs => do
    let rest ← behindBlock? 1 cs
    some ((cs.take (cs.length - rest.length)).dropLast.dropLast, rest)
  | _ => none

/-- What a comment stands for, and the rest behind it. A comment documents if an exclamation mark
follows its first two signs, or the second of them once more and not a third time. -/
def comment? (cs : List Char) : Option (List Tree × List Char) := do
  let (text, rest) ← commentText? cs
  let inner := cs[2]? = some '!'
  let outer := cs[2]? = cs[1]? && cs[3]? ≠ cs[1]? && cs[3]? ≠ some '/'
  if inner || outer then some (← documentation? inner (text.drop 1), rest) else some ([], rest)

def signs : List Char := "~!@#$%^&*-=+|;:,<.>/?'".toList

def beginsWithSign : List Char → Bool
  | [] => false
  | '/' :: c :: _ => c ≠ '/' && c ≠ '*'
  | c :: _ => signs.contains c

/-- The name with which the text begins, and the rest. A mark makes a name of most keywords. -/
def name? (cs : List Char) : Option (String × List Char) :=
  let marked := "r#".toList.isPrefixOf cs
  let named := if marked then cs.drop 2 else cs
  let text := String.ofList (named.takeWhile Text.continuesIdentifier)
  let isName := named.head?.any Text.startsIdentifier &&
    !(marked && ["_", "super", "self", "Self", "crate"].contains text)
  if isName then
    some ((if marked then "r#" else "") ++ text, named.dropWhile Text.continuesIdentifier)
  else none

/-- The lifetime behind a single quote. With another quote behind it, it would be a character. -/
def lifetime? (cs : List Char) : Option (Tree × List Char) := do
  let (name, rest) ← name? cs
  let goesOn := rest.head? = some '\'' || (rest.head? = some '#' && !"r#".toList.isPrefixOf cs)
  if goesOn then none else some (.lifetime name, rest)

def stringMarks : List String :=
  ["r\"", "r#\"", "r##", "b\"", "b'", "br\"", "br#", "c\"", "cr\"", "cr#"]

def leaf? (cs : List Char) : Option (Tree × List Char) :=
  match Literal.behind? cs with
  | some rest => some (.literal (String.ofList (cs.take (cs.length - rest.length))), rest)
  | none =>
    match cs with
    | '\'' :: rest => lifetime? rest
    | c :: rest =>
      if beginsWithSign cs then some (.sign c (beginsWithSign rest), rest)
      else if stringMarks.any fun mark => mark.toList.isPrefixOf cs then none
      else (name? cs).map fun (name, rest) => (.word name, rest)
    | [] => none

/-- Reads on behind the trees `done` (the last one first) inside of the groups `outer`, each with
the trees before it. -/
def readFrom : (rounds : Nat) → (outer : List (Bracket × List Tree)) → (done : List Tree) →
    List Char → Option (List Tree)
  | 0, _, _, _ => none
  | _ + 1, outer, done, [] => if outer.isEmpty then some done.reverse else none
  | rounds + 1, outer, done, c :: cs =>
    if isGap c then readFrom rounds outer done cs
    else
      match comment? (c :: cs) with
      | some (trees, rest) => readFrom rounds outer (trees.reverse ++ done) rest
      | none =>
        match Bracket.list.find? (·.opening = c), Bracket.list.find? (·.closing = c), outer with
        | some bracket, _, _ => readFrom rounds ((bracket, done) :: outer) [] cs
        | _, some bracket, (opened, before) :: outer =>
          if bracket = opened then readFrom rounds outer (.group bracket done.reverse :: before) cs
          else none
        | _, some _, [] => none
        | none, none, _ =>
          match leaf? (c :: cs) with
          | some (tree, rest) => readFrom rounds outer (tree :: done) rest
          | none => none

def ofText? (text : String) : Option (List Tree) :=
  let cs := match text.toList with
    | '\ufeff' :: cs => cs
    | cs => cs
  readFrom (cs.length + 1) [] [] cs

end Tree

end Docbase.Declaration
