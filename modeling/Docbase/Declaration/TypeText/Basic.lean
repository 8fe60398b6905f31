import Docbase.Declaration.Tree

namespace Docbase.Declaration

inductive ArgumentKind where
  | lifetime
  | type
  | other
  deriving DecidableEq, Repr

structure Argument where
  kind : ArgumentKind
  trees : List Tree
  comma : Bool

/-- The arguments one after the other, with a comma before each that is not `separated`. -/
def listArguments : (separated : Bool) → List Argument → List Tree
  | _, [] => []
  | separated, a :: arguments =>
    (if separated then [] else [.sign ',' false]) ++ a.trees ++
      (if a.comma then [.sign ',' false] else []) ++ listArguments a.comma arguments

def argumentTrees (arguments : List Argument) : List Tree :=
  let (lifetimes, others) := arguments.partition (·.kind = .lifetime)
  listArguments true (lifetimes ++ others)

def doubleColon : List Tree := [.sign ':' true, .sign ':' false]

structure Segment where
  name : String
  colons : Bool
  arguments : Option (List Argument)

def Segment.trees (s : Segment) : List Tree :=
  .word s.name :: (if s.colons then doubleColon else []) ++
    match s.arguments with
    | some arguments => .sign '<' false :: argumentTrees arguments ++ [.sign '>' false]
    | none => []

structure PathText where
  leading : Bool
  segments : List Segment
  /-- What stands in round brackets behind the last name, and a result. -/
  inputs : List Tree

def PathText.trees (p : PathText) : List Tree :=
  (if p.leading then doubleColon else []) ++
    doubleColon.intercalate (p.segments.map Segment.trees) ++ p.inputs

def PathText.isPlain (p : PathText) : Bool :=
  p.inputs.isEmpty && p.segments.all (·.arguments.isNone)

def normalText (ts : List Tree) : String :=
  String.ofList ((charsOf ts).filter (!Text.isBlank ·))

def PathText.text (p : PathText) : String := normalText p.trees

/-- A type of a declaration, kept as far as its normal text needs: without gaps and comments, and
with the lifetimes first among the arguments between angle brackets. -/
inductive TypeText where
  | path (p : PathText)
  | trait (trees : List Tree)
  | other (trees : List Tree)

namespace TypeText

def trees : TypeText → List Tree
  | path p => p.trees
  | trait ts | other ts => ts

def text (t : TypeText) : String := normalText t.trees

/-- The type that may be absent, where a type is an optional one: a path that ends in `Option` with
one type behind it in angle brackets. -/
def optional? : TypeText → Option String
  | path p =>
    match p.inputs, p.segments.getLast? with
    | [], some ⟨"Option", _, some [⟨.type, ts, _⟩]⟩ => some (normalText ts)
    | _, _ => none
  | _ => none

end TypeText

end Docbase.Declaration
