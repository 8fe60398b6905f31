import Docbase.Declaration.Fault

namespace Docbase.Declaration

/-- What is still to be read, and the brackets of the first group of which something was left. -/
structure Remainder where
  trees : List Tree
  leftIn : Option Bracket

abbrev Reader := StateT Remainder (Except Fault)

/-- A reader that gives trees, those that it took or others in their place. -/
abbrev Rule := Reader (List Tree)

instance : Append Rule where
  append r s := do return (← r) ++ (← s)

def beginsWord (words : List String) : List Tree → Bool
  | .word w :: _ => words.contains w
  | _ => false

def beginsAnyWord : List Tree → Bool
  | .word _ :: _ => true
  | _ => false

def beginsSigns : (signs : List Char) → List Tree → Bool
  | [], _ => true
  | [c], .sign d _ :: _ => c = d
  | c :: signs, .sign d joined :: ts => c = d && joined && beginsSigns signs ts
  | _, _ => false

def begins (signs : String) (ts : List Tree) : Bool := beginsSigns signs.toList ts

/-- Whether the trees begin with some of these signs, and with none of the longer ones. -/
def beginsOnly (signs : String) (longer : List String) (ts : List Tree) : Bool :=
  begins signs ts && !longer.any (begins · ts)

def beginsLifetime : List Tree → Bool
  | .lifetime _ :: _ => true
  | _ => false

def beginsGroup (bracket : Bracket) : List Tree → Bool
  | .group b _ :: _ => b = bracket
  | _ => false

def beginsString : List Tree → Bool
  | .literal text :: _ => (Literal.string? text).isSome
  | _ => false

def isNumber (text : String) : Bool := text.toList.head?.any Char.isDigit

/-- Whether a literal is next: a truth value and a negative number are literals too. -/
def beginsLiteral : List Tree → Bool
  | .literal _ :: _ => true
  | .sign '-' _ :: .literal text :: _ => isNumber text
  | ts => beginsWord ["true", "false"] ts

def keywords : List String :=
  ["_", "abstract", "as", "async", "await", "become", "box", "break", "const", "continue", "crate",
    "do", "dyn", "else", "enum", "extern", "false", "final", "fn", "for", "if", "impl", "in", "let",
    "loop", "macro", "match", "mod", "move", "mut", "override", "priv", "pub", "ref", "return",
    "Self", "self", "static", "struct", "super", "trait", "true", "try", "type", "typeof", "unsafe",
    "unsized", "use", "virtual", "where", "while", "yield"]

def beginsName : List Tree → Bool
  | .word w :: _ => !keywords.contains w
  | _ => false

def Expectation.isNext : Expectation → List Tree → Bool
  | token text, ts => beginsWord [text] ts || begins text ts
  | group bracket, ts => beginsGroup bracket ts
  | identifier, ts => beginsName ts
  | anyIdentifier, ts => beginsAnyWord ts
  | underscore, ts => beginsWord ["_"] ts
  | lifetime, ts => beginsLifetime ts
  | literal, ts => beginsLiteral ts
  | string, ts => beginsString ts
  | _, _ => false

namespace Reader

def ahead : Reader (List Tree) := return (← get).trees

def take (n : Nat) : Rule := do
  let r ← get
  set { r with trees := r.trees.drop n }
  return r.trees.take n

def demand {α : Type} (choices : List Expectation) : Reader α := do
  throw (.expected choices (← ahead).isEmpty)

def misplace {α : Type} (what : Misplaced) : Reader α := throw (.misplaced what)

def oneOf {α : Type} (choices : List (Expectation × Reader α)) : Reader α := do
  let ts ← ahead
  match choices.find? (·.1.isNext ts) with
  | some (_, read) => read
  | none => demand (choices.map (·.1))

def preview {α : Type} (read : Reader α) : Reader (Option (α × List Tree)) := fun r =>
  match read.run r with
  | .ok (a, left) => .ok (some (a, left.trees), r)
  | .error _ => .ok (none, r)

def attempt {α : Type} (read : Reader α) : Reader (Option α) := fun r =>
  match read.run r with
  | .ok (a, left) => .ok (some a, left)
  | .error _ => .ok (none, r)

def within {α : Type} (bracket : Bracket) (inside : List Tree) (read : Reader α) : Reader α := do
  let outside ← get
  set { outside with trees := inside }
  let a ← read
  let r ← get
  let leftIn := if r.trees.isEmpty then r.leftIn else r.leftIn.or (some bracket)
  set { outside with leftIn := leftIn }
  return a

def inGroup {α : Type} (bracket : Bracket) (read : Reader α) : Reader α := do
  match ← ahead with
  | .group b inside :: _ =>
    if b = bracket then
      let _ ← take 1
      within bracket inside read
    else demand [.group bracket]
  | _ => demand [.group bracket]

def grouped (bracket : Bracket) (inside : Rule) : Rule := do
  return [.group bracket (← inGroup bracket inside)]

def ifNext (test : List Tree → Bool) (rule : Rule) : Rule := do
  if test (← ahead) then rule else return []

def accept (signs : String) : Rule := ifNext (begins signs) (take signs.length)

def require (signs : String) : Rule := do
  if begins signs (← ahead) then take signs.length else throw (.expectedSign signs)

def acceptWord (words : List String) : Rule := ifNext (beginsWord words) (take 1)

def requireWord (word : String) : Rule := do
  if beginsWord [word] (← ahead) then take 1 else demand [.token word]

def acceptLifetime : Rule := ifNext beginsLifetime (take 1)

def requireLifetime : Rule := do
  if beginsLifetime (← ahead) then take 1 else demand [.lifetime]

def name : Rule := do
  match ← ahead with
  | .word w :: _ => if keywords.contains w then throw (.keyword w) else take 1
  | _ => demand [.identifier]

def anyWord : Rule := do
  if beginsAnyWord (← ahead) then take 1 else demand [.anyIdentifier]

def nameOr (words : List String) : Rule := do
  if beginsWord words (← ahead) then take 1 else name

def literal : Rule := do
  if beginsLiteral (← ahead) then take (if begins "-" (← ahead) then 2 else 1)
  else demand [.literal]

def readSince (before : List Tree) : Rule :=
  return before.take (before.length - (← ahead).length)

/-- What the reader gives if that is in normal form, else the trees as they stand. -/
def normalOrWritten (read : Reader (Bool × List Tree)) : Rule := do
  let before ← ahead
  let (isNormal, ts) ← read
  if isNormal then return ts else readSince before

def asWritten (rule : Rule) : Rule := normalOrWritten (return (false, ← rule))

def repeatWhile (test : List Tree → Bool) (rule : Rule) : (rounds : Nat) → Rule
  | 0 => return []
  | rounds + 1 => do
    if test (← ahead) then rule ++ repeatWhile test rule rounds else return []

def whileNext (test : List Tree → Bool) (rule : Rule) : Rule := do
  repeatWhile test rule ((← ahead).length + 1)

/-- Reads items up to where `closes` holds, each but the last with signs behind it. -/
def readSeparated {α : Type} (signs : String) (closes : List Tree → Bool) (item : Reader α) :
    (rounds : Nat) → Reader (List (α × Bool))
  | 0 => return []
  | rounds + 1 => do
    if closes (← ahead) then return []
    let a ← item
    if closes (← ahead) then return [(a, false)]
    let _ ← require signs
    return (a, true) :: (← readSeparated signs closes item rounds)

def separated {α : Type} (signs : String) (closes : List Tree → Bool) (item : Reader α) :
    Reader (List (α × Bool)) := do
  readSeparated signs closes item ((← ahead).length + 1)

def signTrees (sign : Char) (items : List (List Tree × Bool)) : List Tree :=
  items.flatMap fun (ts, followed) => ts ++ if followed then [.sign sign false] else []

def commas (item : Rule) : Rule := do return signTrees ',' (← separated "," List.isEmpty item)

/-- Items up to where `closes` holds or up to the first that no plus sign follows. -/
def repeatPlus (closes : List Tree → Bool) (item : Rule) : (rounds : Nat) → Rule
  | 0 => return []
  | rounds + 1 => do
    if closes (← ahead) then return []
    let ts ← item
    if begins "+" (← ahead) then return ts ++ (← take 1) ++ (← repeatPlus closes item rounds)
    else return ts

def plusSum (closes : List Tree → Bool) (item : Rule) : Rule := do
  repeatPlus closes item ((← ahead).length + 1)

end Reader

end Docbase.Declaration
