import Docbase.Text.Hex
import Docbase.Text.Identifier

namespace Docbase.Declaration.Literal

/-- What may stand in a string or character of some kind. -/
structure Content where
  codePoints : Bool
  highBytes : Bool
  wide : Bool
  nul : Bool

def Content.text : Content := ⟨true, false, true, true⟩

def Content.bytes : Content := ⟨false, true, false, true⟩

def Content.terminated : Content := ⟨true, true, true, false⟩

def Content.allows (content : Content) (c : Char) : Bool :=
  (content.wide || c.toNat < 128) && (content.nul || c ≠ '\x00')

def isHexDigit (c : Char) : Bool := (Text.hexDigit? c).isSome

def Content.behindCodePoint? (content : Content) : List Char → Option (List Char)
  | '\x7b' :: first :: cs =>
    let inside := first :: cs.takeWhile (· ≠ '\x7d')
    let digits := inside.filter (· ≠ '_')
    let isNumber := first ≠ '_' && digits.length ≤ 6 && digits.all isHexDigit
    let point := digits.foldl (fun n d => n * 16 + (Text.hexDigit? d).getD 0) 0
    if isNumber && point.isValidChar && (content.nul || point ≠ 0) then
      match cs.dropWhile (· ≠ '\x7d') with
      | '\x7d' :: rest => some rest
      | _ => none
    else none
  | _ => none

def Content.behindEscape? (content : Content) : List Char → Option (List Char)
  | 'u' :: cs => if content.codePoints then content.behindCodePoint? cs else none
  | 'x' :: high :: low :: cs => do
    let high ← Text.hexDigit? high
    let low ← Text.hexDigit? low
    if (content.highBytes || high < 8) && (content.nul || high + low ≠ 0) then some cs else none
  | '0' :: cs => if content.nul then some cs else none
  | c :: cs => if ['n', 'r', 't', '\\', '\'', '"'].contains c then some cs else none
  | [] => none

/-- The rest behind the closing quote of a string. A carriage return stands only before a line end,
and a backslash may stand before a line end too. -/
def Content.behindString? (content : Content) : (rounds : Nat) → List Char → Option (List Char)
  | 0, _ => none
  | rounds + 1, cs =>
    match cs with
    | '"' :: cs => some cs
    | '\r' :: '\n' :: cs | '\\' :: '\r' :: '\n' :: cs | '\\' :: '\n' :: cs =>
      content.behindString? rounds cs
    | '\r' :: _ => none
    | '\\' :: cs => do content.behindString? rounds (← content.behindEscape? cs)
    | c :: cs => if content.allows c then content.behindString? rounds cs else none
    | [] => none

/-- The rest behind a string without escapes that ends at a quote with as many number signs as
stand before its opening quote. -/
def Content.behindRaw? (content : Content) (closing : List Char) :
    List Char → Option (List Char)
  | [] => none
  | '\r' :: '\n' :: cs => content.behindRaw? closing cs
  | c :: cs =>
    if closing.isPrefixOf (c :: cs) then some ((c :: cs).drop closing.length)
    else if c = '\r' || !content.allows c then none
    else content.behindRaw? closing cs

/-- The rest behind the string, from the quote on or from the number signs before it. -/
def Content.behindQuoted? (content : Content) (raw : Bool) (cs : List Char) :
    Option (List Char) :=
  let signs := if raw then cs.takeWhile (· = '#') else []
  match cs.drop signs.length with
  | '"' :: cs =>
    if 255 < signs.length then none
    else if raw then content.behindRaw? ('"' :: signs) cs
    else content.behindString? (cs.length + 1) cs
  | _ => none

/-- The rest behind a character, from the character after the opening quote on. -/
def Content.behindCharacter? (content : Content) (cs : List Char) : Option (List Char) := do
  let rest ← match cs with
    | '\\' :: cs => content.behindEscape? cs
    | c :: cs => if content.allows c then some cs else none
    | [] => none
  match rest with
  | '\'' :: rest => some rest
  | _ => none

def behindName : List Char → List Char
  | c :: cs => if Text.startsIdentifier c then cs.dropWhile Text.continuesIdentifier else c :: cs
  | [] => []

def behindSuffix? (behind? : Option (List Char)) : Option (List Char) := behind?.map behindName

/-- The rest behind a string or a character with the mark of its kind before it. -/
def behindText? : List Char → Option (List Char)
  | 'r' :: cs => behindSuffix? (Content.text.behindQuoted? true cs)
  | 'b' :: 'r' :: cs => behindSuffix? (Content.bytes.behindQuoted? true cs)
  | 'b' :: '\'' :: cs => behindSuffix? (Content.bytes.behindCharacter? cs)
  | 'b' :: cs => behindSuffix? (Content.bytes.behindQuoted? false cs)
  | 'c' :: 'r' :: cs => behindSuffix? (Content.terminated.behindQuoted? true cs)
  | 'c' :: cs => behindSuffix? (Content.terminated.behindQuoted? false cs)
  | '\'' :: cs => behindSuffix? (Content.text.behindCharacter? cs)
  | cs => behindSuffix? (Content.text.behindQuoted? false cs)

def inDigits (c : Char) : Bool := c.isDigit || c = '_'

def behindExponent? (cs : List Char) : Option (List Char) :=
  let cs := cs.dropWhile (· = '_')
  let cs := match cs with
    | '+' :: cs | '-' :: cs => cs
    | cs => cs
  match cs.dropWhile (· = '_') with
  | c :: cs => if c.isDigit then some (cs.dropWhile inDigits) else none
  | [] => none

/-- The rest behind a number with a point or an exponent. A point with a second one or a name behind
it belongs to what follows. -/
def behindFraction? (cs : List Char) : Option (List Char) :=
  match cs.dropWhile inDigits with
  | '.' :: cs =>
    if cs.head?.any fun c => c = '.' || Text.startsIdentifier c then none
    else
      match cs.dropWhile inDigits with
      | c :: rest =>
        if c = 'e' || c = 'E' then some ((behindExponent? rest).getD (c :: rest))
        else some (c :: rest)
      | [] => some []
  | c :: rest => if c = 'e' || c = 'E' then behindExponent? rest else none
  | [] => none

def behindDigits? (base : Nat) (cs : List Char) : Option (List Char) :=
  let inNumber := fun c => inDigits c || (base = 16 && isHexDigit c)
  let digits := (cs.takeWhile inNumber).filter (· ≠ '_')
  if digits.isEmpty || digits.any fun d => base ≤ (Text.hexDigit? d).getD 0 then none
  else some (cs.dropWhile inNumber)

def splitBase : List Char → Nat × List Char
  | '0' :: 'x' :: cs => (16, cs)
  | '0' :: 'o' :: cs => (8, cs)
  | '0' :: 'b' :: cs => (2, cs)
  | cs => (10, cs)

def behindWhole? (cs : List Char) : Option (List Char) :=
  let (base, digits) := splitBase cs
  behindDigits? base digits

/-- The rest behind the name of a type behind a number; nothing else may be joined to it. -/
def behindType? (cs : List Char) : Option (List Char) :=
  let rest := behindName cs
  if rest.head?.any Text.continuesIdentifier then none else some rest

def isFraction (cs : List Char) : Bool := ((behindFraction? cs).bind behindType?).isSome

def behindNumber? (cs : List Char) : Option (List Char) :=
  if cs.head?.any Char.isDigit then
    ((behindFraction? cs).bind behindType?).or ((behindWhole? cs).bind behindType?)
  else none

def whole? (cs : List Char) : Option (Nat × List Char) := do
  let (base, digits) := splitBase cs
  let rest ← behindDigits? base digits
  let digits := (digits.take (digits.length - rest.length)).filter (· ≠ '_')
  some (digits.foldl (fun n d => base * n + (Text.hexDigit? d).getD 0) 0, rest)

def behind? (cs : List Char) : Option (List Char) := (behindText? cs).or (behindNumber? cs)

/-- The character or nothing that the escape behind a backslash stands for, and the rest. A line
end stands for nothing, as does the white space at the start of the next line. -/
def unescape? : List Char → Option (List Char × List Char)
  | 'n' :: cs => some (['\n'], cs)
  | 'r' :: cs => some (['\r'], cs)
  | 't' :: cs => some (['\t'], cs)
  | '0' :: cs => some (['\x00'], cs)
  | '\n' :: cs | '\r' :: cs => some ([], cs.dropWhile fun c => [' ', '\t', '\n', '\r'].contains c)
  | 'x' :: high :: low :: cs => do
    some ([Char.ofNat (16 * (← Text.hexDigit? high) + (← Text.hexDigit? low))], cs)
  | 'u' :: '\x7b' :: cs =>
    let digits := (cs.takeWhile (· ≠ '\x7d')).filterMap Text.hexDigit?
    some ([Char.ofNat (digits.foldl (16 * · + ·) 0)], (cs.dropWhile (· ≠ '\x7d')).drop 1)
  | c :: cs => some ([c], cs)
  | [] => none

/-- What stands before the closing quote of a string, with the escapes replaced. -/
def contentOf : (rounds : Nat) → List Char → List Char
  | 0, _ => []
  | rounds + 1, cs =>
    match cs with
    | '\\' :: cs =>
      match unescape? cs with
      | some (meant, rest) => meant ++ contentOf rounds rest
      | none => []
    | '\r' :: '\n' :: cs => '\n' :: contentOf rounds cs
    | '"' :: _ | [] => []
    | c :: cs => c :: contentOf rounds cs

def rawContentOf (closing : List Char) : List Char → List Char
  | [] => []
  | '\r' :: '\n' :: cs => '\n' :: rawContentOf closing cs
  | c :: cs => if closing.isPrefixOf (c :: cs) then [] else c :: rawContentOf closing cs

def string? (text : String) : Option String :=
  match text.toList with
  | '"' :: cs => some (String.ofList (contentOf cs.length cs))
  | 'r' :: cs =>
    let signs := cs.takeWhile (· = '#')
    match cs.drop signs.length with
    | '"' :: cs => some (String.ofList (rawContentOf ('"' :: signs) cs))
    | _ => none
  | _ => none

end Docbase.Declaration.Literal
