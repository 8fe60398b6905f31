namespace Docbase.Text

def hexDigit? (c : Char) : Option Nat :=
  if c.isDigit then some (c.toNat - '0'.toNat)
  else if 'a' ≤ c && c ≤ 'f' then some (c.toNat - 'a'.toNat + 10)
  else if 'A' ≤ c && c ≤ 'F' then some (c.toNat - 'A'.toNat + 10)
  else none

def natOfHex? (width : Nat) (cs : List Char) : Option Nat :=
  if cs.length = width then
    cs.foldlM (fun n c => (hexDigit? c).map (16 * n + ·)) 0
  else none

def hexOfNat : Nat → Nat → List Char
  | 0, _ => []
  | width + 1, n => hexOfNat width (n / 16) ++ [Nat.digitChar (n % 16)]

def hexOfBytes (bytes : List UInt8) : List Char :=
  bytes.flatMap fun b => hexOfNat 2 b.toNat

def bytesOfHex? : List Char → Option (List UInt8)
  | [] => some []
  | [_] => none
  | a :: b :: rest => do
    let high ← hexDigit? a
    let low ← hexDigit? b
    let rest ← bytesOfHex? rest
    some (UInt8.ofNat (16 * high + low) :: rest)

end Docbase.Text
