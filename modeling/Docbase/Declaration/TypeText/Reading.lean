import Docbase.Declaration.Grammar.Whole

namespace Docbase.Declaration

def TypeText.ofText (text : String) : TypeText :=
  match Grammar.readText (·.type true) text with
  | .ok t => t
  | .error _ => .other [.word text]

def PathText.ofText (text : String) : Except Fault PathText :=
  Grammar.readText (Grammar.path · false) text

end Docbase.Declaration
