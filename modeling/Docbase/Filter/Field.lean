import Docbase.Filter.Basic

namespace Docbase.Path

variable (p : Path)

def eq (v : Value) : Filter := .comparison p .eq v

def ne (v : Value) : Filter := .comparison p .ne v

def gt (v : Value) : Filter := .comparison p .gt v

def gte (v : Value) : Filter := .comparison p .gte v

def lt (v : Value) : Filter := .comparison p .lt v

def lte (v : Value) : Filter := .comparison p .lte v

def anyOf (vs : List Value) : Filter := .comparison p .anyOf (.array vs)

def noneOf (vs : List Value) : Filter := .comparison p .noneOf (.array vs)

def isPresent : Filter := .present p true

def isAbsent : Filter := .present p false

def contains (s : String) : Filter := .comparison p .contains (.string s)

def startsWith (s : String) : Filter := .comparison p .startsWith (.string s)

def endsWith (s : String) : Filter := .comparison p .endsWith (.string s)

def hasAll (vs : List Value) : Filter := .comparison p .contains (.array vs)

def has (v : Value) : Filter := p.hasAll [v]

end Docbase.Path
