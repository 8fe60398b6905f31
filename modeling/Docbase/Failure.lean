import Docbase.Filter.Basic
import Docbase.Key
import Docbase.Language.Fault
import Docbase.Update
import Docbase.Value.Display

namespace Docbase

/-- A call that breaks the rules of the interface. -/
inductive Misuse where
  | pageNumber (n : UInt64)
  | pageSize (n : UInt64)
  | pageOffset
  | windowLimit (n : UInt64)
  | maintainedField (path : Path)
  | noIdentity (type : String)
  | stringRequired (op : Operator) (value : Value)

inductive WriteError where
  | duplicateKey (key collection : String)
  | identityChanged (key : String)
  | update (error : UpdateError)
  deriving DecidableEq

inductive Failure where
  | parse (text : String) (fault : Language.Fault)
  | unresolved (path : Path) (type : String)
  | invalidArgument (misuse : Misuse)
  | write (error : WriteError)
  | serialization (fault : ReadFault)

def Misuse.text : Misuse → String
  | pageNumber n => "page number must be at least 1, got " ++ toString n
  | pageSize n => "page size must be at least 1, got " ++ toString n
  | pageOffset => "page offset overflows"
  | windowLimit n => "page limit must be at least 1, got " ++ toString n
  | maintainedField path =>
    Text.quoted path.text ++ " is maintained by the repository and cannot be updated"
  | noIdentity type => type ++ " has no identity; insert it before replacing or deleting it"
  | stringRequired op value => op.name ++ " requires a string value, got " ++ value.display

def UpdateError.text : UpdateError → String
  | notADocument path segment =>
    "cannot traverse " ++ Text.quoted path ++ ": " ++ Text.quoted segment ++
      " is not an embedded document"
  | notNumeric path => "cannot increment non-numeric field " ++ Text.quoted path
  | indexOutOfRange path => "array index out of range in " ++ Text.quoted path
  | immutableIdentity => "the identity field is immutable"

def WriteError.text : WriteError → String
  | duplicateKey key collection => "duplicate key " ++ key ++ " in collection " ++ collection
  | identityChanged key => "replacement changes the identity of document " ++ key
  | update error => error.text

def ReadFault.text? : ReadFault → Option String
  | noIdentity value kind =>
    some ("cannot represent " ++ value.display ++ " as a " ++ kind.name ++ " identity")
  | malformed => none

def Failure.text? : Failure → Option String
  | parse text fault =>
    some ("Parse error at position " ++ toString fault.position ++ " in " ++ Text.quoted text ++
      ": " ++ fault.cause.text)
  | unresolved path type =>
    some ("Field " ++ Text.quoted path.text ++ " cannot be resolved on document " ++ type)
  | invalidArgument misuse => some ("Invalid argument: " ++ misuse.text)
  | write error => some ("Write error: " ++ error.text)
  | serialization fault => fault.text?.map ("Serialization error: " ++ ·)

end Docbase
