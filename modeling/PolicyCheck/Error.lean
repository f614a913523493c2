import PolicyCheck.Definition.Basic
import PolicyCheck.Json.Path

/-!
# Errors

Everything that can go wrong, by its cause. `Error.message` is the text that a user reads, and
`Error.isUserError` tells mistakes in the user's input from failures of the surroundings.
-/

namespace PolicyCheck

inductive IoError where
  | notFound
  | permissionDenied
  | alreadyExists
  | notDirectory
  | isDirectory
  | nameTooLong
  | unusableName
  | notUtf8
  | other (text : String)
deriving DecidableEq, Repr

namespace IoError

def message : IoError → String
  | .notFound => "No such file or directory (os error 2)"
  | .permissionDenied => "Permission denied (os error 13)"
  | .alreadyExists => "File exists (os error 17)"
  | .notDirectory => "Not a directory (os error 20)"
  | .isDirectory => "Is a directory (os error 21)"
  | .nameTooLong => "File name too long (os error 36)"
  | .unusableName => "file name contained an unexpected NUL byte"
  | .notUtf8 => "stream did not contain valid UTF-8"
  | .other text => text

end IoError

inductive PolicyFault where
  | keyNotString (key : Definition) (path : Path)
  | taggedValue (tag : String) (path : Path)
  | badIncludePath (path : String)
  | databaseNeeded
  | other (text : String)
deriving Repr

namespace PolicyFault

def message : PolicyFault → String
  | .keyNotString key path =>
    s!"mapping key {key.shown} at '{path.dotted}' is not a string"
  | .taggedValue tag path => s!"no support for tagged value !{tag} at '{path.dotted}'"
  | .badIncludePath path => s!"bad include path {path}"
  | .databaseNeeded => "Datalog policies need --database and --schema"
  | .other text => text

end PolicyFault

inductive SchemaFault where
  | keyColumnMissing (key table : String)
  | unreadable (path : String) (cause : IoError)
  | unsupportedExtension (extension path : String)
  | databaseMissing (path : String)
  | other (text : String)
deriving Repr

namespace SchemaFault

def message : SchemaFault → String
  | .keyColumnMissing key table => s!"Key column '{key}' not found in table {table}"
  | .unreadable path cause => s!"Cannot read schema file {path}: {cause.message}"
  | .unsupportedExtension extension path =>
    s!"Unsupported schema file extension '{extension}' for {path}"
  | .databaseMissing path => s!"Unable to open database {path}"
  | .other text => text

end SchemaFault

inductive RowFault where
  | badRepository (cell : String)
  | badWidth (cells : Nat)
  | other (text : String)
deriving DecidableEq, Repr

namespace RowFault

def message : RowFault → String
  | .badRepository cell => s!"repository id '{cell}' is not an integer"
  | .badWidth cells => s!"expected 2 or 3 columns, got {cells}"
  | .other text => text

end RowFault

inductive Format where
  | json
  | yaml
  | toml
deriving DecidableEq, Repr

inductive Error where
  | interpreter (command stderr : String)
  | invalidPolicy (fault : PolicyFault)
  | notCompiled (id : String)
  | unsupportedColumnType (table column type : String)
  | notEvaluated
  | malformedResult (fault : RowFault)
  | schema (fault : SchemaFault)
  | io (cause : IoError)
  | parse (format : Format)
deriving Repr

namespace Error

def message : Error → String
  | .interpreter command stderr => s!"Interpreter error running `{command}`: {stderr}"
  | .invalidPolicy fault => s!"Invalid policy: {fault.message}"
  | .notCompiled id => s!"Policy not compiled: {id}"
  | .unsupportedColumnType table column type =>
    s!"Unsupported column type '{type}' for {table}.{column}"
  | .notEvaluated => "Policy results requested before evaluation"
  | .malformedResult fault => s!"Malformed result row: {fault.message}"
  | .schema fault => s!"Schema error: {fault.message}"
  | .io cause => s!"I/O error: {cause.message}"
  | .parse .json => "JSON error: malformed text"
  | .parse .yaml => "YAML error: malformed text"
  | .parse .toml => "TOML error: malformed text"

def isUserError : Error → Bool
  | .invalidPolicy _ | .unsupportedColumnType .. | .schema _ | .parse _ => true
  | _ => false

end Error

end PolicyCheck
