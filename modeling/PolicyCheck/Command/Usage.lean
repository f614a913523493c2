/-!
# Why a command line cannot be run

A command line may ask for help instead of a command, or it may be at fault. The first fault in the
order of the words counts.
-/

namespace PolicyCheck.Command

inductive Usage where
  | help
  | version
  | empty
  | commandMissing
  | commandUnknown
  | unexpectedWord
  | incomplete
  | valueMissing
  | valueUnreadable
  | repeated
  | valueUnneeded
deriving DecidableEq, Repr

namespace Usage

/-- Whether the words ask for information, which is no fault. -/
def isRequest : Usage → Bool
  | .help | .version => true
  | _ => false

def programVersion : String := "0.5.0"

def message : Usage → String
  | .help => "usage: attest-policy [-v] [-l FILE] datalog|validate|check ..."
  | .version => "attest-policy " ++ programVersion
  | .empty | .commandMissing => "error: a command is needed: datalog, validate or check"
  | .commandUnknown => "error: unknown command"
  | .unexpectedWord => "error: unexpected argument"
  | .incomplete => "error: a required argument is missing"
  | .valueMissing => "error: a value is missing or not among those allowed"
  | .valueUnreadable => "error: a value cannot be read"
  | .repeated => "error: an argument cannot be used more than once"
  | .valueUnneeded => "error: an argument takes no value"

end Usage

end PolicyCheck.Command
