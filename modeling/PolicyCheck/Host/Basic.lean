import PolicyCheck.Host.FileTree

/-!
# The host

What a run finds around it and leaves behind: the file system, the working directory, the directory
for temporary files, and the programs that may be started. What a started program does is not known;
it is a `Behaviour`, a function of the start and of how many came before. An `Action` uses the host
and may fail; what it has done by then stays done.
-/

namespace PolicyCheck

structure Start where
  program : FilePath
  arguments : List String
  directory : Place
  files : FileTree
deriving Repr, Inhabited

inductive Ending where
  | refused (cause : IoError)
  | exited (status : Nat) (stderr : Text.Octets) (files : FileTree)
deriving Repr, Inhabited

/-- What programs do, by the number of starts before. -/
abbrev Behaviour := Nat → Start → Ending

/-- The part of the name of a temporary entry that is made up: six letters or digits. -/
structure Draw where
  text : String
  six : text.length = 6
  alphanumeric : ∀ c ∈ text.toList, c.isAlphanum = true

namespace Draw

theorem isAlphanum_digitChar : ∀ d < 10, (Nat.digitChar d).isAlphanum = true := by decide

def ofNumber (n : Nat) : Draw where
  text := .ofList ([100000, 10000, 1000, 100, 10, 1].map fun m => (n / m % 10).digitChar)
  six := by rw [String.length_ofList, List.length_map]; rfl
  alphanumeric := by
    rw [String.toList_ofList]
    exact List.forall_mem_map.2 fun m _ => isAlphanum_digitChar _ (Nat.mod_lt _ (by decide))

end Draw

/-- The host of a run. What is drawn for the names of temporary entries is given beforehand, and is used
up one draw after the other. -/
structure Host where
  files : FileTree := {}
  directory : Place := []
  temporary : Place := ["tmp"]
  searchPath : List FilePath := []
  interpreterVariable? : Option String := none
  behaviour : Behaviour := fun _ _ => .refused .notFound
  draws : Nat → Draw := Draw.ofNumber
  /-- How many of the draws have been used. -/
  drawn : Nat := 0
  starts : List Start := []
  output : String := ""
  complaints : String := ""

instance : Inhabited Host := ⟨{}⟩

abbrev Action (ε α : Type) := ExceptT ε (StateM Host) α

namespace Action

variable {ε ε' α : Type}

def mapError (f : ε → ε') (a : Action ε α) : Action ε' α := ExceptT.adapt f a

/-- The step as one that never fails and gives the error as its result. -/
def attempt (a : Action ε α) : Action ε' (Except ε α) :=
  ExceptT.mk do return .ok (← a.run)

def ofExcept (result : Except ε α) : Action ε α := ExceptT.mk (pure result)

def ask (f : Host → Except ε α) : Action ε α := do ofExcept (f (← get))

end Action

namespace Host

/-! ### Reading -/

def absolute (h : Host) (p : FilePath) : FilePath := (FilePath.ofNames h.directory).join p

/-- The absolute path. A relative path has none when the working directory is gone. -/
def resolve (h : Host) (p : FilePath) : Except IoError FilePath :=
  if p.isAbsolute || h.files.isDirectoryAt h.directory then .ok (h.absolute p) else .error .notFound

def readText (h : Host) (p : FilePath) : Except IoError String := do
  match Text.Utf8.decode? (← h.files.read h.directory p) with
  | some cs => return String.ofList cs
  | none => throw .notUtf8

def entry? (h : Host) (p : FilePath) : Option Entry :=
  (h.files.find h.directory p).toOption.map Prod.snd

def isFile (h : Host) (p : FilePath) : Bool :=
  match h.entry? p with
  | some (.file ..) => true
  | _ => false

def isDirectory (h : Host) (p : FilePath) : Bool := h.entry? p == some .directory

def list (h : Host) (p : FilePath) : Except IoError (List String) := h.files.list h.directory p

/-- The absolute path, by names alone, to where a path leads. -/
def canonical (h : Host) (p : FilePath) : Except IoError FilePath := do
  return .ofNames (← h.files.find h.directory p).1

/-! ### Changing files -/

def change (f : Host → Except IoError FileTree) : Action IoError Unit := do
  let files ← Action.ask f
  modify fun h => { h with files }

def write (p : FilePath) (text : String) : Action IoError Unit :=
  change fun h => h.files.write h.directory p (Text.Utf8.encode text.toList)

def makeDirectory (p : FilePath) : Action IoError Unit :=
  change fun h => h.files.makeDirectory h.directory p

def prune {ε : Type} (place : Place) : Action ε Unit :=
  modify fun h => { h with files := h.files.prune place }

/-! ### Writing to the standard streams -/

def print (text : String) : StateM Host Unit :=
  modify fun h => { h with output := h.output ++ text }

def complain (text : String) : StateM Host Unit :=
  modify fun h => { h with complaints := h.complaints ++ text }

/-! ### Starting programs -/

def checkProgram (h : Host) (directory : Place) (p : FilePath) : Except IoError Unit := do
  match ← h.files.find directory p with
  | (_, .file _ true) => return
  | _ => throw .permissionDenied

/-- The first program among candidates; failing that, one that may not be run is reported before one
that is missing. -/
def firstProgram (h : Host) (directory : Place) : List FilePath → Except IoError Unit
  | [] => .error .notFound
  | p :: ps =>
    match h.checkProgram directory p, h.firstProgram directory ps with
    | .ok (), _ => .ok ()
    | _, .ok () => .ok ()
    | .error .permissionDenied, _ => .error .permissionDenied
    | _, .error cause => .error cause

/-- Checks that a name leads to a program: one with a slash from the working directory of the program,
any other through the search path. -/
def resolveProgram (h : Host) (directory : Place) (p : FilePath) : Except IoError Unit :=
  if FilePath.slash ∈ p.text.toList then h.checkProgram directory p
  else if p.text.isEmpty then .error .notFound
  else h.firstProgram directory (h.searchPath.map fun dir => dir.join p)

/-- Starts a program, waits for its end and gives its exit status and what it wrote to its standard
error. -/
def start (program : FilePath) (arguments : List String) (directory : Place) :
    Action IoError (Nat × Text.Octets) := do
  let h ← get
  if (program.text :: arguments).any fun text => '\x00' ∈ text.toList then
    throw (.other "nul byte found in provided data")
  Action.ofExcept (h.resolveProgram directory program)
  let started : Start := { program, arguments, directory, files := h.files }
  set { h with starts := h.starts ++ [started] }
  match h.behaviour h.starts.length started with
  | .refused cause => throw cause
  | .exited status stderr files =>
    modify fun h => { h with files }
    return (status, stderr)

end Host

end PolicyCheck
