import QosControl.Manager

/-! # The command line

The commands of the daemon and their options. Arguments are read from left to right:
no option is given twice, its value follows an equals sign or is the next argument,
and the limit unit may be given before or after the command. A run reads files,
prints the commands that are sent, and may save the applied tree.
-/
namespace QosControl
open Json

inductive Invocation where
  /-- Checks a tree. -/
  | check (config : String)
  /-- Prints the commands from one tree to another. -/
  | diff (old new : String) (membership : Option String)
  /-- Applies a tree against the saved state. -/
  | apply (config state : String)
  /-- Prints the commands of a LAG membership change. -/
  | bondChange (config oldMembership newMembership : String)
deriving DecidableEq, Repr

/-- What the arguments ask for. -/
inductive Request where
  | run (limits : Option LimitCapability) (invocation : Invocation)
  | version
  | help
  /-- The arguments make no sense. -/
  | misuse
deriving DecidableEq, Repr

namespace CommandLine

inductive Verb where
  | check
  | diff
  | apply
  | bondChange
deriving DecidableEq, Repr

namespace Verb

def all : List Verb := [.check, .diff, .apply, .bondChange]

def name : Verb → String
  | .check => "check"
  | .diff => "diff"
  | .apply => "apply"
  | .bondChange => "bond-change"

def options : Verb → List String
  | .check => ["config"]
  | .diff => ["old", "new", "membership"]
  | .apply => ["config", "state-file"]
  | .bondChange => ["config", "old-membership", "new-membership"]

def ofName? (s : String) : Option Verb := all.find? fun v => v.name = s

end Verb

def limitsOption : String := "limits"

abbrev Settings := List (String × String)

def setting? (s : Settings) (name : String) : Option String := (s.find? fun p => p.1 = name).map (·.2)

/-- How a word on the command line reads. -/
inductive Word where
  | helpFlag
  | versionFlag
  /-- An option with its value. -/
  | setting (name value : String)
  /-- An option whose value is the next argument. -/
  | option (name : String)
  | separator
  | plain (s : String)

def Word.ofText (s : String) : Word :=
  match s.toList with
  | ['-', '-'] => .separator
  | '-' :: '-' :: cs =>
    let name := String.ofList (cs.takeWhile (· ≠ '='))
    match cs.dropWhile (· ≠ '=') with
    | [] => if name = "help" then .helpFlag else if name = "version" then .versionFlag else .option name
    | _ :: value => .setting name (String.ofList value)
  | '-' :: 'h' :: _ => .helpFlag
  | '-' :: 'V' :: _ => .versionFlag
  | '-' :: c :: _ => .option (String.ofList [c])
  | _ => .plain s

/-- The words of the arguments. An option without a value stays by itself. -/
def words : List String → List Word
  | [] => []
  | [a] => [Word.ofText a]
  | a :: b :: as =>
    match Word.ofText a, Word.ofText b with
    | .option name, .plain value => .setting name value :: words as
    | w, _ => w :: words (b :: as)

/-- Whether an option takes a value: units are named, and paths are not empty. -/
def accepts (name value : String) : Bool :=
  if name = limitsOption then (LimitCapability.ofText? value).isSome else value ≠ ""

/-- Adds an option that is known, not yet given and has a good value. -/
def addSetting (known : List String) (s : Settings) (name value : String) : Option Settings :=
  if known.contains name ∧ (setting? s name).isNone ∧ accepts name value then some (s ++ [(name, value)])
  else none

/-- What the settings of a command ask for; required options may not be missing. -/
def invocation? (verb : Verb) (s : Settings) : Option Invocation := do
  match verb with
  | .check => return .check (← setting? s "config")
  | .diff => return .diff (← setting? s "old") (← setting? s "new") (setting? s "membership")
  | .apply => return .apply (← setting? s "config") (← setting? s "state-file")
  | .bondChange =>
    return .bondChange (← setting? s "config") (← setting? s "old-membership")
      (← setting? s "new-membership")

def limitsOf? (s : Settings) : Option LimitCapability :=
  (setting? s limitsOption).bind LimitCapability.ofText?

/-- Reads the words after a command. The unit given here wins over one before it. -/
def readOptions (verb : Verb) (limits : Option LimitCapability) (s : Settings) : List Word → Request
  | [] | [.separator] =>
    match invocation? verb s with
    | some i => .run ((limitsOf? s).or limits) i
    | none => .misuse
  | .setting name value :: ws =>
    match addSetting (limitsOption :: verb.options) s name value with
    | some s => readOptions verb limits s ws
    | none => .misuse
  | .helpFlag :: _ => .help
  | _ => .misuse

/-- The command that asks for help, on the program or on one of its commands. -/
def helpCommand : String := "help"

/-- What a request for help names: nothing, or one command. -/
def namesHelpTopic : List Word → Bool
  | [] => true
  | [.plain name] => name = helpCommand || (Verb.ofName? name).isSome
  | _ => false

/-- Reads the words up to a command. -/
def readArguments (s : Settings) : List Word → Request
  | .setting name value :: ws =>
    match addSetting [limitsOption] s name value with
    | some s => readArguments s ws
    | none => .misuse
  | .helpFlag :: _ => .help
  | .versionFlag :: _ => .version
  | .plain name :: ws =>
    match Verb.ofName? name with
    | some verb => readOptions verb (limitsOf? s) [] ws
    | none => if name = helpCommand && namesHelpTopic ws then .help else .misuse
  | _ => .misuse

end CommandLine

def Request.ofArguments (args : List String) : Request := CommandLine.readArguments [] (CommandLine.words args)

structure RunResult where
  exitCode : Nat
  output : List String
  /-- The path and the new content of the saved state. -/
  saved : Option (String × String)
deriving DecidableEq, Repr

namespace RunResult

def success (output : List String) : RunResult := ⟨0, output, none⟩

def failure (output : List String) : RunResult := ⟨1, output, none⟩

end RunResult

namespace Invocation

/-- The content of a file that has to be there. -/
def readText (files : String → StateFile) (path : String) : Outcome String :=
  match files path with
  | .text s => .ok s
  | _ => .error (.io path "cannot be read")

def readTree (files : String → StateFile) (path : String) : Outcome Value := do
  match Value.ofText? (← readText files path) with
  | some v => return v
  | none => throw (.json path "malformed")

def readMembership (files : String → StateFile) (path : String) : Outcome Membership := do
  Membership.ofText (← readText files path)

/-- The lines that a delivered stream prints. -/
def printed (p : Plan) : List String := p.commands.map Command.line

def preview (files : String → StateFile) (platform : LimitCapability) : Invocation → Outcome (List String)
  | .check config => do
    let s ← Snapshot.ofTree (← readTree files config) none
    s.check
    return []
  | .diff old new membership => do
    let members ← match membership with
      | some path => some <$> readMembership files path
      | none => pure none
    let a ← Snapshot.ofTree (← readTree files old) members
    let b ← Snapshot.ofTree (← readTree files new) members
    b.check
    return printed (Plan.between a b platform)
  | .bondChange config old new => do
    let tree ← readTree files config
    let a ← readMembership files old
    let b ← readMembership files new
    return printed (← Plan.forMembershipChange tree a b platform)
  | .apply .. => return []

/-- Applies a tree against the saved state. What was sent stays printed when the state
cannot be saved. -/
def applyTree (files : String → StateFile) (platform : LimitCapability) (config state : String) :
    RunResult :=
  match (Manager.new platform).withState state (files state), readTree files config with
  | .ok m, .ok tree =>
    let (plan, _, after) :=
      m.apply tree ⟨[Dataplane.accepting], files state, files (StateFile.draftPath state)⟩
    let lines := after.dataplanes.flatMap fun d => d.received.map Command.line
    match plan, after.state with
    | .ok _, .text content => ⟨0, lines, some (state, content)⟩
    | .ok _, _ => RunResult.success lines
    | .error _, _ => RunResult.failure lines
  | _, _ => RunResult.failure []

def run (files : String → StateFile) (platform : LimitCapability) (i : Invocation) : RunResult :=
  match i with
  | .apply config state => applyTree files platform config state
  | i => match preview files platform i with
    | .ok lines => RunResult.success lines
    | .error _ => RunResult.failure []

def paths : Invocation → List String
  | .check config => [config]
  | .diff old new membership => [old, new] ++ membership.toList
  | .apply config state => [config, state]
  | .bondChange config old new => [config, old, new]

end Invocation

def versionLine : String := s!"{Manager.name} 0.1.0"

/-- Answers a request. `limits` is the environment's setting of the limit unit. -/
def Request.answer (files : String → StateFile) (limits : Option String) : Request → RunResult
  | .run given i => i.run files (given.getD (LimitCapability.ofSetting limits))
  | .version => RunResult.success [versionLine]
  | .help => RunResult.success []
  | .misuse => ⟨2, [], none⟩

end QosControl
