import DialectSql.CommandLine.Switch
import DialectSql.Lock

namespace DialectSql.CommandLine

structure TranslateRequest where
  input : String
  dialect : Option String
  lockMode : LockMode
  followOnLocking : Option Bool
  json : Bool
deriving DecidableEq, Repr

inductive Request
  | translate (r : TranslateRequest)
  | dialects
  | capabilities (dialect : Option String)
deriving DecidableEq, Repr

namespace Request

def lockModes : List (String × LockMode) :=
  [("none", .none), ("read", .pessimisticRead), ("write", .pessimisticWrite)]

def truthValues : List (String × Bool) := [("true", true), ("false", false)]

def choice? {α : Type} (choices : List (String × α)) (v : String) : Option α := choices.lookup v

def isAmong {α : Type} (choices : List (String × α)) (v : String) : Bool :=
  (choice? choices v).isSome

def dialectSwitch : Switch := ⟨"dialect", some 'd', .value fun _ => true⟩

def globalSwitches : List Switch :=
  [⟨"verbose", some 'v', .flag⟩, ⟨"version", some 'V', .stop .version⟩, .help]

def translateSwitches : List Switch :=
  [⟨"input", some 'i', .value fun v => !v.isEmpty⟩, dialectSwitch,
    ⟨"lock-mode", none, .value (isAmong lockModes)⟩,
    ⟨"follow-on-locking", none, .value (isAmong truthValues)⟩, ⟨"json", none, .flag⟩, .help]

/-- All arguments of a subcommand are options. -/
def options (switches : List Switch) (args : List String) : Except Stop Given :=
  match Switch.scan switches args [] with
  | .error stop => .error stop
  | .ok (given, []) => .ok given
  | .ok _ => .error .usage

def translateRequest (given : Given) : Except Stop Request :=
  match given.lookup "input" with
  | none => .error .usage
  | some input =>
    .ok (.translate
      { input
        dialect := given.lookup "dialect"
        lockMode := ((given.lookup "lock-mode") >>= choice? lockModes).getD .none
        followOnLocking := (given.lookup "follow-on-locking") >>= choice? truthValues
        json := (given.lookup "json").isSome })

def subcommands : List String := ["translate", "dialects", "capabilities", "help"]

/-- Help is about the program or about one subcommand. -/
def helpRequest : List String → Stop
  | [] => .help
  | [name] => if subcommands.contains name then .help else .usage
  | _ => .usage

def subcommand (name : String) (args : List String) : Except Stop Request :=
  match name with
  | "translate" => options translateSwitches args >>= translateRequest
  | "dialects" => (options [.help] args).map fun _ => .dialects
  | "capabilities" =>
      (options [dialectSwitch, .help] args).map fun given => .capabilities (given.lookup "dialect")
  | "help" => .error (helpRequest args)
  | _ => .error .usage

/-- Reads the arguments of a command line; options of all subcommands come before its name. -/
def ofArguments (args : List String) : Except Stop Request :=
  match Switch.scan globalSwitches args [] with
  | .error stop => .error stop
  | .ok (_, name :: args) => subcommand name args
  | .ok (_, []) => .error .usage

end Request

end DialectSql.CommandLine
