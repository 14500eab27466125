namespace DialectSql.CommandLine

/-- Why the reading of arguments ends early. -/
inductive Stop
  | usage
  | help
  | version
deriving DecidableEq, Repr

inductive SwitchKind
  | flag
  | value (accepts : String → Bool)
  | stop (s : Stop)

structure Switch where
  name : String
  letter : Option Char
  kind : SwitchKind

def Switch.help : Switch := ⟨"help", some 'h', .stop .help⟩

/-- The options that were given, with their values; that of a flag is empty. -/
abbrev Given := List (String × String)

namespace Switch

/-- An option is given once, with a value that it accepts. -/
def note (s : Switch) (v : String) (given : Given) : Except Stop Given :=
  if (given.lookup s.name).isSome then .error .usage
  else
    match s.kind with
    | .flag => .ok (given ++ [(s.name, v)])
    | .value accepts => if accepts v then .ok (given ++ [(s.name, v)]) else .error .usage
    | .stop stop => .error stop

/-- What an argument gives, and the option whose value is the next argument. -/
abbrev Reading := Except Stop (Given × Option Switch)

/-- A name, with or without a value behind an equals sign. -/
def readName (switches : List Switch) (cs : List Char) (given : Given) : Reading :=
  match switches.find? fun s => s.name.toList == cs.takeWhile (· != '=') with
  | none => .error .usage
  | some s =>
    match s.kind, cs.dropWhile (· != '=') with
    | .value _, [] => .ok (given, some s)
    | .value _, _ :: v => (s.note (String.ofList v) given).map fun given => (given, none)
    | _, [] => (s.note "" given).map fun given => (given, none)
    | _, _ => .error .usage

def withoutEquals : List Char → List Char
  | '=' :: cs => cs
  | cs => cs

/-- Letters of flags, the last of which may be that of an option with its value. -/
def readLetters (switches : List Switch) : List Char → Given → Reading
  | [], given => .ok (given, none)
  | c :: cs, given =>
    match switches.find? fun s => s.letter == some c with
    | none => .error .usage
    | some s =>
      match s.kind with
      | .value _ =>
        if cs.isEmpty then .ok (given, some s)
        else (s.note (String.ofList (withoutEquals cs)) given).map fun given => (given, none)
      | _ => (s.note "" given) >>= readLetters switches cs

def readArgument (switches : List Switch) (arg : String) (given : Given) : Option Reading :=
  match arg.toList with
  | '-' :: '-' :: cs => some (readName switches cs given)
  | '-' :: c :: cs => some (readLetters switches (c :: cs) given)
  | _ => none

def looksLikeSwitch (arg : String) : Bool :=
  match arg.toList with
  | '-' :: _ :: _ => true
  | _ => false

/-- The options before the first argument that is none, and the arguments from there on. -/
def scan (switches : List Switch) : List String → Given → Except Stop (Given × List String)
  | [], given => .ok (given, [])
  | arg :: rest, given =>
    if arg = "--" then if rest.isEmpty then .ok (given, []) else .error .usage
    else
      match readArgument switches arg given with
      | none => .ok (given, arg :: rest)
      | some (.error stop) => .error stop
      | some (.ok (given, none)) => scan switches rest given
      | some (.ok (given, some s)) =>
        match rest with
        | [] => .error .usage
        | v :: rest =>
          if looksLikeSwitch v then .error .usage
          else
            match s.note v given with
            | .error stop => .error stop
            | .ok given => scan switches rest given

end Switch

end DialectSql.CommandLine
