import DialectSql.CommandLine.Report
import DialectSql.CommandLine.Request
import DialectSql.Dialect.Document
import DialectSql.Json.Printer
import DialectSql.Json.Reader

namespace DialectSql.CommandLine

/-- What a run finds around it: the dialect it takes if none is named, and the texts of files. -/
structure Surroundings where
  dialect : Option String
  file : String → Option String

inductive Failure
  | unknownDialect (name : String)
  | unreadable (path : String)
  | invalidStatement
  | untranslatable (dialect : String) (cause : TranslateError)
deriving DecidableEq, Repr

def indented (s : String) : String :=
  "    " ++ String.join (s.toList.map fun c => if c = '\n' then "\n    " else c.toString)

def Failure.message : Failure → String
  | unknownDialect name =>
    "unknown dialect \x60" ++ name ++ "\x60, expected one of: " ++
    ", ".intercalate (Dialect.known.map (·.name))
  | unreadable path => "cannot read " ++ path
  | invalidStatement => "invalid statement JSON"
  | untranslatable dialect cause =>
    "cannot translate for " ++ dialect ++ "\n\nCaused by:\n" ++ indented cause.message

inductive Outcome
  | printed (text : String)
  | failed (failure : Failure)
  | misused
deriving DecidableEq, Repr

namespace Outcome

def exitCode : Outcome → UInt8
  | printed _ => 0
  | failed _ => 1
  | misused => 2

def output : Outcome → String
  | printed text => text
  | _ => ""

def ofExcept : Except Failure String → Outcome
  | .ok text => printed text
  | .error failure => failed failure

end Outcome

/-- A name that is given wins over the one around the run, and that over the generic dialect. -/
def resolveDialect (s : Surroundings) (given : Option String) : Except Failure Dialect :=
  let name := (given <|> s.dialect).getD Dialect.generic.name
  match Dialect.ofName? name with
  | some d => .ok d
  | none => .error (.unknownDialect name)

def statementLevels : Nat := 127

/-- The numbers of a statement file are rounded in steps. -/
def readStatement (text : String) : Except Failure Statement :=
  match Json.parseWith? Json.Reader.Numeral.stepwise text >>= Statement.ofJson? .listed statementLevels with
  | some s => .ok s
  | none => .error .invalidStatement

def readFile (s : Surroundings) (path : String) : Except Failure String :=
  match s.file path with
  | some text => .ok text
  | none => .error (.unreadable path)

/-- The dialect is looked up before the file is read. -/
def runTranslate (s : Surroundings) (r : TranslateRequest) : Except Failure String := do
  let d ← resolveDialect s r.dialect
  let text ← readFile s r.input
  let statement ← readStatement text
  let lock := { LockOptions.ofMode r.lockMode with followOnLocking := r.followOnLocking }
  match translateWithLock d statement lock with
  | .error e => .error (.untranslatable d.name e)
  | .ok t => return if r.json then t.toJson.pretty ++ "\n" else t.report

def runRequest (s : Surroundings) : Request → Except Failure String
  | .translate r => runTranslate s r
  | .dialects => .ok (String.join (Dialect.known.map fun d => d.name ++ "\n"))
  | .capabilities dialect =>
      do return (← resolveDialect s dialect).capabilities.toJson.pretty ++ "\n"

def programName : String := "relata"

def versionText : String := programName ++ " 0.1.0\n"

def helpText : String :=
  "Translate dialect-neutral statements into database SQL\n\nUsage: " ++ programName ++
    " [-v] translate -i FILE [-d DIALECT] [--lock-mode none|read|write]" ++
    " [--follow-on-locking true|false] [--json]\n" ++
    "       " ++ programName ++ " [-v] dialects\n" ++
    "       " ++ programName ++ " [-v] capabilities [-d DIALECT]\n"

def run (s : Surroundings) (args : List String) : Outcome :=
  match Request.ofArguments args with
  | .error .usage => .misused
  | .error .help => .printed helpText
  | .error .version => .printed versionText
  | .ok request => .ofExcept (runRequest s request)

end DialectSql.CommandLine
