import DialectSql.CommandLine.Run

open DialectSql.CommandLine

def inputText (args : List String) : IO (Option String) := do
  match Request.ofArguments args with
  | .ok (.translate r) =>
    try
      return some (← IO.FS.readFile r.input)
    catch _ => return none
  | _ => return none

def main (args : List String) : IO UInt32 := do
  let text ← inputText args
  let outcome := run ⟨← IO.getEnv "RELATA_DIALECT", fun _ => text⟩ args
  IO.print outcome.output
  match outcome with
  | .failed failure => IO.eprintln ("Error: " ++ failure.message)
  | .misused => IO.eprint helpText
  | .printed _ => pure ()
  return outcome.exitCode.toUInt32
