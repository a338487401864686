import FilterSql.CommandLine

/-!
# The program

Reads the files and variables that a command line names, runs it, and prints.
-/

open FilterSql

def readText? (path : String) : IO (Option String) :=
  try
    return String.fromUTF8? (← IO.FS.readBinFile path)
  catch _ => return none

def readTexts (paths : List String) : IO Files := do
  let texts ← paths.mapM fun path => do return (path, ← readText? path)
  return fun path => (texts.lookup path).join

/-- the variables of the process that the program looks at -/
def processVariables : IO Environment := do
  let keys := [defaultPageSizeKey, maxPageSizeKey, maxFilterDepthKey, settingsFileKey]
  let values ← keys.mapM fun key => do return (← IO.getEnv key).map fun value => (key, value)
  return values.filterMap id

def main (arguments : List String) : IO UInt32 := do
  let environment ← processVariables
  let named := ((Command.ofArguments? arguments).map Command.files).getD []
  let known ← readTexts named
  let envFile := match Command.ofArguments? arguments with
    | some (.compile _ _ sources _) => sources.envFile
    | some (.settings sources) => sources.envFile
    | _ => none
  let settingsFile := (environment.loadFile known envFile).1.get? settingsFileKey
  let files ← readTexts (settingsFile.toList ++ named)
  let outcome := runProgram files environment arguments
  for event in outcome.events do
    if event.level = .info || event.level = .warn then
      IO.eprintln (event.level.name ++ " " ++ event.message)
  IO.print outcome.output
  match outcome.error with
  | some e => IO.eprintln ("Error: " ++ e.message)
  | none => if outcome.exit = 2 then IO.eprintln "error: bad command line"
  return outcome.exit.toUInt32
