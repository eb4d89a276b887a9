import LooseSql.Cli.Run

/-!
# The program

Gathers what `LooseSql.Cli.run` needs to know, and writes what it answers.
-/

namespace LooseSql.Cli

/-- What stands at a path. Anything that is there and cannot be read counts as a directory. -/
def entryAt (path : String) : IO FileEntry := do
  try
    return .file (← IO.FS.readBinFile path)
  catch
    | .noFileOrDirectory .. => return .absent
    | _ => return .directory

/-- The path of the user's own file, if there is a place for it. -/
def userPath? : IO (Option String) := do
  match ← IO.getEnv "XDG_CONFIG_HOME" with
  | some directory => return some (directory ++ "/qail/lens.toml")
  | none => return (← IO.getEnv "HOME").map (· ++ "/.config/qail/lens.toml")

/-- Colours are forced, or the output is a terminal and nobody objects to them. -/
def wantsColour : IO Bool := do
  let set (name : String) : IO Bool := return ((← IO.getEnv name).any (· != "0"))
  if ← set "CLICOLOR_FORCE" then return true
  if (← IO.getEnv "NO_COLOR").isSome then return false
  if (← IO.getEnv "CLICOLOR") == some "0" then return false
  (← IO.getStdout).isTty

/-- What the program finds around it. The input is read only if it is needed. -/
def environment (words : List Text) : IO Environment := do
  let project ← entryAt "qail.toml"
  let user ← match ← userPath? with
    | some path => entryAt path
    | none => pure .absent
  let known : Environment :=
    { budgetVariable := (← IO.getEnv "QAIL_LENS_BUDGET_MS").map String.toList
      project
      user
      input := ByteArray.empty
      coloured := ← wantsColour }
  if needsInput known words then
    return { known with input := ← (← IO.getStdin).readBinToEnd }
  return known

end LooseSql.Cli

/-- Runs the program on a command line. -/
def main (arguments : List String) : IO UInt32 := do
  let words := arguments.map String.toList
  let outcome := LooseSql.Cli.run (← LooseSql.Cli.environment words) words
  (← IO.getStdout).putStr (String.ofList outcome.output)
  (← IO.getStderr).putStr (String.ofList outcome.errors)
  return UInt32.ofNat outcome.status
