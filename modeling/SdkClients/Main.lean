import SdkClients.CommandLine.Run
import SdkClients.CommandLine.Usage
import SdkClients.Jq.Run

set_option autoImplicit false

/-!
The program: it looks at directories, reads files, and prints or writes the result that a
command makes of them. Its filters are those of the engine at hand.
-/

namespace SdkClients.Main

open CommandLine

/-- The error of the system as an error of a path. -/
def fileErrorOf (error : IO.Error) : FileError :=
  match error with
  | .noFileOrDirectory _ _ _ => .notFound
  | .alreadyExists _ _ _ => .alreadyThere
  | .inappropriateType _ code _ => if code = 21 then .isDirectory else .notDirectory
  | other => .other (toString other)

/-- The names in a directory and in those below it, down to a depth. A directory that
cannot be looked at counts as empty. -/
def survey : Nat → String → IO FileEntry
  | 0, _ => return .directory []
  | depth + 1, path => do
      try
        let found ← (← IO.FS.realPath path).readDir
        let entries ← found.toList.mapM fun entry => do
          if ← entry.path.isDir then
            return (entry.fileName, ← survey depth (path ++ "/" ++ entry.fileName))
          else return (entry.fileName, FileEntry.file none)
        return .directory entries
      catch _ => return .directory []

/-- No path that the system follows has more parts than this. -/
def deepest : Nat := 4096

/-- The names that a pattern can reach. -/
def surveyFor (pattern : String) : IO FileTree := do
  let here := FileTree.plainParts (← IO.currentDir).toString
  let parts := FileTree.plainParts pattern
  let upward := parts.countP (· == "..")
  let start := if Text.startsWith pattern '/' then [] else here.take (here.length - upward)
  let depth := if parts.contains "**" then deepest else parts.length + upward
  let entry ← survey depth ("/" ++ String.intercalate "/" start)
  return { root := FileEntry.put entry start (.directory []), here := here }

/-- The paths that an input stands for. -/
def expand (input : String) : IO (Except LoadError (List String)) := do
  let tree ← if Document.isPattern input then surveyFor input
    else pure { root := .directory [], here := [] }
  return Document.expandInput tree input

/-- The text of a file. -/
def read (path : String) : IO (Except FileError String) := do
  try
    match String.fromUTF8? (← IO.FS.readBinFile path) with
    | some text => return .ok text
    | none => return .error .notText
  catch error => return .error (fileErrorOf error)

/-- Makes the directories around the end of a path, then writes a file. -/
def write (path text : String) : IO (Option RunError) := do
  try
    if FileTree.around path ≠ "" then IO.FS.createDirAll (FileTree.around path)
  catch error => return some (.noDirectory (fileErrorOf error))
  try
    IO.FS.writeFile path text
    return none
  catch error => return some (.unwritten path (fileErrorOf error))

/-- The text that a command makes of the files that its inputs stand for. -/
def render (coloured : Bool) (command : Command) : IO (Except RunError String) := do
  let expanded ← command.route.inputs.mapM expand
  match expanded.mapM id with
  | .error error => return .error (.unloaded error)
  | .ok paths =>
      let files ← paths.flatten.mapM fun path => return (path, ← read path)
      return command.renderFiles coloured files

/-- Prints or writes a text. -/
def deliver (out : Option String) (text : String) : IO (Option RunError) := do
  match out with
  | some path => write path text
  | none => do
      IO.println text
      return none

/-- Whether the output is emphasized. -/
def isColoured : IO Bool := do
  return Text.wantsEmphasis (← IO.getEnv "CLICOLOR_FORCE") (← IO.getEnv "NO_COLOR")
    (← IO.getEnv "CLICOLOR") (← (← IO.getStdout).isTty)

/-- Runs a command; the result is the exit code. -/
def runCommand (command : Command) : IO UInt32 := do
  let failure ← match ← render (← isColoured) command with
    | .error error => pure (some error)
    | .ok text => deliver command.route.out text
  match failure with
  | none => return 0
  | some error => do
      IO.eprintln ("error: " ++ error.message)
      return 1

/-- Reads the words of the command line and runs the command. -/
def runWords (words : List String) : IO UInt32 := do
  match Command.read words with
  | .ok command => runCommand command
  | .error error =>
      if error.isRequest then
        IO.println error.message
        return 0
      else
        IO.eprintln ("error: " ++ error.message)
        return 2

end SdkClients.Main

/-- The program: its exit code is zero if the command was carried out. -/
def main (words : List String) : IO UInt32 := SdkClients.Main.runWords words
