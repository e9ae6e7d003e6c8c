import DavGateway.CommandLine

/-!
# The program

The program looks at the environment and at those parts of the disk that a command may touch, lets
the command work on this picture, and carries out on the disk what the command has changed in it.
-/

namespace DavGateway.Program

/-- The environment of the program. -/
def environment : IO Environment := do
  match ← (IO.FS.readBinFile "/proc/self/environ").toBaseIO with
  | .error _ => return []
  | .ok bytes =>
    let text := (String.fromUTF8? bytes).getD ""
    return (Text.fields '\x00' text.toList).filterMap fun entry =>
      (Text.cutAt? '=' entry).map fun (name, value) => (String.ofList name, String.ofList value)

/-- What the disk has at a path in a folder. -/
def look (path : DiskPath) : IO (Option DiskEntry) := do
  match ← (IO.FS.readBinFile path.text).toBaseIO with
  | .ok bytes => return some (.file bytes.data.toList 0)
  | .error (.inappropriateType ..) => return some .folder
  | .error _ => return none

/-- Puts into a picture of the disk what is on the way to the given paths. -/
def picture (places : List DiskPath) (known : Disk) : IO Disk := do
  let mut known := known
  for path in places.flatMap DiskPath.way do
    if known.isFolder path.dropLast then
      if let some entry ← look path then
        known := known.put path entry
  return known

/-- Makes the folders and files that a picture has and an earlier one has not. -/
def carryOut (before after : Disk) : IO Unit := do
  for (path, entry) in after.entries do
    unless before.entry? path = some entry do
      match entry with
      | .folder => IO.FS.createDir path.text
      | .file data _ => IO.FS.writeBinFile path.text ⟨data.toArray⟩

/-- Runs the program. -/
def run (arguments : List String) : IO Verdict := do
  let invocation := Invocation.ofArguments arguments
  let environment ← environment
  let here := DiskPath.ofText [] ((environment.lookup "PWD").getD "")
  let disk ← picture (here :: invocation.places {} here environment) {}
  let disk ← picture (invocation.places disk here environment) disk
  let (verdict, clusters) := invocation.perform here environment { disk := disk }
  carryOut disk clusters.disk
  return verdict

end DavGateway.Program

/-- Runs the program, prints what it says and answers its exit code. -/
def main (arguments : List String) : IO UInt32 := do
  let verdict ← DavGateway.Program.run arguments
  if verdict.exitCode = 0 then IO.println verdict.message
  else IO.eprintln verdict.message
  return verdict.exitCode
