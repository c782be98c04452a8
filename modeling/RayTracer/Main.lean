import RayTracer.CommandLine.Files
import RayTracer.Storage.Encoding

/-!
The program. It gathers what a command needs from the disk, runs the command and stores what it has
written.
-/

namespace RayTracer.CommandLine

/-- The folder with the directories stated that lie on the way to a path. A path that ends in a slash can
be resolved only where it leads to one. -/
def gatherDirectories (folder : Folder) (path : String) : IO Folder :=
  (FileName.stages path).foldlM
    (fun folder (stage : String) => do
      match ← (IO.FS.realPath stage).toBaseIO with
      | .ok _ => return folder.addDirectory stage
      | .error _ => return folder)
    folder

/-- The folder with the file of a path, if there is one. -/
def gatherFile (folder : Folder) (path : String) : IO Folder := do
  let folder ← gatherDirectories folder path
  match ← (IO.FS.readBinFile path).toBaseIO with
  | .ok content => return folder.put path (.bytes content.toList)
  | .error _ => return folder

/-- The folder as far as a command can see it. -/
def gather (command : Command) : IO Folder := do
  let folder ← command.outputs.foldlM gatherDirectories .empty
  let folder ← command.inputs.foldlM gatherFile folder
  (command.textures folder).foldlM gatherFile folder

/-- Store what lies under a path, and tell whether that was possible. -/
def store (folder : Folder) (path : String) : IO Bool := do
  match (folder.read? path).map (·.encode?) with
  | none => return true
  | some none => return false
  | some (some bytes) =>
    match ← (IO.FS.writeBinFile path ⟨bytes.toArray⟩).toBaseIO with
    | .ok _ => return true
    | .error _ => return false

/-- Store what lies under some paths in order, up to the first where that is impossible. -/
def storeAll (folder : Folder) : List String → IO (Option Failure)
  | [] => return none
  | path :: rest => do
    if ← store folder path then storeAll folder rest else return some (.writing path)

/-- The exit code of a report whose text has been printed. -/
def present (report : Report) : IO UInt32 := do
  IO.print report.output
  match report.error with
  | some line => IO.eprintln line
  | none => return report.exitCode
  return report.exitCode

end RayTracer.CommandLine

open RayTracer.CommandLine

def main (arguments : List String) : IO UInt32 := do
  match Request.ofArguments arguments with
  | .run command =>
    let (report, folder) := execute (← gather command) arguments
    match ← storeAll folder command.outputs with
    | some failure => present failure.report
    | none => present report
  | _ => present (execute .empty arguments).1
