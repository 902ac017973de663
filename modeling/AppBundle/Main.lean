import AppBundle.Command.Line

/-!
The program. What stands at the paths of the inputs is read into a file system value, the work is
done on that, and the steps of writing a bundle are then performed one by one.
-/

namespace AppBundle

/-- Adds a directory with everything below it, if there is one at a path. -/
def readDirectory (files : FileSystem) (path : Path) : IO FileSystem := do
  try
    let root ← IO.FS.realPath path.shown
    let below ← root.walkDir
    below.toList.foldlM
      (fun read found => do
        let names := String.ofList (found.toString.toList.drop root.toString.length)
        if ← found.isDir then
          return (read.makeDirectories ⟨path.text ++ names⟩).1
        else
          return read.place ⟨path.text ++ names⟩ (← IO.FS.readBinFile found))
      (files.makeDirectories path).1
  catch _ =>
    return files

/-- Adds what stands at a path: a file with its content, or a directory with what is below it. -/
def readInput (files : FileSystem) (path : Path) : IO FileSystem := do
  try
    return files.place path (← IO.FS.readBinFile path.shown)
  catch _ =>
    readDirectory files path

def readInputs (files : FileSystem) (paths : List Path) : IO FileSystem :=
  paths.foldlM readInput files

/-- Performs an action, and gives a failure in its place where it does not succeed. -/
def attemptOr (failure : Failure) (action : IO Unit) : IO (Option Failure) := do
  try
    action
    return none
  catch _ =>
    return some failure

def Step.perform : Step → IO (Option Failure)
  | makeDirectory path =>
      attemptOr (.file path) do
        unless path.shown.isEmpty do
          IO.FS.createDirAll path.shown
  | copy coordinate source target =>
      attemptOr (.installation coordinate source target) do
        discard (IO.FS.readBinFile source.shown)
        IO.FS.writeBinFile target.shown ByteArray.empty
        IO.FS.writeBinFile target.shown (← IO.FS.readBinFile source.shown)
  | checksum path => do
      match ← attemptOr (.file path) (discard (IO.FS.readBinFile path.shown)) with
      | some failure => return some failure
      | none =>
          attemptOr (.file (checksumPath path)) do
            let content ← IO.FS.readBinFile path.shown
            IO.FS.writeFile (checksumPath path).shown (Digest.sha1 content)
  | write path content => attemptOr (.file path) (IO.FS.writeBinFile path.shown content)
  | refuse failure => return some failure

def Step.performAll : List Step → IO (Option Failure)
  | [] => return none
  | step :: rest => do
      match ← step.perform with
      | some failure => return some failure
      | none => performAll rest

def Packager.perform (packager : Packager) (output : Path) (files : FileSystem) :
    IO (Except Failure Report) := do
  match packager.assemble (← readInputs files packager.inputs) with
  | .error failure => return .error failure
  | .ok application =>
      match ← Step.performAll (packager.steps output application) with
      | some failure => return .error failure
      | none => return .ok (packager.report output application)

def PackageRequest.perform (request : PackageRequest) (home : Path) :
    IO (Except Failure Report) := do
  let files ← readInputs .empty [request.configurationPath, request.graph]
  match request.packager home files with
  | .error failure => return .error failure
  | .ok packager => packager.perform request.output files

/-- Prints what a run printed and gives its exit code. -/
def Exit.finish (exit : Exit) : IO UInt32 := do
  IO.print exit.printed
  return exit.code.toUInt32

def complain {α : Type} (result : Except Failure α) : IO Unit := do
  match result with
  | .ok _ => return
  | .error failure => IO.eprintln failure.message

end AppBundle

open AppBundle in
/-- Runs a command line. -/
def main (words : List String) : IO UInt32 := do
  match Command.ofWords (words.map RawText.ofText) with
  | .error stop => stop.exit.finish
  | .ok (.package request) => do
      let home := (← IO.getEnv "HOME").getD "."
      let result ← request.perform ⟨home⟩
      complain result
      (Exit.ofResult Report.toJson (result >>= Report.printable)).finish
  | .ok (.show descriptor) => do
      let result := showDescriptor (← readInputs .empty [descriptor]) descriptor
      complain result
      (Exit.ofResult Summary.toJson result).finish
