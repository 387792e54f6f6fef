import Specimen.CommandLine.Command

/-!
# The program

Everything that the program decides is decided by `Command.ofArguments` and `Command.run`. Here the
arguments, the environment and the files of the system are handed to them, and what they make is
written.
-/

namespace Specimen.Main

/-- The cause for which the system does not read or write a file. -/
def fileError : IO.Error → FileError
  | .noFileOrDirectory .. => .notFound
  | .inappropriateType _ code _ => if code = 21 then .isAFolder else .notAFolder
  | e => .other e.toString

/-- The bytes of the model file of a command, or why they cannot be read. A file that is not needed
is not read. -/
def readModelFile (options : ModelOptions) : IO (Except FileError ByteArray) :=
  match options.file with
  | none => return .error .notFound
  | some path =>
    if (FileFormat.ofPath? path).isNone then return .error .notFound
    else
      try return .ok (← IO.FS.readBinFile path)
      catch e => return .error (fileError e)

/-- The key of bytes, four to a word. -/
def keyOfBytes (bytes : ByteArray) : Vector UInt32 8 :=
  Vector.ofFn fun i =>
    (List.range 4).foldr (fun k word => (word <<< 8) ||| (bytes[4 * i.val + k]?.getD 0).toUInt32) 0

/-- Writes what a command makes. -/
def deliver (product : Product) : IO (Except RunError Unit) := do
  match product.path with
  | none =>
    (← IO.getStdout).putStr product.text
    return .ok ()
  | some path =>
    try
      IO.FS.writeFile path product.text
      return .ok ()
    catch e => return .error (.createOutput path (fileError e))

/-- Runs a command and gives the exit code. -/
def runCommand (command : Command) : IO UInt32 := do
  let contents ← readModelFile command.modelOptions
  let key := keyOfBytes (← IO.getRandomBytes 32)
  let result ← match command.run (fun _ => contents) key with
    | .ok product => deliver product
    | .error e => pure (.error e)
  match result with
  | .ok () => return 0
  | .error e =>
    IO.eprint e.line
    return e.exitCode.toUInt32

/-- Runs the command that the arguments give and gives the exit code. -/
def run (args : List String) : IO UInt32 := do
  let volume ← IO.getEnv Command.volumeVariable
  let seed ← IO.getEnv Command.seedVariable
  let environment (name : String) : Option String :=
    if name == Command.volumeVariable then volume
    else if name == Command.seedVariable then seed
    else none
  match Command.ofArguments environment args with
  | .ok command => runCommand command
  | .error e =>
    IO.eprintln e.message
    return e.exitCode.toUInt32

end Specimen.Main

def main (args : List String) : IO UInt32 :=
  Specimen.Main.run args
