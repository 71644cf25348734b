import ChannelAdapter.Loopback
import ChannelAdapter.Program
/-!
The program of the loopback channel. Records are read from standard input and written to standard
output; what goes wrong is told on standard error.
-/

namespace ChannelAdapter.Process

abbrev Real := StateT Loopback.Ids IO

/-- The longest sleep that the system is asked for at once, in milliseconds. -/
def longestSleep : Nat := 0x80000000

instance : MonadClock Real where
  isCancelled := return false
  sleep ms := do
    let ms := min Clock.longest ms
    for _ in List.range (ms / longestSleep) do
      IO.sleep (UInt32.ofNat longestSleep)
    IO.sleep (UInt32.ofNat (ms % longestSleep))

instance : MonadOutput Real where
  put line := do
    let out ← IO.getStdout
    match ← (out.putStr line *> out.flush).toBaseIO with
    | .ok () => return .ok ()
    | .error e => return .error (toString e)

/-- Why the system could not use a file. Error codes may come with their sign turned. -/
def fileError : IO.Error → FileError
  | .noFileOrDirectory .. => .notFound
  | .inappropriateType _ code _ =>
      if code = notDirectory || code = -notDirectory then .notDirectory else .isDirectory
  | .invalidArgument _ code reason =>
      if code = nameTooLong || code = -nameTooLong then .nameTooLong else .other reason
  | e => .other (toString e)
where
  notDirectory : UInt32 := 20
  nameTooLong : UInt32 := 36

def attempt {α : Type} (act : IO α) : IO (Except FileError α) := do
  return (← act.toBaseIO).mapError fileError

instance : MonadFiles Real where
  read path := attempt (IO.FS.readBinFile path)
  modified path := do
    match ← attempt (do return (← (← IO.FS.realPath path).metadata).modified) with
    | .ok time => return time.sec * 1000 + time.nsec.toNat / 1000000
    | .error _ => return 0
  pathExists path := do
    return (← attempt (IO.FS.Handle.mk path .read)).toBool
  append path data := attempt do
    let file ← IO.FS.Handle.mk path .append
    file.write data
    file.flush

partial def readPieces (input : IO.FS.Stream) {α : Type} (f : α → List UInt8 → Real α) (a : α) :
    Real (α × Input.Ending) := do
  match ← (input.read 8192).toBaseIO with
  | .error e => return (a, .failed (toString e))
  | .ok piece =>
      if piece.isEmpty then return (a, .closed)
      else readPieces input f (← f a piece.toList)

end ChannelAdapter.Process

open ChannelAdapter in
def main (args : List String) : IO UInt32 := do
  let env : Program.Environment :=
    ⟨← IO.getEnv "NEXUS_ADAPTER_VERBOSE", ← IO.getEnv RuntimeContext.variableName⟩
  let input ← IO.getStdin
  let program : Process.Real _ :=
    Program.run Loopback.adapter args env (Process.readPieces input)
  let (result, _) ← program.run ⟨0⟩
  if let .error failure := result then
    unless Program.exitCode result = 0 do
      IO.eprintln failure.message
  return Program.exitCode result
