import SceneGraph.Commands
import Std.Time.DateTime

/-!
# The program: commands over the files and the clock of the machine

Here, and nowhere else, commands meet real files, the clock and chance. `main` prints what the
response says and leaves with its exit code.
-/
namespace SceneGraph

def FileError.ofSystem : IO.Error → FileError
  | .noFileOrDirectory _ _ _ => .missing
  | e => .other (toString e)

instance : MonadFiles IO where
  readFile path := do
    try return .ok (← IO.FS.readFile path)
    catch e => return .error (.ofSystem e)
  writeFile path text := do
    try return .ok (← IO.FS.writeFile path text)
    catch e => return .error (.ofSystem e)

/-- Stamps of the present time that no one has seen before. -/
def freshStamps : IO Stamps := do
  let bytes ← IO.getRandomBytes 16
  let now ← Std.Time.Timestamp.now
  return .ofSeed (toString bytes.toList) now.toMillisecondsSinceUnixEpoch.toInt.toNat

end SceneGraph

def main (args : List String) : IO UInt32 := do
  let response ← SceneGraph.Response.ofArguments (m := IO) (← SceneGraph.freshStamps) args
  IO.print response.printed
  if let some error := response.error then
    for line in error.report do
      IO.eprintln line
  if response.exitCode = 2 then IO.eprint SceneGraph.Response.helpText
  return response.exitCode.toUInt32
