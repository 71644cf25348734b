import ChannelAdapter.Clock
import ChannelAdapter.Files
import ChannelAdapter.Loopback.Reply
import ChannelAdapter.Output
/-!
The surroundings of a program as a value: time, files and output, and what happens to them from
outside while the program writes its records.
-/

namespace ChannelAdapter

inductive World.Happening
  | cancel
  | grow (path : String) (data : ByteArray) (modified : Int)
  | replace (path : String) (data : ByteArray) (modified : Int)
  | remove (path : String)

structure World where
  clock : Clock
  files : Files
  records : Array String
  /-- What happens once so many records have been written. -/
  script : List (Nat × World.Happening)
  ids : Loopback.Ids

namespace World

def start (files : Files) (cancelAt : Option Nat) : World :=
  ⟨.start cancelAt, files, #[], [], ⟨0⟩⟩

/-- Changes the file that a path leads to, if it can lead to one. -/
def onFile (w : World) (path : String) (change : Files → List String → Files) : World :=
  match w.files.target path with
  | .ok place => { w with files := change w.files place }
  | .error _ => w

def happen (w : World) : Happening → World
  | .cancel => { w with clock := w.clock.cancel }
  | .grow path data modified =>
      w.onFile path fun f place =>
        let old := match f.entry? place with
          | some (.file old _) => old
          | _ => .empty
        f.put place (.file (old ++ data) modified)
  | .replace path data modified => w.onFile path fun f place => f.put place (.file data modified)
  | .remove path => w.onFile path Files.remove

def write (w : World) (record : String) : World :=
  let w := { w with records := w.records.push record }
  let due := w.script.filter (·.1 == w.records.size)
  due.foldl (fun w (_, h) => w.happen h) w

abbrev Sim := StateM World

instance : MonadClock Sim where
  isCancelled := return (← get).clock.isCancelled
  sleep ms := modify fun w => { w with clock := w.clock.sleep ms }

instance : MonadOutput Sim where
  put record := do
    modify (·.write record)
    return .ok ()

instance : MonadFiles Sim where
  read path := return (← get).files.read path
  modified path := return (← get).files.modified path
  pathExists path := return (← get).files.pathExists path
  append path data := do
    match (← get).files.append path data with
    | .error e => return .error e
    | .ok files => do
        modify fun w => { w with files }
        return .ok ()

instance (priority := low) : MonadStateOf Loopback.Ids Sim where
  get := return (← get).ids
  set ids := modify fun w => { w with ids }
  modifyGet f := modifyGet fun w => ((f w.ids).1, { w with ids := (f w.ids).2 })

end World

end ChannelAdapter
