import SpirvTables.Command.Inspect
import SpirvTables.Command.Update

namespace SpirvTables

def probe (l : Location) : IO (Option Node) := do
  try
    let bytes ← IO.FS.readBinFile (Text.toString (Disk.pathOf l))
    match String.fromUTF8? bytes with
    | some s => return some (.file s.toList)
    | none => return some .binary
  catch
    | .inappropriateType .. => return some .directory
    | .unsupportedOperation .. => return some .directory
    | _ => return none

def loadDisk (paths : List Path) : IO Disk :=
  (paths.flatMap Disk.places).foldlM (fun d l => do
    match ← probe l with
    | some n => return d.set l n
    | none => return d) {}

def saveDisk (before after : Disk) : IO Unit :=
  after.nodes.forM fun (l, n) => do
    match n with
    | .file t =>
      if before.node? l ≠ some n then
        IO.FS.writeFile (Text.toString (Disk.pathOf l)) (Text.toString t)
    | _ => pure ()

def perform (paths : List Path) (command : Disk → Outcome) : IO UInt32 := do
  let disk ← loadDisk paths
  let outcome := command disk
  saveDisk disk outcome.disk
  IO.print (Text.toString outcome.printed)
  match outcome.ending with
  | .failure message => IO.eprintln (Text.toString ("Error: " ++ message))
  | .usage => IO.eprintln "error: the arguments were not understood"
  | .success => pure ()
  return outcome.ending.exitCode.toUInt32

end SpirvTables

open SpirvTables in
def main (args : List String) : IO UInt32 :=
  match args.map String.toList with
  | ['i', 'n', 's', 'p', 'e', 'c', 't'] :: as =>
    perform (((Inspect.ofArgs? as).map Inspect.paths).getD []) (inspect as)
  | as => perform (((Update.ofArgs? as).map Update.paths).getD []) (update as)
