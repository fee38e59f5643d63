import SpirvTables.Command.Basic
import SpirvTables.Layout
import SpirvTables.Store

namespace SpirvTables

structure Update where
  spec : SpecFiles
  request : Request
  layoutFile : Option Path
  dryRun : Bool
  deriving DecidableEq

namespace Update

def switches : List Switch :=
  [ ⟨"grammar", .one⟩, ⟨"docs", .one⟩, ⟨"base-td-path", .one⟩, ⟨"op-td-path", .one⟩,
    ⟨"new-enum", .upToOne⟩, ⟨"new-opcodes", .many⟩, ⟨"new-inst", .many⟩, ⟨"inst-category", .one⟩,
    ⟨"format-config", .one⟩, ⟨"dry-run", .flag⟩ ]

def ofArgs? (as : List Text) : Option Update := do
  let args ← Args.ofList? switches [] as
  guard args.operands.isEmpty
  return {
    spec := { grammar := ← (← args.path? "grammar"), docs := ← args.path? "docs" }
    request := {
      basePath := ← args.path? "base-td-path"
      opsPath := ← args.path? "op-td-path"
      newEnum := ← args.value? "new-enum"
      newOpcodes := args.values "new-opcodes"
      newOps := args.values "new-inst"
      category := (← args.value? "inst-category").getD plainCategory }
    layoutFile := ← args.path? "format-config"
    dryRun := ← args.flag? "dry-run" }

def layout (u : Update) (disk : Disk) : Except Text Layout :=
  match u.layoutFile with
  | none => return {}
  | some p =>
    match disk.read p with
    | .error _ => throw ("reading format config " ++ p)
    | .ok t =>
      match Layout.ofText? t with
      | none => throw ("parsing format config " ++ p)
      | some layout => return layout

def copy (disk : Disk) (m : Memory) (p : Path) : Except Text Memory :=
  match disk.read p with
  | .error _ => throw ("reading " ++ p)
  | .ok t => return m.withFile p t

def copies (r : Request) (disk : Disk) : Except Text Memory :=
  (r.baseTarget?.toList ++ r.opsTarget?.toList).foldlM (copy disk) {}

def preview (m : Memory) (p : Path) : Text := "==> " ++ p ++ " <==\n" ++ (m.get? p).getD []

def note (report : Report) : Text :=
  if report.ops.isSome then
    "Done. Note that this tool just generates a template; please read the spec and update " ++
      "traits, arguments, and results accordingly.\n"
  else []

/-- Runs on copies of the files, and prints what became of them. -/
def rehearse (layout : Layout) (source : SpecSource) (r : Request) (disk : Disk) : Outcome :=
  match copies r disk with
  | .error message => .failure disk message
  | .ok m =>
    match run layout source r m with
    | (.error f, _) => .failure disk f.message
    | (.ok report, m) => .success disk (report.written.flatMap (preview m) ++ note report)

def dry (layout : Layout) (u : Update) (disk : Disk) : Outcome :=
  rehearse layout (u.spec.source disk) u.request disk

def real (layout : Layout) (u : Update) (disk : Disk) : Outcome :=
  match run layout (u.spec.source disk) u.request disk with
  | (.error f, disk) => .failure disk f.message
  | (.ok report, disk) => .success disk (note report)

def execute (u : Update) (disk : Disk) : Outcome :=
  match u.layout disk with
  | .error message => .failure disk message
  | .ok layout => if u.dryRun then u.dry layout disk else u.real layout disk

def paths (u : Update) : List Path :=
  u.spec.grammar ::
    [u.spec.docs, u.request.basePath, u.request.opsPath, u.layoutFile].filterMap id

end Update

def update (as : List Text) (disk : Disk) : Outcome :=
  match Update.ofArgs? as with
  | none => .usage disk
  | some u => u.execute disk

end SpirvTables
