import SpirvTables.EnumTable
import SpirvTables.Grammar.Reader
import SpirvTables.NameSet
import SpirvTables.OpRecord
import SpirvTables.Section

namespace SpirvTables

def knownKind (g : Grammar) (name : Text) : Except Fault OperandKind :=
  known (g.kind? name) (.unknownKind name)

def knownInstruction (g : Grammar) (opname : Text) : Except Fault Instruction :=
  known (g.instruction? opname) (.unknownInstruction opname)

def knownDoc (docs : Docs) (opname : Text) : Except Fault Text :=
  known (docs.get? opname) (.undocumented opname)

def refreshEnums (layout : Layout) (g : Grammar) (requested : List Text) (t : Text) :
    Except Fault (Text × NameSet) := do
  let found ← MarkedSection.ofText MarkedSection.enumMarker t
  let names := NameSet.union requested (definedKinds found.body)
  let kinds ← names.names.mapM (knownKind g)
  return (found.render (enumBody (kinds.filterMap (·.fragment? layout))), names)

def refreshOpcodes (layout : Layout) (g : Grammar) (requested : List Text) (t : Text) :
    Except Fault (Text × NameSet) := do
  let found ← MarkedSection.ofText MarkedSection.opcodeMarker t
  let names := NameSet.union requested (definedOpcodes found.body)
  let _ ← names.names.mapM (knownInstruction g)
  let instructions := g.instructions.filter (names.contains ·.opname)
  return (found.render (opcodeDefinitions layout instructions), names)

/-- What is kept of an op: of two records of it, the first. -/
def keptOf (kept : List Kept) (opname : Text) : Kept :=
  (kept.find? (·.opname = opname)).getD {}

def renderOp (layout : Layout) (g : Grammar) (docs : Docs) (category : Text) (kept : List Kept)
    (opname : Text) : Except Fault Text := do
  let i ← knownInstruction g opname
  let doc ← knownDoc docs opname
  i.render layout category (keptOf kept opname) doc

def refreshOps (layout : Layout) (g : Grammar) (docs : Docs) (category : Text)
    (requested : List Text) (t : Text) : Except Fault (Text × NameSet) := do
  let found ← BlockSection.ofText BlockSection.separator t
  let kept ← found.blocks.mapM Kept.ofBlock
  let names := NameSet.union requested (kept.map (·.opname))
  let records ← names.names.mapM (renderOp layout g docs category kept)
  return (found.render records, names)

end SpirvTables
