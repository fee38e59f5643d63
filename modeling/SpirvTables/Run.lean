import SpirvTables.Refresh
import SpirvTables.Store

/-!
A run regenerates the requested parts. All of them are computed before the first file is written,
so that a run that fails leaves its store alone, unless the store itself refuses a write.
-/

namespace SpirvTables

/-- What to regenerate, and in which files. A mode that is absent is off; an empty name or an empty
list regenerates what the file already defines. -/
structure Request where
  basePath : Option Path := none
  opsPath : Option Path := none
  newEnum : Option Text := none
  newOpcodes : Option (List Text) := none
  newOps : Option (List Text) := none
  category : Text := plainCategory
  deriving DecidableEq

structure SpecSource where
  grammar : Except Fault Grammar
  docs : Except Fault Docs

structure Report where
  written : List Path := []
  enums : Option NameSet := none
  opcodes : Option NameSet := none
  ops : Option NameSet := none
  deriving DecidableEq

structure Change where
  path : Path
  text : Text
  deriving DecidableEq

structure Plan where
  changes : List Change := []
  enums : Option NameSet := none
  opcodes : Option NameSet := none
  ops : Option NameSet := none
  deriving DecidableEq

namespace Request

def validate (r : Request) : Except Fault Unit := do
  if r.basePath.isNone then
    if r.newEnum.isSome then throw (.noTarget .enums)
    if r.newOpcodes.isSome then throw (.noTarget .opcodes)
  if r.opsPath.isNone && r.newOps.isSome then throw (.noTarget .ops)

def baseTarget? (r : Request) : Option Path :=
  if r.newEnum.isSome || r.newOpcodes.isSome then r.basePath else none

def opsTarget? (r : Request) : Option Path :=
  if r.newOps.isSome then r.opsPath else none

end Request

def accessible {α : Type} (p : Path) (result : Except Obstacle α) : Except Fault α :=
  result.mapError (.inaccessible p)

def requestedKinds (name : Text) : List Text := if name = [] then [] else [name]

def refreshBase (layout : Layout) (g : Grammar) (r : Request) (t : Text) :
    Except Fault (Text × Option NameSet × Option NameSet) := do
  let (t, enums) ← match r.newEnum with
    | none => pure (t, none)
    | some name => do
      let (t, names) ← refreshEnums layout g (requestedKinds name) t
      pure (t, some names)
  match r.newOpcodes with
  | none => return (t, enums, none)
  | some opnames =>
    let (t, names) ← refreshOpcodes layout g opnames t
    return (t, enums, some names)

section

variable {σ : Type} [Store σ]

def planBase (layout : Layout) (g : Grammar) (r : Request) (s : σ) : Except Fault Plan := do
  match r.baseTarget? with
  | none => return {}
  | some p =>
    let t ← accessible p (Store.read s p)
    let (text, enums, opcodes) ← refreshBase layout g r t
    return { changes := [{ path := p, text }], enums, opcodes }

def planOps (layout : Layout) (source : SpecSource) (g : Grammar) (r : Request) (s : σ)
    (plan : Plan) : Except Fault Plan := do
  match r.newOps, r.opsPath with
  | some opnames, some p =>
    let docs ← source.docs
    let t ← accessible p (Store.read s p)
    let (text, names) ← refreshOps layout g docs r.category opnames t
    return { plan with changes := plan.changes ++ [{ path := p, text }], ops := some names }
  | _, _ => return plan

def plan (layout : Layout) (source : SpecSource) (r : Request) (s : σ) : Except Fault Plan := do
  r.validate
  let g ← source.grammar
  planOps layout source g r s (← planBase layout g r s)

def writeAll (s : σ) : List Change → Except Fault Unit × σ
  | [] => (.ok (), s)
  | c :: cs =>
    match Store.write s c.path c.text with
    | .ok s => writeAll s cs
    | .error o => (.error (.inaccessible c.path o), s)

def run (layout : Layout) (source : SpecSource) (r : Request) (s : σ) : Except Fault Report × σ :=
  match plan layout source r s with
  | .error f => (.error f, s)
  | .ok p =>
    let (result, s) := writeAll s p.changes
    (result.map fun _ =>
      { written := p.changes.map (·.path), enums := p.enums, opcodes := p.opcodes, ops := p.ops }, s)

end

end SpirvTables
