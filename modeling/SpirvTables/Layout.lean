import SpirvTables.Json.Reader

namespace SpirvTables

structure Layout where
  lineBudget : Nat := 80
  listIndent : Nat := 6
  wrapWidth : Nat := 76
  wrapIndent : Nat := 4
  deriving DecidableEq

namespace Layout

def fieldNames : List Text := ["line_budget", "list_indent", "wrap_width", "wrap_indent"]

def size? : Json.Source → Option Nat
  | .number n => do (← n.json?).natBelow? UInt64.size
  | _ => none

/-- The entries of the four sizes. Any other entry is passed over, whatever its value. -/
def sizes? : List (List Nat × Json.Source) → Option (List (Text × Nat))
  | [] => some []
  | (name, v) :: fields => do
    let name ← Json.characters? name
    let rest ← sizes? fields
    if fieldNames.contains name then
      if rest.any (·.1 = name) then none else return (name, ← size? v) :: rest
    else return rest

def ofText? (t : Text) : Option Layout := do
  let given ← match ← Json.Source.ofText? t with
    | .object fields => sizes? fields
    | .array vs =>
      if vs.length ≤ fieldNames.length then (vs.mapM size?).map (fieldNames.zip ·) else none
    | _ => none
  let size (name : Text) (default : Nat) : Nat := (latest? name given).getD default
  let base : Layout := {}
  return {
    lineBudget := size "line_budget" base.lineBudget
    listIndent := size "list_indent" base.listIndent
    wrapWidth := size "wrap_width" base.wrapWidth
    wrapIndent := size "wrap_indent" base.wrapIndent }

end Layout

end SpirvTables
