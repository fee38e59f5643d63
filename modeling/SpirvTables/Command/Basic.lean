import SpirvTables.Grammar.Reader
import SpirvTables.Run
import SpirvTables.Store
import SpirvTables.Text.Basic

namespace SpirvTables

inductive Arity
  | flag : Arity
  | one : Arity
  | upToOne : Arity
  | many : Arity
  deriving DecidableEq

structure Switch where
  name : Text
  arity : Arity
  deriving DecidableEq

structure Args where
  options : List (Text × List Text) := []
  operands : List Text := []
  subcommand : Option (Text × List Text) := none
  deriving DecidableEq

structure OpenArgs where
  args : Args := {}
  current : Option (Switch × List Text) := none
  deriving DecidableEq

namespace OpenArgs

def close (o : OpenArgs) : Option Args :=
  match o.current with
  | none => some o.args
  | some (s, values) =>
    if s.arity = .one ∧ values = [] then none
    else some { o.args with options := o.args.options ++ [(s.name, values)] }

def take (o : OpenArgs) (a : Text) : Option OpenArgs :=
  match o.current with
  | none => some { o with args := { o.args with operands := o.args.operands ++ [a] } }
  | some (s, values) =>
    let o := { o with current := some (s, values ++ [a]) }
    if s.arity = .many then some o else do return { args := ← o.close }

end OpenArgs

namespace Args

def withOption (switches : List Switch) (args : Args) (a : Text) : Option OpenArgs := do
  let name := a.takeWhile (· ≠ '=')
  let s ← switches.find? (·.name = name)
  match a.dropWhile (· ≠ '='), s.arity with
  | [], .flag => return { args := { args with options := args.options ++ [(name, [])] } }
  | [], _ => return { args, current := some (s, []) }
  | _, .flag => none
  | _ :: value, _ => return { args := { args with options := args.options ++ [(name, [value])] } }

/-- Two dashes alone make operands of all that follows. -/
def read (switches : List Switch) (subcommands : List Text) (o : OpenArgs) :
    List Text → Option Args
  | [] => o.close
  | a :: as =>
    if o.current.isNone && subcommands.contains a then
      some { o.args with subcommand := some (a, as) }
    else
      match a with
      | ['-', '-'] => do
        let args ← o.close
        return { args with operands := args.operands ++ as }
      | '-' :: '-' :: name => do read switches subcommands (← (← o.close).withOption switches name) as
      | '-' :: _ :: _ => none
      | a => do read switches subcommands (← o.take a) as

def ofList? (switches : List Switch) (subcommands : List Text) (as : List Text) : Option Args :=
  read switches subcommands {} as

def uses (args : Args) (name : Text) : List (List Text) :=
  (args.options.filter (·.1 = name)).map (·.2)

def flag? (args : Args) (name : Text) : Option Bool :=
  match args.uses name with
  | [] => some false
  | [_] => some true
  | _ => none

def value? (args : Args) (name : Text) : Option (Option Text) :=
  match args.uses name with
  | [] => some none
  | [values] => some (some (values.headD []))
  | _ => none

def values (args : Args) (name : Text) : Option (List Text) :=
  match args.uses name with
  | [] => none
  | uses => some uses.flatten

def path? (args : Args) (name : Text) : Option (Option Text) :=
  match args.value? name with
  | some (some []) => none
  | v => v

end Args

inductive Ending
  | success : Ending
  | failure : Text → Ending
  | usage : Ending
  deriving DecidableEq

def Ending.exitCode : Ending → Nat
  | success => 0
  | failure _ => 1
  | usage => 2

structure Outcome where
  ending : Ending
  printed : Text := []
  disk : Disk
  deriving DecidableEq

namespace Outcome

def success (disk : Disk) (printed : Text) : Outcome := { ending := .success, printed, disk }

def failure (disk : Disk) (message : Text) : Outcome := { ending := .failure message, disk }

def usage (disk : Disk) : Outcome := { ending := .usage, disk }

end Outcome

structure SpecFiles where
  grammar : Path
  docs : Option Path := none
  deriving DecidableEq

def SpecFiles.source (files : SpecFiles) (disk : Disk) : SpecSource where
  grammar := do
    let t ← accessible files.grammar (disk.read files.grammar)
    (Grammar.ofText t).mapError .malformed
  docs := do
    match files.docs with
    | none => return {}
    | some p =>
      let t ← accessible p (disk.read p)
      (Docs.ofText t).mapError .malformed

end SpirvTables
