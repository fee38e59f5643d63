import SpirvTables.Fault

namespace SpirvTables

class Store (σ : Type) where
  read : σ → Path → Except Obstacle Text
  write : σ → Path → Text → Except Obstacle σ

def atPath? {α : Type} (p : Path) (entries : List (Path × α)) : Option α :=
  (entries.find? (·.1.key = p.key)).map (·.2)

/-- Changes the entry of a path, or adds one; an entry keeps the spelling it was added with. -/
def setPath {α : Type} (p : Path) (change : Option α → α) : List (Path × α) → List (Path × α)
  | [] => [(p, change none)]
  | (q, a) :: rest =>
    if q.key = p.key then (q, change (some a)) :: rest else (q, a) :: setPath p change rest

theorem atPath?_setPath {α : Type} (p q : Path) (change : Option α → α)
    (entries : List (Path × α)) :
    atPath? q (setPath p change entries) =
      if p.key = q.key then some (change (atPath? p entries)) else atPath? q entries := by
  induction entries with
  | nil => by_cases h : p.key = q.key <;> simp [atPath?, setPath, h]
  | cons e rest ih =>
    obtain ⟨r, a⟩ := e
    simp only [setPath, atPath?] at *
    grind

structure Memory where
  files : List (Path × Text) := []
  writes : List (Path × Nat) := []
  deriving DecidableEq

namespace Memory

def get? (m : Memory) (p : Path) : Option Text := atPath? p m.files

def writeCount (m : Memory) (p : Path) : Nat := (atPath? p m.writes).getD 0

def withFile (m : Memory) (p : Path) (t : Text) : Memory :=
  { m with files := setPath p (fun _ => t) m.files }

def write (m : Memory) (p : Path) (t : Text) : Memory where
  files := setPath p (fun _ => t) m.files
  writes := setPath p (fun n => n.getD 0 + 1) m.writes

@[simp] theorem get?_write (m : Memory) (p q : Path) (t : Text) :
    (m.write p t).get? q = if p.key = q.key then some t else m.get? q := atPath?_setPath ..

@[simp] theorem writeCount_write (m : Memory) (p q : Path) (t : Text) :
    (m.write p t).writeCount q = m.writeCount q + if p.key = q.key then 1 else 0 := by
  simp only [writeCount, write, atPath?_setPath]
  split
  · next h => simp [atPath?, h]
  · simp

end Memory

instance : Store Memory where
  read m p :=
    match m.get? p with
    | some t => return t
    | none => throw .noFile
  write m p t := return m.write p t

/-- The names from the working directory to a node. Those of a place outside it start with `..` or
with the slash of the root. -/
abbrev Location := List Text

inductive Node
  | file : Text → Node
  | binary : Node
  | directory : Node
  deriving DecidableEq

structure Disk where
  nodes : List (Location × Node) := []
  deriving DecidableEq

namespace Disk

def isOutside (l : Location) : Bool := l = [['/']] || l.all (· = ['.', '.'])

/-- A place is a directory too if something is listed below it. -/
def node? (d : Disk) (l : Location) : Option Node :=
  match d.nodes.find? (·.1 = l) with
  | some (_, n) => some n
  | none =>
    if isOutside l || d.nodes.any (fun (m, _) => l.isPrefixOf m) then some .directory else none

def set (d : Disk) (l : Location) (n : Node) : Disk where
  nodes :=
    if d.nodes.any (·.1 = l) then d.nodes.map fun (m, old) => (m, if m = l then n else old)
    else d.nodes ++ [(l, n)]

def parent (l : Location) : Location :=
  if l = [['/']] then l
  else if l.all (· = ['.', '.']) then l ++ [['.', '.']]
  else l.dropLast

def maxNameBytes : Nat := 255

def maxPathBytes : Nat := 4095

def byteLength (t : Text) : Nat := t.foldr (fun c n => c.utf8Size + n) 0

/-- Follows the steps of a path from a directory. Only the last one may be missing or a file; an
empty step or a dot asks for a directory. -/
def walk (d : Disk) (l : Location) : List Text → Except Obstacle Location
  | [] => return l
  | step :: steps =>
    match d.node? l with
    | none => throw .notFound
    | some .directory =>
      if step = [] ∨ step = ['.'] then walk d l steps
      else if step = ['.', '.'] then walk d (parent l) steps
      else if maxNameBytes < byteLength step then throw .nameTooLong
      else walk d (l ++ [step]) steps
    | some _ => throw .notDirectory

def checkPath (p : Path) : Except Obstacle Unit :=
  if p.contains '\x00' then throw .nulInName
  else if p = [] then throw .notFound
  else if maxPathBytes < byteLength p then throw .nameTooLong
  else return

def locate (d : Disk) (p : Path) : Except Obstacle Location := do
  checkPath p
  match p with
  | '/' :: t => walk d [['/']] (t.splitOnP (· == '/'))
  | p => walk d [] (p.splitOnP (· == '/'))

def places : Path → List Location
  | '/' :: t => through [['/']] (Path.steps t)
  | p => through [] (Path.steps p)
where
  through (l : Location) : List Text → List Location
    | [] => [l]
    | step :: steps => l :: through (if step = ['.', '.'] then parent l else l ++ [step]) steps

def pathOf : Location → Path
  | [] => ['.']
  | ['/'] :: steps => '/' :: Text.join ['/'] steps
  | l => Text.join ['/'] l

def read (d : Disk) (p : Path) : Except Obstacle Text := do
  match d.node? (← d.locate p) with
  | none => throw .notFound
  | some (.file t) => return t
  | some .binary => throw .notText
  | some .directory => throw .isDirectory

def write (d : Disk) (p : Path) (t : Text) : Except Obstacle Disk := do
  if p.getLast? = some '/' then
    checkPath p
    let _ ← d.locate p.bare.directory
    throw .isDirectory
  let l ← d.locate p
  if d.node? l = some .directory then throw .isDirectory
  return d.set l (.file t)

end Disk

instance : Store Disk := ⟨Disk.read, Disk.write⟩

end SpirvTables
