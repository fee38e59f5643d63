import SpirvTables.Text.Basic

namespace SpirvTables

inductive Provenance
  | requested : Provenance
  | discovered : Provenance
  | both : Provenance
  deriving DecidableEq

def Provenance.name : Provenance → Text
  | requested => "Requested"
  | discovered => "Discovered"
  | both => "Both"

def Provenance.of? (requested discovered : Bool) : Option Provenance :=
  match requested, discovered with
  | true, true => some .both
  | true, false => some .requested
  | false, true => some .discovered
  | false, false => none

def insertName (name : Text) : List Text → List Text
  | [] => [name]
  | n :: ns =>
    if n = name then n :: ns
    else if Text.before name n then name :: n :: ns
    else n :: insertName name ns

theorem mem_insertName {name a : Text} {ns : List Text} :
    a ∈ insertName name ns ↔ a = name ∨ a ∈ ns := by
  induction ns with
  | nil => simp [insertName]
  | cons n ns ih =>
    simp only [insertName]
    split
    · grind
    · split
      · simp
      · simp [ih]; grind

def ascending (names : List Text) : List Text := names.foldr insertName []

@[simp] theorem mem_ascending {a : Text} {names : List Text} : a ∈ ascending names ↔ a ∈ names := by
  induction names with
  | nil => simp [ascending]
  | cons n ns ih => simpa [ascending, mem_insertName] using or_congr_right ih

structure NameSet where
  entries : List (Text × Provenance)
  deriving DecidableEq

namespace NameSet

def union (requested discovered : List Text) : NameSet where
  entries := (ascending (requested ++ discovered)).filterMap fun n =>
    (Provenance.of? (requested.contains n) (discovered.contains n)).map (n, ·)

def names (s : NameSet) : List Text := s.entries.map (·.1)

def provenance? (s : NameSet) (name : Text) : Option Provenance :=
  (s.entries.find? (·.1 = name)).map (·.2)

def contains (s : NameSet) (name : Text) : Bool := s.names.contains name

def added (s : NameSet) : List Text :=
  (s.entries.filter (·.2 = .requested)).map (·.1)

def size (s : NameSet) : Nat := s.entries.length

def isEmpty (s : NameSet) : Bool := s.entries.isEmpty

end NameSet

end SpirvTables
