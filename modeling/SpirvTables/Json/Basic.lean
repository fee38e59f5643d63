import SpirvTables.Text.Basic

namespace SpirvTables

/-- An `integer` has neither fraction nor exponent and fits 64 bits. Any other number is a `fraction`
and is kept, and printed, as the document spells it: no double is rounded and spelled anew. -/
inductive Json
  | null : Json
  | bool : Bool → Json
  | integer : Int → Json
  | fraction : Text → Json
  | string : Text → Json
  | array : List Json → Json
  | object : List (Text × Json) → Json

def latest? {α : Type} (name : Text) : List (Text × α) → Option α
  | [] => none
  | (n, v) :: rest => (latest? name rest).or (if n = name then some v else none)

def setEntry {α : Type} (name : Text) (v : α) : List (Text × α) → List (Text × α)
  | [] => [(name, v)]
  | (n, w) :: rest =>
    if n = name then (name, v) :: rest
    else if Text.before name n then (name, v) :: (n, w) :: rest
    else (n, w) :: setEntry name v rest

def normalEntries {α : Type} (entries : List (Text × α)) : List (Text × α) :=
  entries.foldl (fun es (n, v) => setEntry n v es) []

namespace Json

def field? (name : Text) : Json → Option Json
  | object fields => latest? name fields
  | _ => none

def text? : Json → Option Text
  | string s => some s
  | _ => none

def items? : Json → Option (List Json)
  | array items => some items
  | _ => none

def natBelow? (limit : Nat) : Json → Option Nat
  | integer (.ofNat n) => if n < limit then some n else none
  | _ => none

def word? (v : Json) : Option UInt32 := (v.natBelow? UInt32.size).map UInt32.ofNat

def isRecord (size : Nat) : Json → Bool
  | object _ => true
  | array items => items.length ≤ size
  | _ => false

/-- A field, which an object may always leave out and an array only if it is `omissible`. -/
def member? (position : Nat) (name : Text) (omissible : Bool) : Json → Option (Option Json)
  | object fields => some (latest? name fields)
  | array items =>
    match items[position]? with
    | some v => some (some v)
    | none => if omissible then some none else none
  | _ => none

def textIfAny? : Option Json → Option (Option Text)
  | none => some none
  | some null => some none
  | some v => v.text?.map some

def wordIfAny? : Option Json → Option (Option UInt32)
  | none => some none
  | some null => some none
  | some v => v.word?.map some

def listIfAny? {α : Type} (item? : Json → Option α) : Option Json → Option (List α)
  | none => some []
  | some v => do (← v.items?).mapM item?

/-- One of several names: its text, or an object with the name as its only key and null there. -/
def choice? : Json → Option Text
  | string name => some name
  | object [(name, null)] => some name
  | _ => none

end Json

end SpirvTables
