import SpirvTables.Json.Basic

namespace SpirvTables.Json

structure Numeral where
  negative : Bool
  whole : Text
  fraction : Option Text
  exponent : Option (Char × Option Char × Text)
  deriving DecidableEq

namespace Numeral

def digit (c : Char) : Nat := c.toNat - '0'.toNat

def value (digits : Text) : Nat := digits.foldl (fun n c => n * 10 + digit c) 0

def spelling (n : Numeral) : Text :=
  (if n.negative then ['-'] else []) ++ n.whole ++
  (match n.fraction with
    | some ds => '.' :: ds
    | none => []) ++
  (match n.exponent with
    | some (e, s, ds) => e :: (s.toList ++ ds)
    | none => [])

/-- Reads on the digits of `n` as long as the number fits 64 bits, and returns what is left. -/
def significant (n : Nat) : Text → Nat × Text
  | [] => (n, [])
  | d :: ds => if n * 10 + digit d < UInt64.size then significant (n * 10 + digit d) ds else (n, d :: ds)

/-- The nearest number of 53 significant bits, of two equally near ones the even. -/
def round53 (n : Nat) : Nat :=
  let unit := Nat.pow 2 (n.log2 - 52)
  let q := n / unit
  let r := n % unit
  (if 2 * r > unit ∨ 2 * r = unit ∧ q % 2 = 1 then q + 1 else q) * unit

/-- The size of the number as `m * 10 ^ e`, from the digits that fit 64 bits. -/
def scaled (n : Numeral) : Nat × Int :=
  let (m, rest) := significant 0 n.whole
  let fraction := n.fraction.getD []
  let (m, unread) := significant m fraction
  let e : Int := rest.length - (fraction.length - unread.length)
  match n.exponent with
  | none => (m, e)
  | some (_, sign, ds) => (m, if sign = some '-' then e - value ds else e + value ds)

/-- No double is larger than `2 ^ 1024 - 2 ^ 971`, and half a unit above it rounds out of range. -/
def isFinite (n : Numeral) : Bool :=
  match n.scaled with
  | (0, _) => true
  | (_, .negSucc _) => true
  | (m, .ofNat e) => e ≤ 308 && round53 m * round53 (Nat.pow 10 e) < Nat.pow 2 1024 - Nat.pow 2 970

def integer? (n : Numeral) : Option Int :=
  if n.fraction.isSome || n.exponent.isSome then none
  else
    let v := value n.whole
    if n.negative then
      if 0 < v ∧ 2 * v ≤ UInt64.size then some (-v) else none
    else if v < UInt64.size then some v else none

def json? (n : Numeral) : Option Json :=
  match n.integer? with
  | some i => some (.integer i)
  | none => if n.isFinite then some (.fraction n.spelling) else none

end Numeral

end SpirvTables.Json
