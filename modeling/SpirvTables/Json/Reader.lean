import SpirvTables.Json.Numeral

/-!
JSON documents as they are written: numbers by their spelling, strings as code points in which
escaped surrogates still stand alone, objects with all their entries in order.
-/

namespace SpirvTables.Json

inductive Source
  | null : Source
  | bool : Bool → Source
  | number : Numeral → Source
  | string : List Nat → Source
  | array : List Source → Source
  | object : List (List Nat × Source) → Source

namespace Source

def isSpace (c : Char) : Bool := c == ' ' || c == '\t' || c == '\n' || c == '\r'

def skip (t : Text) : Text := t.dropWhile isSpace

def hexDigit? (c : Char) : Option Nat :=
  if c.isDigit then some (c.toNat - '0'.toNat)
  else if 'a'.toNat ≤ c.toNat ∧ c.toNat ≤ 'f'.toNat then some (c.toNat - 'a'.toNat + 10)
  else if 'A'.toNat ≤ c.toNat ∧ c.toNat ≤ 'F'.toNat then some (c.toNat - 'A'.toNat + 10)
  else none

def escape? : Char → Option Char
  | '"' => some '"'
  | '\\' => some '\\'
  | '/' => some '/'
  | 'b' => some '\x08'
  | 'f' => some '\x0c'
  | 'n' => some '\n'
  | 'r' => some '\r'
  | 't' => some '\t'
  | _ => none

def quoted? : Text → Option (List Nat × Text)
  | [] => none
  | '\\' :: 'u' :: a :: b :: c :: d :: t => do
    let n := (((← hexDigit? a) * 16 + (← hexDigit? b)) * 16 + (← hexDigit? c)) * 16 + (← hexDigit? d)
    let (s, rest) ← quoted? t
    return (n :: s, rest)
  | '\\' :: e :: t => do
    let c ← escape? e
    let (s, rest) ← quoted? t
    return (c.toNat :: s, rest)
  | c :: t =>
    if c = '"' then some ([], t)
    else if c = '\\' ∨ c.toNat < 0x20 then none
    else (quoted? t).map fun (s, rest) => (c.toNat :: s, rest)

def digits? (t : Text) : Option (Text × Text) :=
  match t.span Char.isDigit with
  | ([], _) => none
  | (ds, rest) => some (ds, rest)

def whole? (t : Text) : Option (Text × Text) :=
  match digits? t with
  | some ('0' :: _ :: _, _) => none
  | r => r

def fraction? : Text → Option (Option Text × Text)
  | '.' :: t => (digits? t).map fun (ds, rest) => (some ds, rest)
  | t => some (none, t)

def exponent? : Text → Option (Option (Char × Option Char × Text) × Text)
  | e :: t =>
    if e = 'e' ∨ e = 'E' then
      match t with
      | [] => none
      | s :: u =>
        if s = '+' ∨ s = '-' then (digits? u).map fun (ds, rest) => (some (e, some s, ds), rest)
        else (digits? t).map fun (ds, rest) => (some (e, none, ds), rest)
    else some (none, e :: t)
  | [] => some (none, [])

def numeral? (t : Text) : Option (Numeral × Text) := do
  let (negative, t) := match t with
    | '-' :: u => (true, u)
    | _ => (false, t)
  let (ds, t) ← whole? t
  let (part, t) ← fraction? t
  let (power, t) ← exponent? t
  return (⟨negative, ds, part, power⟩, t)

mutual

/-- Every two steps read a character, so that twice as many steps as characters are enough. -/
def value? : Nat → Text → Option (Source × Text)
  | 0, _ => none
  | steps + 1, t =>
    match skip t with
    | 'n' :: 'u' :: 'l' :: 'l' :: rest => some (.null, rest)
    | 't' :: 'r' :: 'u' :: 'e' :: rest => some (.bool true, rest)
    | 'f' :: 'a' :: 'l' :: 's' :: 'e' :: rest => some (.bool false, rest)
    | '"' :: rest => (quoted? rest).map fun (s, rest) => (.string s, rest)
    | '[' :: rest =>
      match skip rest with
      | ']' :: rest => some (.array [], rest)
      | rest => (items? steps rest).map fun (vs, rest) => (.array vs, rest)
    | '{' :: rest =>
      match skip rest with
      | '}' :: rest => some (.object [], rest)
      | rest => (fields? steps rest).map fun (fs, rest) => (.object fs, rest)
    | rest => (numeral? rest).map fun (n, rest) => (.number n, rest)

def items? : Nat → Text → Option (List Source × Text)
  | 0, _ => none
  | steps + 1, t => do
    let (v, rest) ← value? steps t
    match skip rest with
    | ',' :: rest =>
      let (vs, rest) ← items? steps rest
      return (v :: vs, rest)
    | ']' :: rest => return ([v], rest)
    | _ => none

def fields? : Nat → Text → Option (List (List Nat × Source) × Text)
  | 0, _ => none
  | steps + 1, t =>
    match skip t with
    | '"' :: rest => do
      let (name, rest) ← quoted? rest
      match skip rest with
      | ':' :: rest =>
        let (v, rest) ← value? steps rest
        match skip rest with
        | ',' :: rest =>
          let (fs, rest) ← fields? steps rest
          return ((name, v) :: fs, rest)
        | '}' :: rest => return ([(name, v)], rest)
        | _ => none
      | _ => none
    | _ => none

end

def ofText? (t : Text) : Option Source := do
  let (v, rest) ← value? (2 * t.length + 2) t
  if skip rest = [] then some v else none

end Source

def characters? : List Nat → Option Text
  | [] => some []
  | n :: m :: ps =>
    if 0xD800 ≤ n ∧ n < 0xDC00 then
      if 0xDC00 ≤ m ∧ m < 0xE000 then
        (characters? ps).map (Char.ofNat (0x10000 + (n - 0xD800) * 0x400 + (m - 0xDC00)) :: ·)
      else none
    else if 0xDC00 ≤ n ∧ n < 0xE000 then none
    else (characters? (m :: ps)).map (Char.ofNat n :: ·)
  | [n] => if 0xD800 ≤ n ∧ n < 0xE000 then none else some [Char.ofNat n]

mutual

/-- The last entry of a name wins. Arrays and objects may nest `depth` deep. -/
def Source.json? (depth : Nat) : Source → Option Json
  | .null => some .null
  | .bool b => some (.bool b)
  | .number n => n.json?
  | .string s => (characters? s).map .string
  | .array vs =>
    match depth with
    | 0 => none
    | d + 1 => (jsonItems? d vs).map .array
  | .object fs =>
    match depth with
    | 0 => none
    | d + 1 => (jsonFields? d fs).map fun fs => .object (normalEntries fs)

def Source.jsonItems? (depth : Nat) : List Source → Option (List Json)
  | [] => some []
  | v :: vs => do return (← v.json? depth) :: (← jsonItems? depth vs)

def Source.jsonFields? (depth : Nat) : List (List Nat × Source) → Option (List (Text × Json))
  | [] => some []
  | (name, v) :: fs => do return (← characters? name, ← v.json? depth) :: (← jsonFields? depth fs)

end

def maxDepth : Nat := 127

def ofText? (depth : Nat) (t : Text) : Option Json := do (← Source.ofText? t).json? depth

end SpirvTables.Json
