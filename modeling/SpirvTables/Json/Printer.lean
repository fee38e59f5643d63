import SpirvTables.Json.Basic

namespace SpirvTables.Json

def hexDigit (n : Nat) : Char := Char.ofNat (if n < 10 then '0'.toNat + n else 'a'.toNat + (n - 10))

def escaped (c : Char) : Text :=
  match c with
  | '"' => "\\\""
  | '\\' => "\\\\"
  | '\n' => "\\n"
  | '\r' => "\\r"
  | '\t' => "\\t"
  | '\x08' => "\\b"
  | '\x0c' => "\\f"
  | c =>
    if c.toNat < 0x20 then "\\u00" ++ [hexDigit (c.toNat / 16), hexDigit (c.toNat % 16)] else [c]

def quote (t : Text) : Text := '"' :: t.flatMap escaped ++ ['"']

def integerText : Int → Text
  | .ofNat n => Text.decimal n
  | .negSucc n => '-' :: Text.decimal (n + 1)

mutual

def compact : Json → Text
  | null => "null"
  | bool b => if b then "true" else "false"
  | integer n => integerText n
  | fraction spelling => spelling
  | string s => quote s
  | array vs => '[' :: Text.join [','] (compactItems vs) ++ [']']
  | object fs => '{' :: Text.join [','] (compactFields fs) ++ ['}']

def compactItems : List Json → List Text
  | [] => []
  | v :: vs => compact v :: compactItems vs

def compactFields : List (Text × Json) → List Text
  | [] => []
  | (name, v) :: fs => (quote name ++ ':' :: compact v) :: compactFields fs

end

def block (openMark closeMark : Char) (depth : Nat) (items : List Text) : Text :=
  match items with
  | [] => [openMark, closeMark]
  | items =>
    openMark :: '\n' :: Text.join ",\n" (items.map (Text.indent (2 * (depth + 1)))) ++
      '\n' :: Text.indent (2 * depth) [closeMark]

mutual

def pretty (depth : Nat) : Json → Text
  | array vs => block '[' ']' depth (prettyItems (depth + 1) vs)
  | object fs => block '{' '}' depth (prettyFields (depth + 1) fs)
  | null => compact null
  | bool b => compact (bool b)
  | integer n => compact (integer n)
  | fraction spelling => compact (fraction spelling)
  | string s => compact (string s)

def prettyItems (depth : Nat) : List Json → List Text
  | [] => []
  | v :: vs => pretty depth v :: prettyItems depth vs

def prettyFields (depth : Nat) : List (Text × Json) → List Text
  | [] => []
  | (name, v) :: fs => (quote name ++ ": " ++ pretty depth v) :: prettyFields depth fs

end

end SpirvTables.Json
