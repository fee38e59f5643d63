import SpirvTables.Text.Basic

namespace SpirvTables.Text

def itemCost (item : Text) : Nat := item.length + 2

/-- The open line already takes `used` places. An item too wide for any line gets one of its own. -/
def packFrom (budget : Nat) (line : List Text) (used : Nat) : List Text → List (List Text)
  | [] => if line = [] then [] else [line]
  | item :: items =>
    if line ≠ [] ∧ budget < used + itemCost item then
      line :: packFrom budget [item] (itemCost item) items
    else packFrom budget (line ++ [item]) (used + itemCost item) items

def pack (budget : Nat) (items : List Text) : List (List Text) := packFrom budget [] 0 items

/-- The indent of a line is not counted against its budget, and, as in `indent`, has no bound. -/
def packedList (indentation budget : Nat) (items : List Text) : Text :=
  join ",\n" ((pack budget items).map fun line => indent indentation (join ", " line))

theorem flatten_packFrom (budget : Nat) (line : List Text) (used : Nat) (items : List Text) :
    (packFrom budget line used items).flatten = line ++ items := by
  induction items generalizing line used with
  | nil => by_cases h : line = [] <;> simp [packFrom, h]
  | cons item items ih => rw [packFrom]; split <;> simp [ih]

@[simp] theorem flatten_pack (budget : Nat) (items : List Text) :
    (pack budget items).flatten = items := flatten_packFrom ..

structure Case where
  name : Text
  body : Text
  deriving DecidableEq

def widest (cases : List Case) : Nat := cases.foldr (fun c n => max c.name.length n) 0

def Case.line (width : Nat) (c : Case) : Text :=
  "def " ++ padRight width c.name ++ " : " ++ c.body ++ ";"

/-- The names are padded to the widest of them, however wide that is. -/
def alignedCases (cases : List Case) : Text :=
  join ['\n'] (cases.map (Case.line (widest cases)))

@[simp] theorem widest_nil : widest [] = 0 := rfl

@[simp] theorem widest_cons (c : Case) (cs : List Case) :
    widest (c :: cs) = max c.name.length (widest cs) := rfl

theorem length_le_widest {c : Case} {cs : List Case} (h : c ∈ cs) :
    c.name.length ≤ widest cs := by
  induction cs with
  | nil => simp at h
  | cons d ds ih => grind [widest_cons]

/-- Enough letters next to a hyphen: two of them, or a letter, another hyphen and a letter. Both
sides are read outwards from the hyphen. -/
def flanks : Text → Bool
  | a :: b :: t =>
    Character.isLetter a &&
      (Character.isLetter b || (b == '-' && t.head?.any Character.isLetter))
  | _ => false

def breaksBehind (before : Text) (c : Char) (after : Text) : Bool :=
  c == '-' && flanks before && flanks after

/-- The pieces of the rest of a word, `before` being the characters already read, last one first. -/
def piecesFrom (before : Text) : Text → List Text
  | [] => [[]]
  | c :: t =>
    if breaksBehind before c t then [c] :: piecesFrom (c :: before) t
    else (piecesFrom (c :: before) t).modifyHead (c :: ·)

def hyphenPieces (word : Text) : List Text := piecesFrom [] word

theorem piecesFrom_ne_nil (before t : Text) : piecesFrom before t ≠ [] := by
  induction t generalizing before with
  | nil => simp [piecesFrom]
  | cons c t ih =>
    rw [piecesFrom]
    split
    · simp
    · cases h : piecesFrom (c :: before) t with
      | nil => exact absurd h (ih _)
      | cons p ps => simp

theorem flatten_piecesFrom (before t : Text) : (piecesFrom before t).flatten = t := by
  induction t generalizing before with
  | nil => rfl
  | cons c t ih =>
    rw [piecesFrom]
    split
    · simp [ih]
    · cases h : piecesFrom (c :: before) t with
      | nil => exact absurd h (piecesFrom_ne_nil _ _)
      | cons p ps => simpa [h] using congrArg (c :: ·) (ih (c :: before))

@[simp] theorem flatten_hyphenPieces (word : Text) : (hyphenPieces word).flatten = word :=
  flatten_piecesFrom [] word

/-- A text cut every `room` characters, its first line having `free` places. -/
def chop (room : Nat) : Nat → Text → List Text
  | _, [] => [[]]
  | 0, c :: t => [] :: (chop room (room - 1) t).modifyHead (c :: ·)
  | free + 1, c :: t => (chop room free t).modifyHead (c :: ·)

structure Piece where
  opens : Bool
  text : Text
  deriving DecidableEq

def pieces (t : Text) : List Piece :=
  (words t).flatMap fun w =>
    match hyphenPieces w with
    | [] => []
    | p :: ps => ⟨true, p⟩ :: ps.map (⟨false, ·⟩)

/-- The lines that `line` becomes when a piece is set behind it; the last of them stays open. -/
def Piece.setOn (room : Nat) (line : Text) (p : Piece) : List Text :=
  let led := if p.opens ∧ line ≠ [] then line ++ [' '] else line
  if led.length + p.text.length ≤ room then [led ++ p.text]
  else if p.text.length ≤ room then [line, p.text]
  else if room ≤ led.length then line :: chop room room p.text
  else (chop room (room - led.length) p.text).modifyHead (led ++ ·)

def fill (room : Nat) (line : Text) : List Piece → List Text
  | [] => if line = [] then [] else [line]
  | p :: ps =>
    let set := p.setOn room line
    set.dropLast ++ fill room (set.getLastD []) ps

def filled (room : Nat) (t : Text) : List Text := fill room [] (pieces t)

def roomFor (width indentation : Nat) : Nat := max (width - indentation) 1

def wrap (width indentation : Nat) (t : Text) : Text :=
  join ['\n'] ((filled (roomFor width indentation) t).map (indent indentation))

end SpirvTables.Text
