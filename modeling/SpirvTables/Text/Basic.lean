import SpirvTables.Character.Basic
import SpirvTables.Character.Case

/-!
Text as the list of its characters. Every width in this library counts characters.
-/

namespace SpirvTables

abbrev Text := List Char

instance : Coe String Text := ⟨String.toList⟩

namespace Text

def toString (t : Text) : String := String.ofList t

def before : Text → Text → Bool
  | _, [] => false
  | [], _ :: _ => true
  | a :: s, b :: t => if a = b then before s t else decide (a.toNat < b.toNat)

def spaces (n : Nat) : Text := List.replicate n ' '

@[simp] theorem length_spaces (n : Nat) : (spaces n).length = n := by simp [spaces]

abbrev join (separator : Text) (pieces : List Text) : Text := separator.intercalate pieces

/-- Pads to any width. A formatter may refuse widths above 65535; no such bound is stated here. -/
def indent (n : Nat) (t : Text) : Text := spaces n ++ t

@[simp] theorem length_indent (n : Nat) (t : Text) : (indent n t).length = n + t.length := by
  simp [indent]

def padRight (width : Nat) (t : Text) : Text := t ++ spaces (width - t.length)

def padLeft (width : Nat) (t : Text) : Text := spaces (width - t.length) ++ t

def decimal (n : Nat) : Text := Nat.toDigits 10 n

def trimEnd (p : Char → Bool) (t : Text) : Text := (t.reverse.dropWhile p).reverse

def trimStart (p : Char → Bool) (t : Text) : Text := t.dropWhile p

def trim (p : Char → Bool) (t : Text) : Text := trimEnd p (trimStart p t)

def isAllBlank (t : Text) : Bool := t.all Character.isBlank

def lines (t : Text) : List Text := t.splitOnP (· == '\n')

def words (t : Text) : List Text := (t.splitOnP Character.isBlank).filter (!·.isEmpty)

theorem ne_nil_of_mem_words {t w : Text} (h : w ∈ words t) : w ≠ [] := by
  have := (List.mem_filter.1 h).2
  intro hw
  simp [hw] at this

def headLine (t : Text) : Text × Text :=
  (t.takeWhile (· != '\n'), (t.dropWhile (· != '\n')).drop 1)

def startsCased (t : Text) : Bool :=
  (t.dropWhile Character.isCaseIgnorable).head?.any Character.isCased

/-- A capital sigma is final if a cased letter stands before it and none behind it, case-ignorable
characters not counted. The characters before come in reverse. -/
def lowerAt (before : Text) (c : Char) (after : Text) : Text :=
  if c = 'Σ' then
    if startsCased before && !startsCased after then ['ς'] else ['σ']
  else Character.lower c

def lowerFrom (before : Text) : Text → Text
  | [] => []
  | c :: t => lowerAt before c t ++ lowerFrom (c :: before) t

def lower (t : Text) : Text := lowerFrom [] t

def identifier (name : Text) : Text :=
  let kept : Text := name.filter fun c => Character.isWord c || Character.isBlank c
  join ['_'] ((words kept).map lower)

def acronym (name : Text) : Text := name.filter Char.isUpper

def leadingWord (t : Text) : Text := t.takeWhile Character.isWord

end Text

end SpirvTables
