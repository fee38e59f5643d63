import SpirvTables.Text.Basic

namespace SpirvTables.Text

def after? : Text → Text → Option Text
  | [], t => some t
  | _ :: _, [] => none
  | a :: lead, c :: t => if a = c then after? lead t else none

theorem after?_eq_some_iff {lead t rest : Text} : after? lead t = some rest ↔ t = lead ++ rest := by
  fun_induction after? lead t with grind

@[simp] theorem after?_append (lead t : Text) : after? lead (lead ++ t) = some t :=
  after?_eq_some_iff.2 rfl

def upTo? (ending t : Text) : Option Text := (after? ending.reverse t.reverse).map List.reverse

theorem upTo?_eq_some_iff {ending t rest : Text} :
    upTo? ending t = some rest ↔ t = rest ++ ending := by
  rw [upTo?, Option.map_eq_some_iff]
  constructor
  · rintro ⟨r, hr, rfl⟩
    rw [after?_eq_some_iff] at hr
    simpa using congrArg List.reverse hr
  · rintro rfl
    exact ⟨rest.reverse, by simp, by simp⟩

def cut? (pattern : Text) : Text → Option (Text × Text)
  | [] => (after? pattern []).map ([], ·)
  | c :: t =>
    match after? pattern (c :: t) with
    | some rest => some ([], rest)
    | none => (cut? pattern t).map fun (a, b) => (c :: a, b)

theorem eq_append_of_cut? {pattern t a b : Text} (h : cut? pattern t = some (a, b)) :
    t = a ++ pattern ++ b := by
  induction t generalizing a b with
  | nil =>
    simp only [cut?, Option.map_eq_some_iff] at h
    obtain ⟨r, hr, he⟩ := h
    obtain ⟨rfl, rfl⟩ := Prod.mk.inj he
    simpa using after?_eq_some_iff.1 hr
  | cons c t ih =>
    simp only [cut?] at h
    split at h
    · next rest hp =>
      obtain ⟨rfl, rfl⟩ := Prod.mk.inj (Option.some.inj h)
      simpa using after?_eq_some_iff.1 hp
    · simp only [Option.map_eq_some_iff] at h
      obtain ⟨⟨a', b'⟩, hc, he⟩ := h
      obtain ⟨rfl, rfl⟩ := Prod.mk.inj he
      simp [ih hc]

def cutTimes (pattern : Text) : Nat → Text → List Text
  | 0, t => [t]
  | n + 1, t =>
    match cut? pattern t with
    | none => [t]
    | some (a, b) => a :: cutTimes pattern n b

/-- The pieces around all occurrences of `pattern`. An empty pattern stands at both ends and
between each two characters. -/
def splitOn (pattern t : Text) : List Text :=
  if pattern = [] then [] :: t.map ([·]) ++ [[]] else cutTimes pattern t.length t

theorem cutTimes_ne_nil (pattern : Text) (n : Nat) (t : Text) : cutTimes pattern n t ≠ [] := by
  fun_cases cutTimes pattern n t <;> simp

@[simp] theorem join_cutTimes (pattern : Text) (n : Nat) (t : Text) :
    join pattern (cutTimes pattern n t) = t := by
  fun_induction cutTimes pattern n t with
  | case1 => simp
  | case2 => simp
  | case3 n t a b h ih =>
    unfold join at ih ⊢
    rw [List.intercalate_cons_of_ne_nil (cutTimes_ne_nil pattern n b), ih, eq_append_of_cut? h]

def restsAfter (pattern : Text) : Nat → Text → List Text
  | 0, _ => []
  | n + 1, t =>
    match cut? pattern t with
    | none => []
    | some (_, b) => b :: restsAfter pattern n b

def beforeLast (c : Char) (t : Text) : Text :=
  if c ∈ t then ((t.reverse.dropWhile (· != c)).drop 1).reverse else t

/-- The rest of the text inside a bracket, up to the `]` that closes it, where `depth` further
brackets are open. -/
def upToClose : Nat → Text → Option Text
  | _, [] => none
  | depth, c :: t =>
    if c = '[' then (upToClose (depth + 1) t).map (c :: ·)
    else if c = ']' then
      match depth with
      | 0 => some []
      | d + 1 => (upToClose d t).map (c :: ·)
    else (upToClose depth t).map (c :: ·)

def bracketed? (t : Text) : Option (Text × Text) := do
  let (before, rest) ← cut? ['['] t
  return (before, ← upToClose 0 rest)

end SpirvTables.Text
