import SpirvTables.Proofs.Text.Wrap

/-!
Lines are filled in rounds: a round sets a piece, ends the open line before it, or fills the line
with the head of a piece that is wider than a line. As long as a line has a place, the rounds come
to an end, always with the same lines.
-/

namespace SpirvTables.Text

variable {room free : Nat} {line a b : Text} {p : Piece} {ps : List Piece} {ls : List Text}

def Piece.lead (line : Text) (p : Piece) : Text :=
  if p.opens ∧ line ≠ [] then line ++ [' '] else line

/-- The lines that come of an open line and the pieces still to be set, round by round. -/
inductive Rounds (room : Nat) : Text → List Piece → List Text → Prop
  | nothing : Rounds room [] [] []
  | last {line : Text} : line ≠ [] → Rounds room line [] [line]
  | set {line : Text} {p : Piece} {ps : List Piece} {ls : List Text} :
    (p.lead line).length + p.text.length ≤ room → Rounds room (p.lead line ++ p.text) ps ls →
      Rounds room line (p :: ps) ls
  | close {line : Text} {p : Piece} {ps : List Piece} {ls : List Text} :
    room < (p.lead line).length + p.text.length →
      p.text.length ≤ room ∨ room ≤ (p.lead line).length → Rounds room [] (p :: ps) ls →
        Rounds room line (p :: ps) (line :: ls)
  | cut {line : Text} {p : Piece} {ps : List Piece} {ls : List Text} :
    room < p.text.length → (p.lead line).length < room →
      Rounds room [] (⟨false, p.text.drop (room - (p.lead line).length)⟩ :: ps) ls →
        Rounds room line (p :: ps)
          ((p.lead line ++ p.text.take (room - (p.lead line).length)) :: ls)

@[simp] theorem Piece.lead_nil (p : Piece) : p.lead [] = [] := by simp [lead]

theorem Piece.lead_of_opens (hp : p.opens) (hline : line ≠ []) : p.lead line = line ++ [' '] :=
  if_pos ⟨hp, hline⟩

theorem Piece.length_lead_le (line : Text) (p : Piece) :
    (p.lead line).length ≤ line.length + 1 := by
  unfold lead
  split <;> simp

theorem chop_of_le (h : a.length ≤ free) : chop room free a = [a] := by
  induction a generalizing free with
  | nil => simp [chop]
  | cons c a ih =>
    cases free with
    | zero => simp at h
    | succ free => simp [chop, ih (Nat.le_of_succ_le_succ h)]

theorem chop_append (hroom : 0 < room) (hb : b ≠ []) :
    chop room a.length (a ++ b) = a :: chop room room b := by
  induction a with
  | nil =>
    obtain ⟨c, b, rfl⟩ := List.exists_cons_of_ne_nil hb
    cases room with
    | zero => cases hroom
    | succ n => rfl
  | cons c a ih => simp [chop, ih]

theorem setOn_eq (room : Nat) (line : Text) (p : Piece) :
    p.setOn room line =
      if (p.lead line).length + p.text.length ≤ room then [p.lead line ++ p.text]
      else if p.text.length ≤ room then [line, p.text]
      else if room ≤ (p.lead line).length then line :: chop room room p.text
      else (chop room (room - (p.lead line).length) p.text).modifyHead (p.lead line ++ ·) := rfl

theorem setOn_nil (hroom : 0 < room) (p : Piece) : p.setOn room [] = chop room room p.text := by
  rw [setOn_eq, p.lead_nil]
  by_cases hp : p.text.length ≤ room
  · simp [hp, chop_of_le hp]
  · obtain ⟨l, ls, hls⟩ := List.exists_cons_of_ne_nil (chop_ne_nil room room p.text)
    simp [hp, Nat.ne_of_gt hroom, hls]

theorem fill_nil_cons (hroom : 0 < room) :
    fill room [] (p :: ps) = (chop room room p.text).dropLast ++
      fill room ((chop room room p.text).getLastD []) ps := by
  rw [fill, setOn_nil hroom]

theorem fill_set (h : (p.lead line).length + p.text.length ≤ room) :
    fill room line (p :: ps) = fill room (p.lead line ++ p.text) ps := by
  rw [fill, setOn_eq, if_pos h]
  rfl

theorem fill_close (hroom : 0 < room) (hfit : room < (p.lead line).length + p.text.length)
    (h : p.text.length ≤ room ∨ room ≤ (p.lead line).length) :
    fill room line (p :: ps) = line :: fill room [] (p :: ps) := by
  have hset : p.setOn room line = line :: chop room room p.text := by
    rw [setOn_eq, if_neg (Nat.not_le_of_lt hfit)]
    by_cases hp : p.text.length ≤ room
    · rw [if_pos hp, chop_of_le hp]
    · rw [if_neg hp, if_pos (h.resolve_left hp)]
  obtain ⟨l, ls, hls⟩ := List.exists_cons_of_ne_nil (chop_ne_nil room room p.text)
  rw [fill_nil_cons hroom, fill, hset, hls]
  rfl

theorem fill_cut (hwide : room < p.text.length) (hfree : (p.lead line).length < room) :
    fill room line (p :: ps) = (p.lead line ++ p.text.take (room - (p.lead line).length)) ::
      fill room [] (⟨false, p.text.drop (room - (p.lead line).length)⟩ :: ps) := by
  have hroom : 0 < room := Nat.zero_lt_of_lt hfree
  generalize hn : room - (p.lead line).length = n
  have htail : p.text.drop n ≠ [] := by
    apply List.ne_nil_of_length_pos
    rw [List.length_drop]
    omega
  have hset : p.setOn room line =
      (p.lead line ++ p.text.take n) :: chop room room (p.text.drop n) := by
    have hchop : chop room n p.text = p.text.take n :: chop room room (p.text.drop n) := by
      have hlength : (p.text.take n).length = n := List.length_take_of_le (by omega)
      have := chop_append (a := p.text.take n) hroom htail
      rwa [hlength, List.take_append_drop] at this
    rw [setOn_eq, if_neg (by omega), if_neg (by omega), if_neg (by omega), hn, hchop,
      List.modifyHead_cons]
  obtain ⟨l, ls, hls⟩ := List.exists_cons_of_ne_nil (chop_ne_nil room room (p.text.drop n))
  rw [fill_nil_cons hroom, fill, hset, hls]
  rfl

def breadth (ps : List Piece) : Nat := (ps.flatMap (·.text)).length

theorem rounds_fill (hroom : 0 < room) (line : Text) (ps : List Piece) :
    Rounds room line ps (fill room line ps) := by
  match ps with
  | [] =>
    rw [fill]
    split
    · next hline =>
      rw [hline]
      exact .nothing
    · next hline => exact .last hline
  | p :: ps =>
    by_cases hfit : (p.lead line).length + p.text.length ≤ room
    · rw [fill_set hfit]
      exact .set hfit (rounds_fill hroom _ ps)
    · have hover := Nat.lt_of_not_le hfit
      by_cases hclose : p.text.length ≤ room ∨ room ≤ (p.lead line).length
      · rw [fill_close hroom hover hclose]
        have hline : line ≠ [] := by
          rintro rfl
          rw [p.lead_nil, List.length_nil] at hover hclose
          omega
        have hpos := List.length_pos_iff.2 hline
        exact .close hover hclose (rounds_fill hroom [] (p :: ps))
      · obtain ⟨hwide, hfree⟩ := not_or.1 hclose
        have hwide := Nat.lt_of_not_le hwide
        have hfree := Nat.lt_of_not_le hfree
        rw [fill_cut hwide hfree]
        exact .cut hwide hfree (rounds_fill hroom [] _)
termination_by (breadth ps, ps.length, line.length)
decreasing_by
  · simp only [breadth, List.flatMap_cons, List.length_append, List.length_cons, Prod.lex_def]
    omega
  · exact Prod.Lex.right _ (Prod.Lex.right _ hpos)
  · simp only [breadth, List.flatMap_cons, List.length_append, List.length_drop, List.length_cons,
      Prod.lex_def]
    omega

theorem Rounds.eq_fill (hroom : 0 < room) (h : Rounds room line ps ls) :
    ls = fill room line ps := by
  induction h with
  | nothing => rfl
  | last hline => rw [fill, if_neg hline]
  | set hfit _ ih => rw [fill_set hfit, ih]
  | close hover hclose _ ih => rw [fill_close hroom hover hclose, ih]
  | cut hwide hfree _ ih => rw [fill_cut hwide hfree, ih]

theorem rounds_iff (hroom : 0 < room) : Rounds room line ps ls ↔ ls = fill room line ps := by
  constructor
  · exact Rounds.eq_fill hroom
  · rintro rfl
    exact rounds_fill hroom line ps

end SpirvTables.Text
