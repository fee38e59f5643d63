import SpirvTables.Proofs.Text.Occurrence
import SpirvTables.Text.Arrange

namespace SpirvTables.Text

variable {p t : Text}

theorem infix_of_mem_splitOnP {f : Char → Bool} {x : Text} (h : x ∈ t.splitOnP f) : x <:+: t := by
  -- The first piece is a beginning, which the induction needs to set a character before it.
  have key : ∀ y ys, t.splitOnP f = y :: ys → y <+: t ∧ ∀ x ∈ ys, x <:+: t := by
    clear h
    induction t with
    | nil =>
      intro y ys h
      rw [List.splitOnP_nil] at h
      obtain ⟨rfl, rfl⟩ := List.cons.inj h
      simp
    | cons c t ih =>
      intro y ys h
      rw [List.splitOnP_cons_eq_if_modifyHead] at h
      obtain ⟨z, zs, hz⟩ := List.exists_cons_of_ne_nil (List.splitOnP_ne_nil f t)
      obtain ⟨hpre, hin⟩ := ih z zs hz
      rw [hz] at h
      split at h
      · obtain ⟨rfl, rfl⟩ := List.cons.inj h
        refine ⟨List.nil_prefix, fun x hx => List.infix_cons ?_⟩
        rcases List.mem_cons.1 hx with rfl | hx
        · exact hpre.isInfix
        · exact hin x hx
      · obtain ⟨rfl, rfl⟩ := List.cons.inj h
        exact ⟨List.cons_prefix_cons.2 ⟨rfl, hpre⟩, fun x hx => List.infix_cons (hin x hx)⟩
  obtain ⟨y, ys, hy⟩ := List.exists_cons_of_ne_nil (List.splitOnP_ne_nil f t)
  obtain ⟨hpre, hin⟩ := key y ys hy
  rw [hy] at h
  rcases List.mem_cons.1 h with rfl | h
  · exact hpre.isInfix
  · exact hin x h

theorem infix_of_mem_words {w : Text} (h : w ∈ words t) : w <:+: t :=
  infix_of_mem_splitOnP (List.mem_filter.1 h).1

theorem infix_of_mem_lines {l : Text} (h : l ∈ lines t) : l <:+: t := infix_of_mem_splitOnP h

theorem getLastD_suffix_flatten (ls : List Text) : ls.getLastD [] <:+ ls.flatten := by
  rcases List.eq_nil_or_concat ls with rfl | ⟨ls, l, rfl⟩
  · exact List.suffix_rfl
  · simp

theorem flatten_modifyHead_append {a : Text} {ls : List Text} (h : ls ≠ []) :
    (ls.modifyHead (a ++ ·)).flatten = a ++ ls.flatten := by
  obtain ⟨l, ls, rfl⟩ := List.exists_cons_of_ne_nil h
  simp

theorem chop_ne_nil (room free : Nat) (t : Text) : chop room free t ≠ [] := by
  induction t generalizing free with
  | nil => simp [chop]
  | cons c t ih => cases free <;> simp [chop, ih]

@[simp] theorem flatten_chop (room free : Nat) (t : Text) : (chop room free t).flatten = t := by
  induction t generalizing free with
  | nil => simp [chop]
  | cons c t ih =>
    have hcons (free : Nat) : ((chop room free t).modifyHead (c :: ·)).flatten = c :: t := by
      rw [← congrArg (c :: ·) (ih free)]
      exact flatten_modifyHead_append (a := [c]) (chop_ne_nil room free t)
    cases free with
    | zero => exact hcons (room - 1)
    | succ free => exact hcons free

def spread (ps : List Piece) : Text :=
  ps.flatMap fun p => if p.opens then ' ' :: p.text else p.text

theorem infix_of_mem_setOn (room : Nat) (line : Text) (p : Piece) :
    (∀ l ∈ p.setOn room line, l <:+: line ++ spread [p]) ∧
      (p.setOn room line).getLastD [] <:+ line ++ spread [p] := by
  have hspread : p.text <:+ spread [p] := by
    by_cases ho : p.opens <;> simp [spread, ho]
  have hpiece : p.text <:+ line ++ spread [p] := hspread.trans (List.suffix_append _ _)
  generalize hled : (if p.opens ∧ line ≠ [] then line ++ [' '] else line) = led
  have hset : led ++ p.text <:+ line ++ spread [p] := by
    subst hled
    unfold spread
    by_cases ho : p.opens <;> by_cases hl : line = [] <;> simp [ho, hl]
  have hled' : p.setOn room line =
      if led.length + p.text.length ≤ room then [led ++ p.text]
      else if p.text.length ≤ room then [line, p.text]
      else if room ≤ led.length then line :: chop room room p.text
      else (chop room (room - led.length) p.text).modifyHead (led ++ ·) := by
    rw [Piece.setOn, hled]
  -- The lines make up an end of the whole, or the line that was there comes before such an end.
  have of_flatten {ls : List Text} (h : ls.flatten <:+ line ++ spread [p]) :
      (∀ l ∈ ls, l <:+: line ++ spread [p]) ∧ ls.getLastD [] <:+ line ++ spread [p] :=
    ⟨fun l hl => (List.infix_of_mem_flatten hl).trans h.isInfix,
      (getLastD_suffix_flatten ls).trans h⟩
  have of_cons {ls : List Text} (hne : ls ≠ []) (h : ls.flatten <:+ line ++ spread [p]) :
      (∀ l ∈ line :: ls, l <:+: line ++ spread [p]) ∧
        (line :: ls).getLastD [] <:+ line ++ spread [p] := by
    obtain ⟨hall, hlast⟩ := of_flatten h
    refine ⟨?_, ?_⟩
    · rintro l hl
      rcases List.mem_cons.1 hl with rfl | hl
      · exact (List.prefix_append _ _).isInfix
      · exact hall l hl
    · obtain ⟨l, ls, rfl⟩ := List.exists_cons_of_ne_nil hne
      simpa using hlast
  rw [hled']
  split
  · exact of_flatten (by simpa using hset)
  · split
    · exact of_cons (by simp) (by simpa using hpiece)
    · split
      · exact of_cons (chop_ne_nil _ _ _) (by simpa using hpiece)
      · apply of_flatten
        rw [flatten_modifyHead_append (chop_ne_nil _ _ _), flatten_chop]
        exact hset

theorem infix_of_mem_fill {room : Nat} {ps : List Piece} {line l : Text}
    (h : l ∈ fill room line ps) : l <:+: line ++ spread ps := by
  induction ps generalizing line with
  | nil =>
    rw [fill] at h
    split at h
    · cases h
    · rw [List.mem_singleton.1 h]
      exact (List.prefix_append _ _).isInfix
  | cons p ps ih =>
    have hspread : line ++ spread (p :: ps) = line ++ spread [p] ++ spread ps := by
      simp [spread, List.flatMap_cons]
    obtain ⟨hall, u, hlast⟩ := infix_of_mem_setOn room line p
    rw [hspread]
    rcases List.mem_append.1 h with h | h
    · exact (hall l (List.dropLast_subset _ h)).trans (List.prefix_append _ _).isInfix
    · rw [← hlast, List.append_assoc]
      exact (ih h).trans (List.suffix_append _ _).isInfix

theorem spread_pieces (t : Text) : spread (pieces t) = (words t).flatMap (' ' :: ·) := by
  have hrest (ps : List Text) : spread (ps.map (⟨false, ·⟩)) = ps.flatten := by
    simp [spread, List.flatMap_map, List.flatMap_id']
  unfold pieces
  generalize words t = ws
  induction ws with
  | nil => rfl
  | cons w ws ih =>
    rw [List.flatMap_cons, List.flatMap_cons, ← ih]
    unfold spread
    rw [List.flatMap_append]
    congr 1
    have hw := flatten_hyphenPieces w
    obtain ⟨q, qs, hq⟩ := List.exists_cons_of_ne_nil (piecesFrom_ne_nil [] w)
    rw [hyphenPieces, hq] at hw ⊢
    rw [← hw, List.flatten_cons, ← hrest qs]
    simp [spread]

/-- A pattern that no blank of a text, and none that replaces it, can be part of. -/
structure Unbroken (p : Text) : Prop where
  ne_nil : p ≠ []
  noSpace : ' ' ∉ p
  noNewline : '\n' ∉ p

instance (p : Text) : Decidable (Unbroken p) :=
  decidable_of_iff (p ≠ [] ∧ ' ' ∉ p ∧ '\n' ∉ p)
    ⟨fun h => ⟨h.1, h.2.1, h.2.2⟩, fun h => ⟨h.ne_nil, h.noSpace, h.noNewline⟩⟩

theorem Unbroken.absent_wrap (hp : Unbroken p) (h : ¬ p <:+: t) (width indentation : Nat) :
    ¬ p <:+: wrap width indentation t := by
  have hspread : ¬ p <:+: spread (pieces t) := by
    have hwords : ∀ w ∈ words t, ¬ p <:+: w := fun w hw hpw => h (hpw.trans (infix_of_mem_words hw))
    have key : ∀ ws : List Text, (∀ w ∈ ws, ¬ p <:+: w) → ∀ x, ¬ p <:+: x →
        ¬ p <:+: x ++ ws.flatMap (' ' :: ·) := by
      intro ws
      induction ws with
      | nil => simp
      | cons w ws ih =>
        intro hws x hx
        obtain ⟨hw, hws⟩ := List.forall_mem_cons.1 hws
        exact (parts_singleton hp.ne_nil hp.noSpace).absent hx (ih hws w hw)
    rw [spread_pieces]
    exact key (words t) hwords [] (by simpa using hp.ne_nil)
  apply absent_join (parts_singleton hp.ne_nil hp.noNewline)
  intro l hl
  obtain ⟨line, hline, rfl⟩ := List.mem_map.1 hl
  obtain ⟨c, q, rfl⟩ := List.exists_cons_of_ne_nil hp.ne_nil
  rw [indent, infix_append_iff_of_head rfl]
  · exact fun hpl => hspread (hpl.trans (infix_of_mem_fill hline))
  · intro hc
    exact hp.noSpace (List.eq_of_mem_replicate hc ▸ List.mem_cons_self)

end SpirvTables.Text
