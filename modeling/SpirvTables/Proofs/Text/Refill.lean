import SpirvTables.Proofs.Text.Paragraph

/-!
A paragraph that is wrapped already stays as it is. The words that its lines broke are words of
their own now, but no part of a word is broken where the word was not, and so each line takes the
pieces that it had and has no place for the first of the next.
-/

namespace SpirvTables.Text

variable {room : Nat} {t w : Text} {p : Piece} {row ps qs : List Piece} {ls : List Text}

def continuation : List Piece → Text
  | [] => []
  | p :: ps => if p.opens then [] else p.text ++ continuation ps

def begun : List Piece → List Text
  | [] => []
  | p :: ps => if p.opens then (p.text ++ continuation ps) :: begun ps else begun ps

def FirmPieces : List Piece → Prop
  | [] => True
  | p :: ps => Firm p.text (continuation ps) ∧ FirmPieces ps

theorem spread_eq (ps : List Piece) :
    spread ps = continuation ps ++ (begun ps).flatMap (' ' :: ·) := by
  induction ps with
  | nil => rfl
  | cons p ps ih =>
    rw [← List.singleton_append, spread_append, ih, List.singleton_append, continuation, begun]
    cases ho : p.opens <;> simp [spread, ho]

theorem continuation_append (ps : List Piece) (h : continuation qs = []) :
    continuation (ps ++ qs) = continuation ps := by
  induction ps with
  | nil => exact h
  | cons p ps ih => rw [List.cons_append, continuation, continuation, ih]

theorem continuation_prefix_append (ps qs : List Piece) :
    continuation ps <+: continuation (ps ++ qs) := by
  induction ps with
  | nil => exact List.nil_prefix
  | cons p ps ih =>
    rw [List.cons_append, continuation, continuation]
    split
    · exact List.nil_prefix
    · exact (List.prefix_append_right_inj _).2 ih

theorem continuation_prefix_inside (row ps : List Piece) (o : Bool) (a b : Text) :
    continuation (row ++ [⟨o, a⟩]) <+: continuation (row ++ ⟨o, a ++ b⟩ :: ps) := by
  induction row with
  | nil => cases o <;> simp [continuation]
  | cons p row ih =>
    rw [List.cons_append, List.cons_append, continuation, continuation]
    split
    · exact List.nil_prefix
    · exact (List.prefix_append_right_inj _).2 ih

theorem noBlank_continuation (h : ∀ p ∈ ps, Solid p.text) :
    ∀ c ∈ continuation ps, Character.isBlank c = false := by
  induction ps with
  | nil => simp [continuation]
  | cons p ps ih =>
    obtain ⟨hp, hps⟩ := List.forall_mem_cons.1 h
    rw [continuation]
    split
    · simp
    · rw [List.forall_mem_append]
      exact ⟨hp.noBlank, ih hps⟩

theorem solid_append_continuation (hp : Solid p.text) (h : ∀ q ∈ ps, Solid q.text) :
    Solid (p.text ++ continuation ps) where
  ne_nil := by simp [hp.ne_nil]
  noBlank := List.forall_mem_append.2 ⟨hp.noBlank, noBlank_continuation h⟩

theorem solid_of_mem_begun (h : ∀ p ∈ ps, Solid p.text) : ∀ w ∈ begun ps, Solid w := by
  induction ps with
  | nil => simp [begun]
  | cons p ps ih =>
    obtain ⟨hp, hps⟩ := List.forall_mem_cons.1 h
    rw [begun]
    split
    · exact List.forall_mem_cons.2 ⟨solid_append_continuation hp hps, ih hps⟩
    · exact ih hps

theorem rowText_cons_eq (p : Piece) (ps : List Piece) :
    rowText (p :: ps) = (p.text ++ continuation ps) ++ (begun ps).flatMap (' ' :: ·) := by
  rw [rowText, spread_eq, List.append_assoc]

theorem words_rowText (h : ∀ q ∈ p :: ps, Solid q.text) :
    words (rowText (p :: ps)) = (p.text ++ continuation ps) :: begun ps := by
  obtain ⟨hp, hps⟩ := List.forall_mem_cons.1 h
  rw [rowText_cons_eq]
  exact words_spread (solid_append_continuation hp hps) (solid_of_mem_begun hps)

def wordPieces (w : Text) : List Piece :=
  match hyphenPieces w with
  | [] => []
  | p :: ps => ⟨true, p⟩ :: ps.map (⟨false, ·⟩)

theorem pieces_eq (t : Text) : pieces t = (words t).flatMap wordPieces := rfl

theorem exists_wordPieces (w : Text) :
    ∃ q qs, hyphenPieces w = q :: qs ∧ wordPieces w = ⟨true, q⟩ :: qs.map (⟨false, ·⟩) := by
  obtain ⟨q, qs, hq⟩ := List.exists_cons_of_ne_nil (piecesFrom_ne_nil [] w)
  refine ⟨q, qs, hq, ?_⟩
  rw [wordPieces, hyphenPieces, hq]

theorem exists_pieces_of_words {ws : List Text} (h : words t = w :: ws) :
    ∃ q qs rest, hyphenPieces w = q :: qs ∧ pieces t = ⟨true, q⟩ :: rest := by
  obtain ⟨q, qs, hq, hw⟩ := exists_wordPieces w
  refine ⟨q, qs, qs.map (⟨false, ·⟩) ++ ws.flatMap wordPieces, hq, ?_⟩
  rw [pieces_eq, h, List.flatMap_cons, hw, List.cons_append]

theorem rowText_pieces (h : ∀ q ∈ p :: ps, Solid q.text) :
    rowText (pieces (rowText (p :: ps))) = rowText (p :: ps) := by
  obtain ⟨q, qs, rest, -, hpieces⟩ := exists_pieces_of_words (words_rowText h)
  have hspread := spread_pieces (rowText (p :: ps))
  rw [words_rowText h, List.flatMap_cons, List.cons_append, ← rowText_cons_eq, hpieces] at hspread
  have hopen : spread (⟨true, q⟩ :: rest) = ' ' :: rowText (⟨true, q⟩ :: rest) := rfl
  rw [hpieces]
  exact (List.cons.inj (hopen ▸ hspread)).2

theorem FirmPieces.of_append (h : FirmPieces (ps ++ qs)) : FirmPieces qs := by
  induction ps with
  | nil => exact h
  | cons p ps ih => exact ih h.2

theorem FirmPieces.tail (h : FirmPieces ps) : FirmPieces ps.tail := by
  cases ps with
  | nil => exact h
  | cons p ps => exact h.2

theorem FirmPieces.append (hps : FirmPieces ps) (hqs : FirmPieces qs)
    (h : continuation qs = []) : FirmPieces (ps ++ qs) := by
  induction ps with
  | nil => exact hqs
  | cons p ps ih =>
    have hp : Firm p.text (continuation (ps ++ qs)) := by
      rw [continuation_append ps h]
      exact hps.1
    exact ⟨hp, ih hps.2⟩

theorem continuation_map (ts : List Text) :
    continuation (ts.map (⟨false, ·⟩)) = ts.flatten := by
  induction ts with
  | nil => rfl
  | cons s ts ih => simp [continuation, ih]

theorem firmPieces_of_hyphenPieces {ss ts : List Text}
    (h : hyphenPieces w = ss ++ ts) : FirmPieces (ts.map (⟨false, ·⟩)) := by
  induction ts generalizing ss with
  | nil => trivial
  | cons s ts ih =>
    have hrest : hyphenPieces w = (ss ++ [s]) ++ ts := by rw [h, List.append_cons]
    refine ⟨?_, ih hrest⟩
    rw [continuation_map]
    exact firm_of_hyphenPieces h

theorem firmPieces_pieces (t : Text) : FirmPieces (pieces t) := by
  have key (ws : List Text) : FirmPieces (ws.flatMap wordPieces) ∧
      continuation (ws.flatMap wordPieces) = [] := by
    induction ws with
    | nil => exact ⟨trivial, rfl⟩
    | cons w ws ih =>
      obtain ⟨q, qs, hq, hw⟩ := exists_wordPieces w
      rw [List.flatMap_cons, hw]
      refine ⟨FirmPieces.append ⟨?_, ?_⟩ ih.1 ih.2, rfl⟩
      · rw [continuation_map]
        exact firm_of_hyphenPieces (hq.trans (List.nil_append (q :: qs)).symm)
      · exact firmPieces_of_hyphenPieces (hq.trans List.singleton_append.symm)
  exact (key (words t)).1

/-- Lines that are filled again as they stand: each is made up of its own pieces, and it has no
place for the first piece of the next. -/
inductive Settled (room : Nat) : List Text → Prop
  | nil : Settled room []
  | last {l : Text} : l ≠ [] → rowText (pieces l) = l → l.length ≤ room → Settled room [l]
  | cons {l l' q : Text} {qs : List Piece} {ls : List Text} :
    l ≠ [] → rowText (pieces l) = l → l.length ≤ room → pieces l' = ⟨true, q⟩ :: qs →
      q.length ≤ room → room < l.length + 1 + q.length → Settled room (l' :: ls) →
        Settled room (l :: l' :: ls)

theorem Rounds.of_row (hps : ∀ p ∈ row ++ ps, p.text ≠ [])
    (hfits : (rowText (row ++ ps)).length ≤ room)
    (h : Rounds room (rowText (row ++ ps)) qs ls) : Rounds room (rowText row) (ps ++ qs) ls := by
  induction ps generalizing row with
  | nil => simpa using h
  | cons p ps ih =>
    rw [List.append_cons] at hps hfits h
    have hlead : p.lead (rowText row) = lineFor row p.opens :=
      lead_rowText (fun q hq => hps q (by simp [hq])) p
    have hconcat := rowText_concat row p.opens p.text
    have hset : (rowText (row ++ [p])).length ≤ room :=
      Nat.le_trans (length_rowText_le (List.prefix_append (row ++ [p]) ps).isInfix) hfits
    refine .set ?_ ?_
    · rwa [hlead, ← List.length_append, ← hconcat]
    · rw [hlead, ← hconcat]
      exact ih hps hfits h

theorem Settled.rounds (h : Settled room ls) : Rounds room [] (ls.flatMap pieces) ls := by
  have open_line {l : Text} {ps : List Piece} {ls : List Text} (hl : rowText (pieces l) = l)
      (hfits : l.length ≤ room) (hrest : Rounds room l ps ls) :
      Rounds room [] (pieces l ++ ps) ls := by
    have hne : ∀ p ∈ [] ++ pieces l, p.text ≠ [] := fun _ hp => ne_nil_of_mem_pieces hp
    exact Rounds.of_row hne (hl.symm ▸ hfits) (hl.symm ▸ hrest)
  induction h with
  | nil => exact .nothing
  | last hne hl hfits => exact open_line hl hfits (.last hne)
  | @cons l l' q qs ls hne hl hfits hpieces hq hover _ ih =>
    rw [List.flatMap_cons, hpieces, List.cons_append] at ih
    rw [List.flatMap_cons, List.flatMap_cons, hpieces, List.cons_append]
    have hlead : (⟨true, q⟩ : Piece).lead l = l ++ [' '] := Piece.lead_of_opens rfl hne
    refine open_line hl hfits (.close ?_ (.inl hq) ih)
    rw [hlead]
    simpa using hover

theorem Laid.first_line (h : Laid room (p :: ps) ls) (hps : ∀ q ∈ p :: ps, Solid q.text) :
    ∃ p' row ls', ls = rowText (p' :: row) :: ls' ∧ (∀ q ∈ p' :: row, Solid q.text) ∧
      (p.text.length ≤ room → p' = p ∧ continuation row <+: continuation ps) := by
  generalize hqs : p :: ps = qs at h hps
  cases h with
  | nil => cases hqs
  | last _ _ =>
    subst hqs
    exact ⟨p, ps, [], rfl, hps, fun _ => ⟨rfl, List.prefix_rfl⟩⟩
  | @between row ps' p' ls hrow _ _ _ =>
    obtain ⟨p, row, rfl⟩ := List.exists_cons_of_ne_nil hrow
    obtain ⟨rfl, rfl⟩ := List.cons.inj hqs
    exact ⟨p, row, ls, rfl, fun q hq => hps q (List.mem_append_left _ hq),
      fun _ => ⟨rfl, continuation_prefix_append row _⟩⟩
  | @inside row ps' o a b ls ha _ hwide _ _ =>
    obtain ⟨hrow, hrest⟩ := List.forall_mem_append.1 hps
    have hhead : Solid a :=
      (hrest _ List.mem_cons_self).part (List.prefix_append a b).isInfix ha
    cases row with
    | nil =>
      obtain ⟨rfl, rfl⟩ := List.cons.inj hqs
      exact ⟨⟨o, a⟩, [], ls, rfl, by simpa using hhead,
        fun hp => absurd hp (Nat.not_le_of_lt hwide)⟩
    | cons p row =>
      obtain ⟨rfl, rfl⟩ := List.cons.inj hqs
      refine ⟨p, row ++ [⟨o, a⟩], ls, rfl, ?_,
        fun _ => ⟨rfl, continuation_prefix_inside row ps' o a b⟩⟩
      rw [← List.cons_append, List.forall_mem_append]
      exact ⟨hrow, by simpa using hhead⟩

theorem Laid.first_piece (h : Laid room (p :: ps) ls) (hps : ∀ q ∈ p :: ps, Solid q.text) :
    ∃ l' ls' q qs, ls = l' :: ls' ∧ pieces l' = ⟨true, q⟩ :: qs ∧ q ≠ [] ∧ q.length ≤ room ∧
      (p.text.length ≤ room → Firm p.text (continuation ps) → p.text.length ≤ q.length) := by
  obtain ⟨p', row, ls', rfl, hrow, hfirst⟩ := h.first_line hps
  obtain ⟨q, qs, rest, hq, hpieces⟩ := exists_pieces_of_words (words_rowText hrow)
  have hmem : (⟨true, q⟩ : Piece) ∈ pieces (rowText (p' :: row)) := hpieces ▸ List.mem_cons_self
  have hle : q.length ≤ (rowText (p' :: row)).length := by
    rw [← rowText_pieces hrow, hpieces, rowText, List.length_append]
    exact Nat.le_add_right _ _
  obtain ⟨_, _, _, _, hfits⟩ := h.exists_row hps _ List.mem_cons_self
  refine ⟨_, ls', q, rest, rfl, hpieces, ne_nil_of_mem_pieces hmem, Nat.le_trans hle hfits, ?_⟩
  intro hp hfirm
  obtain ⟨rfl, hprefix⟩ := hfirst hp
  exact hfirm _ q qs ((List.prefix_append_right_inj _).2 hprefix) (by simp) hq

theorem Laid.settled (h : Laid room ps ls) (hps : ∀ p ∈ ps, Solid p.text)
    (hfirm : FirmPieces ps.tail) : Settled room ls := by
  have standing {row : List Piece} (hrow : row ≠ []) (hsolid : ∀ q ∈ row, Solid q.text) :
      rowText row ≠ [] ∧ rowText (pieces (rowText row)) = rowText row := by
    obtain ⟨q, row, rfl⟩ := List.exists_cons_of_ne_nil hrow
    exact ⟨rowText_ne_nil hrow fun p hp => (hsolid p hp).ne_nil, rowText_pieces hsolid⟩
  induction h with
  | nil => exact .nil
  | last hrow hfits =>
    obtain ⟨hne, hown⟩ := standing hrow hps
    exact .last hne hown hfits
  | @between row ps p ls hrow hfits hover hrest ih =>
    obtain ⟨hsolid, hps⟩ := List.forall_mem_append.1 hps
    obtain ⟨hne, hown⟩ := standing hrow hsolid
    have hfirm : FirmPieces (p :: ps) := by
      obtain ⟨q, row, rfl⟩ := List.exists_cons_of_ne_nil hrow
      exact FirmPieces.of_append hfirm
    obtain ⟨l', ls', q, qs, rfl, hpieces, hq, hqfits, hlonger⟩ := hrest.first_piece hps
    refine .cons hne hown hfits hpieces hqfits ?_ (ih hps hfirm.2)
    have hlead := Piece.length_lead_le (rowText row) p
    rw [lead_rowText fun q hq => (hsolid q hq).ne_nil] at hlead
    unfold Overflows at hover
    split at hover
    · next hp =>
      have := hlonger hp hfirm.1
      rw [rowText_concat row p.opens p.text, List.length_append] at hover
      omega
    · have := List.length_pos_iff.2 hq
      omega
  | @inside row ps o a b ls ha hb _ hfull hrest ih =>
    obtain ⟨hrow, hps⟩ := List.forall_mem_append.1 hps
    obtain ⟨hab, hps⟩ := List.forall_mem_cons.1 hps
    have hsolid : ∀ q ∈ row ++ [⟨o, a⟩], Solid q.text := by
      rw [List.forall_mem_append]
      exact ⟨hrow, by simpa using hab.part (List.prefix_append a b).isInfix ha⟩
    have htail : ∀ q ∈ (⟨false, b⟩ : Piece) :: ps, Solid q.text :=
      List.forall_mem_cons.2 ⟨hab.part (List.suffix_append a b).isInfix hb, hps⟩
    obtain ⟨hne, hown⟩ := standing (by simp) hsolid
    have hrestFirm : FirmPieces ps := by
      cases row with
      | nil => exact hfirm
      | cons q row => exact (FirmPieces.of_append hfirm).2
    obtain ⟨l', ls', q, qs, rfl, hpieces, hq, hqfits, -⟩ := hrest.first_piece htail
    have hpos := List.length_pos_iff.2 hq
    exact .cons hne hown (Nat.le_of_eq hfull) hpieces hqfits (by omega) (ih htail hrestFirm)

theorem settled_filled (hroom : 0 < room) (t : Text) : Settled room (filled room t) :=
  (laid_filled hroom t).settled (fun _ hp => solid_of_mem_pieces hp) (firmPieces_pieces t).tail

theorem pieces_wrap (width indentation : Nat) (t : Text) :
    pieces (wrap width indentation t) =
      (filled (roomFor width indentation) t).flatMap pieces := by
  rw [pieces_eq, wrap, words_join_newline, List.flatMap_map]
  simp only [words_indent]
  rw [List.flatMap_assoc]
  rfl

theorem wrap_wrap (width indentation : Nat) (t : Text) :
    wrap width indentation (wrap width indentation t) = wrap width indentation t := by
  have hroom := roomFor_pos width indentation
  have hrounds := (settled_filled hroom t).rounds
  have hfilled : filled (roomFor width indentation) (wrap width indentation t) =
      filled (roomFor width indentation) t := by
    rw [filled, pieces_wrap, ← hrounds.eq_fill hroom]
  rw [wrap, hfilled, wrap]

/-- Broken inside a piece, the word has but one letter left behind its hyphen, where it may not be
broken any more. -/
example : pieces "co-ordinates-b" = [⟨true, "co-"⟩, ⟨false, "ordinates-b"⟩] ∧
    wrap 5 1 "co-ordinates-b" = " co-o\n rdin\n ates\n -b" ∧
    pieces " co-o\n rdin\n ates\n -b" =
      [⟨true, "co-o"⟩, ⟨true, "rdin"⟩, ⟨true, "ates"⟩, ⟨true, "-b"⟩] := by
  decide +kernel

end SpirvTables.Text
