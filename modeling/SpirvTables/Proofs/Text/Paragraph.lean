import SpirvTables.Proofs.Text.Filling
import SpirvTables.Proofs.Text.Words

namespace SpirvTables.Text

variable {room : Nat} {t : Text} {p : Piece} {row ps : List Piece} {ls : List Text}

structure IsLine (room : Nat) (l : Text) : Prop where
  ne_nil : l ≠ []
  length_le : l.length ≤ room
  head : ∀ c ∈ l.head?, Character.isBlank c = false
  last : ∀ c ∈ l.getLast?, Character.isBlank c = false

theorem Solid.part {a b : Text} (hb : Solid b) (h : a <:+: b) (ha : a ≠ []) : Solid a where
  ne_nil := ha
  noBlank c hc := hb.noBlank c (h.subset hc)

theorem solid_of_mem_pieces (hp : p ∈ pieces t) : Solid p.text := by
  obtain ⟨w, hw, hpw⟩ := List.mem_flatMap.1 hp
  have hpiece : p.text ∈ hyphenPieces w := by
    split at hpw
    · cases hpw
    · next q qs hqs =>
      rw [hqs]
      rcases List.mem_cons.1 hpw with rfl | hpw
      · exact List.mem_cons_self
      · obtain ⟨x, hx, rfl⟩ := List.mem_map.1 hpw
        exact List.mem_cons_of_mem q hx
  have hinfix := List.infix_of_mem_flatten hpiece
  rw [flatten_hyphenPieces] at hinfix
  exact (solid_of_mem_words hw).part hinfix (ne_nil_of_mem_pieces hp)

theorem unblanked_rowText (ps : List Piece) : unblanked (rowText ps) = unblanked (spread ps) := by
  cases ps with
  | nil => rfl
  | cons p ps =>
    have hp : unblanked (spread [p]) = unblanked p.text := by
      cases ho : p.opens
      · simp [spread, ho]
      · simpa [spread, ho] using unblanked_cons_of_blank (by decide) p.text
    rw [rowText, unblanked_append, ← hp, ← unblanked_append, ← spread_append,
      List.singleton_append]

theorem Laid.unblanked_flatten (h : Laid room ps ls) :
    unblanked ls.flatten = unblanked (spread ps) := by
  induction h with
  | nil => rfl
  | last _ _ => rw [List.flatten_singleton, unblanked_rowText]
  | between _ _ _ _ ih =>
    rw [List.flatten_cons, unblanked_append, unblanked_rowText, ih, spread_append,
      unblanked_append]
  | @inside row ps o a b ls _ _ _ _ _ ih =>
    -- The blank before a piece comes before its head.
    have hsplit : spread (row ++ ⟨o, a ++ b⟩ :: ps) =
        spread (row ++ [⟨o, a⟩]) ++ spread (⟨false, b⟩ :: ps) := by
      cases o <;> simp [spread]
    rw [List.flatten_cons, unblanked_append, unblanked_rowText, ih, hsplit, unblanked_append]

theorem unblanked_spread_pieces (t : Text) : unblanked (spread (pieces t)) = unblanked t := by
  have hwords (ws : List Text) :
      unblanked (ws.flatMap (' ' :: ·)) = unblanked ws.flatten := by
    induction ws with
    | nil => rfl
    | cons w ws ih =>
      rw [List.flatMap_cons, List.cons_append, unblanked_cons_of_blank (by decide),
        unblanked_append, ih, List.flatten_cons, unblanked_append]
  rw [spread_pieces, hwords, flatten_words, unblanked, unblanked, List.filter_filter]
  simp

theorem isLine_rowText (hrow : row ≠ []) (hps : ∀ p ∈ row, Solid p.text)
    (hfits : (rowText row).length ≤ room) : IsLine room (rowText row) where
  ne_nil := rowText_ne_nil hrow fun p hp => (hps p hp).ne_nil
  length_le := hfits
  head c hc := by
    obtain ⟨p, row, rfl⟩ := List.exists_cons_of_ne_nil hrow
    have hp := hps p List.mem_cons_self
    obtain ⟨d, w, hw⟩ := List.exists_cons_of_ne_nil hp.ne_nil
    rw [rowText, hw] at hc
    obtain rfl : d = c := Option.some.inj hc
    exact hp.noBlank d (hw ▸ List.mem_cons_self)
  last c hc := by
    rcases List.eq_nil_or_concat row with rfl | ⟨row, p, rfl⟩
    · exact absurd rfl hrow
    · have hp := hps p (by simp)
      rw [List.concat_eq_append, rowText_concat row p.opens p.text,
        List.getLast?_append, List.getLast?_eq_some_getLast hp.ne_nil] at hc
      obtain rfl := Option.some.inj hc
      exact hp.noBlank _ (List.getLast_mem hp.ne_nil)

theorem Laid.exists_row (h : Laid room ps ls) (hps : ∀ p ∈ ps, Solid p.text) :
    ∀ l ∈ ls, ∃ row, row ≠ [] ∧ (∀ p ∈ row, Solid p.text) ∧ l = rowText row ∧
      l.length ≤ room := by
  induction h with
  | nil => simp
  | last hrow hfits =>
    intro l hl
    rw [List.mem_singleton.1 hl]
    exact ⟨_, hrow, hps, rfl, hfits⟩
  | between hrow hfits _ _ ih =>
    rw [List.forall_mem_append] at hps
    exact List.forall_mem_cons.2 ⟨⟨_, hrow, hps.1, rfl, hfits⟩, ih hps.2⟩
  | @inside row ps o a b ls ha hb _ hfull _ ih =>
    rw [List.forall_mem_append, List.forall_mem_cons] at hps
    obtain ⟨hrow, hab, hps⟩ := hps
    have ha := hab.part (List.prefix_append a b).isInfix ha
    have hb := hab.part (List.suffix_append a b).isInfix hb
    refine List.forall_mem_cons.2
      ⟨⟨_, by simp, ?_, rfl, Nat.le_of_eq hfull⟩, ih (List.forall_mem_cons.2 ⟨hb, hps⟩)⟩
    rw [List.forall_mem_append]
    exact ⟨hrow, by simpa using ha⟩

theorem Laid.isLine (h : Laid room ps ls) (hps : ∀ p ∈ ps, Solid p.text) :
    ∀ l ∈ ls, IsLine room l := by
  intro l hl
  obtain ⟨row, hne, hrow, rfl, hfits⟩ := h.exists_row hps l hl
  exact isLine_rowText hne hrow hfits

theorem laid_filled (hroom : 0 < room) (t : Text) : Laid room (pieces t) (filled room t) :=
  laid_fill hroom [] (pieces t) (fun _ hp => ne_nil_of_mem_pieces hp) (Nat.zero_le _)

theorem roomFor_pos (width indentation : Nat) : 0 < roomFor width indentation :=
  Nat.le_max_right _ _

theorem unblanked_wrap (width indentation : Nat) (t : Text) :
    unblanked (wrap width indentation t) = unblanked t := by
  have hnewline : ∀ c ∈ ['\n'], Character.isBlank c := List.all_eq_true.1 (by decide)
  have hindent (ls : List Text) :
      unblanked (ls.map (indent indentation)).flatten = unblanked ls.flatten := by
    induction ls with
    | nil => rfl
    | cons l ls ih => simp [ih]
  rw [wrap, unblanked_join hnewline, hindent,
    (laid_filled (roomFor_pos width indentation) t).unblanked_flatten, unblanked_spread_pieces]

theorem filled_of_isAllBlank (h : t.isAllBlank) : filled room t = [] := by
  rw [filled, pieces, words_eq_nil_iff.2 h]
  rfl

theorem wrap_eq_nil_iff (width indentation : Nat) (t : Text) :
    wrap width indentation t = [] ↔ t.isAllBlank := by
  constructor
  · intro h
    rw [← unblanked_eq_nil_iff, ← unblanked_wrap width indentation, h]
    rfl
  · intro h
    rw [wrap, filled_of_isAllBlank h]
    rfl

theorem lines_wrap (width indentation : Nat) (h : ¬ t.isAllBlank) :
    lines (wrap width indentation t) =
      (filled (roomFor width indentation) t).map (indent indentation) := by
  have hne : filled (roomFor width indentation) t ≠ [] := by
    intro hnil
    apply h
    rw [← wrap_eq_nil_iff width indentation, wrap, hnil]
    rfl
  have hnewline : ∀ l ∈ (filled (roomFor width indentation) t).map (indent indentation),
      '\n' ∉ l := by
    intro l hl
    obtain ⟨content, hcontent, rfl⟩ := List.mem_map.1 hl
    rw [indent, List.mem_append, not_or]
    refine ⟨fun hspace => ?_, newline_notMem_of_mem_filled hcontent⟩
    exact absurd (List.eq_of_mem_replicate hspace) (by decide)
  exact lines_join hnewline (by simpa using hne)

theorem exists_content {width indentation : Nat} {l : Text} (h : ¬ t.isAllBlank)
    (hl : l ∈ lines (wrap width indentation t)) :
    ∃ content, l = indent indentation content ∧ IsLine (roomFor width indentation) content := by
  rw [lines_wrap width indentation h] at hl
  obtain ⟨content, hcontent, rfl⟩ := List.mem_map.1 hl
  have hlaid := laid_filled (roomFor_pos width indentation) t
  exact ⟨content, rfl, hlaid.isLine (fun _ hp => solid_of_mem_pieces hp) content hcontent⟩

/-- The pieces of a text are set in finitely many rounds, and in one way. The paragraph is empty if
the text is blank. Otherwise each of its lines is an indent and a content that is not empty, has its
place beside the indent and is blank at neither end. Blanks aside, it has the characters of the
text. -/
theorem wrap_bounded (width indentation : Nat) (t : Text) :
    (∃ ls, (∀ ls', Rounds (roomFor width indentation) [] (pieces t) ls' ↔ ls' = ls) ∧
        wrap width indentation t = join ['\n'] (ls.map (indent indentation))) ∧
      (wrap width indentation t = [] ↔ t.isAllBlank) ∧
      (¬ t.isAllBlank → ∀ l ∈ lines (wrap width indentation t),
        ∃ content, l = indent indentation content ∧
          IsLine (roomFor width indentation) content) ∧
      unblanked (wrap width indentation t) = unblanked t := by
  have hroom := roomFor_pos width indentation
  exact ⟨⟨_, fun ls => rounds_iff hroom, rfl⟩, wrap_eq_nil_iff width indentation t,
    fun ht l hl => exists_content ht hl, unblanked_wrap width indentation t⟩

def overlongText : Text := "a non-uniformly\tscaled "

theorem wrap_bounded_overlong :
    ¬ overlongText.isAllBlank ∧ overlongText ≠ unblanked overlongText ∧
      (∀ l ∈ lines (wrap 2 3 overlongText), ∃ content, l = indent 3 content ∧ IsLine 1 content) ∧
      unblanked (wrap 2 3 overlongText) = unblanked overlongText := by
  have hblank : ¬ overlongText.isAllBlank := by decide +kernel
  obtain ⟨-, -, hlines, hkept⟩ := wrap_bounded 2 3 overlongText
  exact ⟨hblank, by decide +kernel, hlines hblank, hkept⟩

end SpirvTables.Text
