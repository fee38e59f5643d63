import SpirvTables.Proofs.Text.Hyphen
import SpirvTables.Proofs.Text.Lower
import SpirvTables.Proofs.Text.Rounds

namespace SpirvTables.Text

variable {room : Nat} {t : Text} {p : Piece} {row ps qs : List Piece}
  {rows : List (List Piece)} {ls : List Text}

def rowText : List Piece → Text
  | [] => []
  | p :: ps => p.text ++ spread ps

def lineFor (row : List Piece) (opens : Bool) : Text :=
  if opens ∧ row ≠ [] then rowText row ++ [' '] else rowText row

theorem spread_append (ps qs : List Piece) : spread (ps ++ qs) = spread ps ++ spread qs :=
  List.flatMap_append

theorem rowText_append (h : row ≠ []) (ps : List Piece) :
    rowText (row ++ ps) = rowText row ++ spread ps := by
  obtain ⟨p, row, rfl⟩ := List.exists_cons_of_ne_nil h
  rw [List.cons_append, rowText, rowText, spread_append, List.append_assoc]

theorem rowText_concat (row : List Piece) (o : Bool) (a : Text) :
    rowText (row ++ [⟨o, a⟩]) = lineFor row o ++ a := by
  by_cases hrow : row = []
  · simp [hrow, rowText, lineFor, spread]
  · cases o <;> simp [rowText_append hrow, lineFor, hrow, spread]

theorem length_rowText_le_spread (ps : List Piece) : (rowText ps).length ≤ (spread ps).length := by
  cases ps with
  | nil => exact Nat.zero_le _
  | cons p ps =>
    have hp : p.text.length ≤ (spread [p]).length := by
      cases ho : p.opens <;> simp [spread, ho]
    rw [rowText, ← List.singleton_append, spread_append, List.length_append, List.length_append]
    omega

theorem length_rowText_le (h : ps <:+: qs) : (rowText ps).length ≤ (rowText qs).length := by
  obtain ⟨x, y, rfl⟩ := h
  by_cases hx : x = []
  · by_cases hps : ps = []
    · simp [hps, rowText]
    · rw [hx, List.nil_append, rowText_append hps, List.length_append]
      exact Nat.le_add_right _ _
  · rw [List.append_assoc, rowText_append hx, spread_append]
    have := length_rowText_le_spread ps
    simp only [List.length_append]
    omega

theorem rowText_ne_nil (hrow : row ≠ []) (h : ∀ q ∈ row, q.text ≠ []) : rowText row ≠ [] := by
  obtain ⟨q, row, rfl⟩ := List.exists_cons_of_ne_nil hrow
  simp [rowText, h q List.mem_cons_self]

/-- A piece has no place behind a row. One that is wider than a line has, as long as there is a
place left. -/
def Overflows (room : Nat) (row : List Piece) (p : Piece) : Prop :=
  if p.text.length ≤ room then room < (rowText (row ++ [p])).length
  else room ≤ (lineFor row p.opens).length

/-- Lines that the pieces are set on, one after another: a line ends behind all pieces, between two
of them, or inside one that is wider than a line. -/
inductive Laid (room : Nat) : List Piece → List Text → Prop
  | nil : Laid room [] []
  | last {row : List Piece} :
    row ≠ [] → (rowText row).length ≤ room → Laid room row [rowText row]
  | between {row ps : List Piece} {p : Piece} {ls : List Text} :
    row ≠ [] → (rowText row).length ≤ room → Overflows room row p →
      Laid room (p :: ps) ls → Laid room (row ++ p :: ps) (rowText row :: ls)
  | inside {row ps : List Piece} {o : Bool} {a b : Text} {ls : List Text} :
    a ≠ [] → b ≠ [] → room < (a ++ b).length → (rowText (row ++ [⟨o, a⟩])).length = room →
      Laid room (⟨false, b⟩ :: ps) ls →
        Laid room (row ++ ⟨o, a ++ b⟩ :: ps) (rowText (row ++ [⟨o, a⟩]) :: ls)

theorem lead_rowText (hrow : ∀ q ∈ row, q.text ≠ []) (p : Piece) :
    p.lead (rowText row) = lineFor row p.opens := by
  have hnil : rowText row ≠ [] ↔ row ≠ [] :=
    ⟨fun h hnil => h (hnil ▸ rfl), fun h => rowText_ne_nil h hrow⟩
  unfold Piece.lead lineFor
  simp only [hnil]

theorem Rounds.laid {line : Text} (h : Rounds room line ps ls) (hroom : 0 < room)
    (hline : line = rowText row) (hne : ∀ q ∈ row ++ ps, q.text ≠ [])
    (hfits : line.length ≤ room) : Laid room (row ++ ps) ls := by
  induction h generalizing row with
  | nothing =>
    rw [List.append_nil] at hne ⊢
    by_cases hrow : row = []
    · subst hrow
      exact .nil
    · exact absurd hline.symm (rowText_ne_nil hrow hne)
  | last hopen =>
    rw [List.append_nil]
    subst hline
    have hrow : row ≠ [] := by
      rintro rfl
      exact hopen rfl
    exact .last hrow hfits
  | @set line p ps ls hset _ ih =>
    subst hline
    rw [lead_rowText fun q hq => hne q (List.mem_append_left _ hq)] at hset ih
    have hconcat := rowText_concat row p.opens p.text
    rw [List.append_cons]
    apply ih hconcat.symm
    · rwa [← List.append_cons]
    · rwa [List.length_append]
  | @close line p ps ls hover hclose _ ih =>
    subst hline
    have hlead := lead_rowText (fun q hq => hne q (List.mem_append_left _ hq)) p
    rw [hlead] at hover hclose
    have hrow : row ≠ [] := by
      rintro rfl
      simp only [lineFor, ne_eq, not_true_eq_false, and_false, if_false, rowText,
        List.length_nil, Nat.le_zero] at hover hclose
      omega
    have hoverflows : Overflows room row p := by
      unfold Overflows
      split
      · rwa [rowText_concat row p.opens p.text, List.length_append]
      · next hp => exact hclose.resolve_left hp
    exact .between hrow hfits hoverflows
      (@ih [] rfl (fun q hq => hne q (List.mem_append_right row hq)) (Nat.zero_le room))
  | @cut line p ps ls hwide hfree _ ih =>
    subst hline
    rw [lead_rowText fun q hq => hne q (List.mem_append_left _ hq)] at hfree ih ⊢
    generalize hn : room - (lineFor row p.opens).length = n at ih ⊢
    have hhead : (p.text.take n).length = n := List.length_take_of_le (by omega)
    have htail : (p.text.drop n).length = p.text.length - n := List.length_drop
    have ha : p.text.take n ≠ [] := List.ne_nil_of_length_pos (by omega)
    have hb : p.text.drop n ≠ [] := List.ne_nil_of_length_pos (by omega)
    have hconcat := rowText_concat row p.opens (p.text.take n)
    have hrest : Laid room (⟨false, p.text.drop n⟩ :: ps) ls := by
      apply @ih [] rfl
      · intro q hq
        rcases List.mem_cons.1 hq with rfl | hq
        · exact hb
        · exact hne q (by simp [hq])
      · exact Nat.zero_le room
    have hinside : Laid room (row ++ ⟨p.opens, p.text.take n ++ p.text.drop n⟩ :: ps)
        (rowText (row ++ [⟨p.opens, p.text.take n⟩]) :: ls) := by
      refine .inside ha hb ?_ ?_ hrest
      · rwa [List.take_append_drop]
      · rw [hconcat, List.length_append, hhead]
        omega
    rwa [List.take_append_drop, hconcat] at hinside

theorem laid_fill (hroom : 0 < room) (row ps : List Piece) (hne : ∀ q ∈ row ++ ps, q.text ≠ [])
    (hfits : (rowText row).length ≤ room) : Laid room (row ++ ps) (fill room (rowText row) ps) :=
  (rounds_fill hroom (rowText row) ps).laid hroom rfl hne hfits

example : filled 4 "a bcdefgh i" = [("a bc" : Text), "defg", "h i"] := by decide +kernel

/-- Lines that pieces can be set on without breaking one. -/
structure Setting (room : Nat) (ps : List Piece) (rows : List (List Piece)) : Prop where
  flatten : rows.flatten = ps
  fits : ∀ row ∈ rows, (rowText row).length ≤ room

theorem Laid.exists_setting (h : Laid room ps ls) (hps : ∀ p ∈ ps, p.text.length ≤ room) :
    ∃ rows, Setting room ps rows ∧ ls = rows.map rowText := by
  induction h with
  | nil => exact ⟨[], ⟨rfl, by simp⟩, rfl⟩
  | @last row _ hfits => exact ⟨[row], ⟨by simp, by simpa using hfits⟩, rfl⟩
  | @between row ps p ls _ hfits _ _ ih =>
    obtain ⟨rows, hrows, rfl⟩ := ih fun q hq => hps q (List.mem_append_right row hq)
    exact ⟨row :: rows, ⟨by rw [List.flatten_cons, hrows.flatten],
      List.forall_mem_cons.2 ⟨hfits, hrows.fits⟩⟩, rfl⟩
  | @inside row ps o a b ls _ _ hwide _ _ _ =>
    exact absurd (hps ⟨o, a ++ b⟩ (by simp)) (Nat.not_le_of_lt hwide)

theorem suffix_of_overflows {first : List Piece} (hfits : (rowText first).length ≤ room)
    (hover : room < (rowText (row ++ [p])).length) (h : row ++ p :: ps <:+ first ++ qs) :
    p :: ps <:+ qs := by
  have hbehind : p :: ps <:+ first ++ qs := (List.suffix_append row (p :: ps)).trans h
  rcases List.suffix_or_suffix_of_suffix hbehind (List.suffix_append first qs) with hsuf | ⟨y, hy⟩
  · exact hsuf
  · cases y with
    | nil => exact hy ▸ List.suffix_rfl
    | cons q y =>
      -- The first line would hold the row and the piece behind it.
      obtain ⟨rfl, rfl⟩ := List.cons.inj hy
      obtain ⟨x, hx⟩ := h
      have hall : first ++ qs = x ++ (row ++ [q]) ++ y ++ qs := by simp [← hx]
      have hfirst := List.append_cancel_right hall
      have hle : (rowText (row ++ [q])).length ≤ (rowText first).length :=
        length_rowText_le ⟨x, y, hfirst.symm⟩
      omega

theorem Laid.length_le (h : Laid room ps ls) (hps : ∀ p ∈ ps, p.text.length ≤ room)
    (hrows : Setting room qs rows) (hsuf : ps <:+ qs) : ls.length ≤ rows.length := by
  induction h generalizing qs rows with
  | nil => exact Nat.zero_le _
  | last hrow _ =>
    cases rows with
    | nil =>
      obtain rfl : [] = qs := hrows.flatten
      exact absurd (List.suffix_nil.1 hsuf) hrow
    | cons first rows => simp
  | @between row ps p ls hrow _ hover _ ih =>
    cases rows with
    | nil =>
      obtain rfl : [] = qs := hrows.flatten
      simpa using List.suffix_nil.1 hsuf
    | cons first rows =>
      obtain ⟨hfirst, hfits⟩ := List.forall_mem_cons.1 hrows.fits
      rw [Overflows, if_pos (hps p (by simp))] at hover
      rw [← hrows.flatten, List.flatten_cons] at hsuf
      have hrest := ih (fun q hq => hps q (List.mem_append_right row hq)) ⟨rfl, hfits⟩
        (suffix_of_overflows hfirst hover hsuf)
      exact Nat.succ_le_succ hrest
  | @inside row ps o a b ls _ _ hwide _ _ _ =>
    exact absurd (hps ⟨o, a ++ b⟩ (by simp)) (Nat.not_le_of_lt hwide)

theorem ne_nil_of_mem_pieces (hp : p ∈ pieces t) : p.text ≠ [] := by
  obtain ⟨w, hw, hp⟩ := List.mem_flatMap.1 hp
  have hne := ne_nil_of_mem_piecesFrom [] (ne_nil_of_mem_words hw)
  change ∀ p ∈ hyphenPieces w, p ≠ [] at hne
  split at hp
  · cases hp
  · next q qs hqs =>
    rw [hqs] at hne
    rcases List.mem_cons.1 hp with rfl | hp
    · exact hne q List.mem_cons_self
    · obtain ⟨x, hx, rfl⟩ := List.mem_map.1 hp
      exact hne x (List.mem_cons_of_mem q hx)

theorem newline_notMem_of_mem_filled {l : Text} (hl : l ∈ filled room t) : '\n' ∉ l := by
  intro hmem
  have hspread := (infix_of_mem_fill hl).subset hmem
  rw [List.nil_append, spread_pieces] at hspread
  obtain ⟨w, hw, hc⟩ := List.mem_flatMap.1 hspread
  rcases List.mem_cons.1 hc with hc | hc
  · exact absurd hc (by decide)
  · have hblank := of_mem_splitOnP (List.mem_filter.1 hw).1 _ hc
    exact absurd hblank (by decide)

/-- A paragraph is wrapped between words, between pieces of a word and inside pieces that are wider
than a line, and only where it has to be: the line that a piece starts comes after one that it has
no place on, and a line that ends inside a piece is full. So if no piece is wider than a line, no
other setting of the pieces has fewer lines. -/
theorem exists_laid_wrap (width indentation : Nat) (t : Text) :
    ∃ ls, wrap width indentation t = join ['\n'] (ls.map (indent indentation)) ∧
      (∀ l ∈ ls, '\n' ∉ l) ∧ Laid (roomFor width indentation) (pieces t) ls ∧
      ((∀ p ∈ pieces t, p.text.length ≤ roomFor width indentation) →
        (∃ rows, Setting (roomFor width indentation) (pieces t) rows ∧ ls = rows.map rowText) ∧
          ∀ rows, Setting (roomFor width indentation) (pieces t) rows →
            ls.length ≤ rows.length) := by
  have hroom : 0 < roomFor width indentation := Nat.le_max_right _ _
  have hlaid : Laid (roomFor width indentation) (pieces t)
      (filled (roomFor width indentation) t) :=
    laid_fill hroom [] (pieces t) (fun _ hp => ne_nil_of_mem_pieces hp) (Nat.zero_le _)
  refine ⟨_, rfl, fun l hl => newline_notMem_of_mem_filled hl, hlaid, fun hpieces => ?_⟩
  exact ⟨hlaid.exists_setting hpieces,
    fun rows hrows => hlaid.length_le hpieces hrows List.suffix_rfl⟩

def uniformText : Text := "the non-uniform qualifier"

theorem exists_laid_wrap_uniform :
    (∀ p ∈ pieces uniformText, p.text.length ≤ roomFor 14 4) ∧
      Setting (roomFor 14 4) (pieces uniformText) ((pieces uniformText).map ([·])) ∧
      ∃ ls rows, wrap 14 4 uniformText = join ['\n'] (ls.map (indent 4)) ∧
        Laid (roomFor 14 4) (pieces uniformText) ls ∧
        Setting (roomFor 14 4) (pieces uniformText) rows ∧ ls = rows.map rowText ∧
        ls.length ≤ ((pieces uniformText).map ([·])).length := by
  have hpieces : ∀ p ∈ pieces uniformText, p.text.length ≤ roomFor 14 4 := by decide +kernel
  have hsingle : Setting (roomFor 14 4) (pieces uniformText) ((pieces uniformText).map ([·])) :=
    ⟨by decide +kernel, by decide +kernel⟩
  obtain ⟨ls, hwrap, -, hlaid, hleast⟩ := exists_laid_wrap 14 4 uniformText
  obtain ⟨⟨rows, hrows, hls⟩, hle⟩ := hleast hpieces
  exact ⟨hpieces, hsingle, ls, rows, hwrap, hlaid, hrows, hls, hle _ hsingle⟩

end SpirvTables.Text
