import SpirvTables.Proofs.Text.Lower

namespace SpirvTables.Text

variable {c : Char} {t w : Text} {ws : List Text}

def unblanked (t : Text) : Text := t.filter (!Character.isBlank ·)

structure Solid (t : Text) : Prop where
  ne_nil : t ≠ []
  noBlank : ∀ c ∈ t, Character.isBlank c = false

@[simp] theorem unblanked_append (s t : Text) : unblanked (s ++ t) = unblanked s ++ unblanked t :=
  List.filter_append ..

theorem unblanked_cons_of_blank (hc : Character.isBlank c) (t : Text) :
    unblanked (c :: t) = unblanked t :=
  List.filter_cons_of_neg (by simp [hc])

theorem unblanked_of_blank (h : ∀ c ∈ t, Character.isBlank c) : unblanked t = [] :=
  List.filter_eq_nil_iff.2 fun c hc => by simp [h c hc]

theorem unblanked_eq_nil_iff : unblanked t = [] ↔ t.isAllBlank := by
  rw [unblanked, List.filter_eq_nil_iff, isAllBlank, List.all_eq_true]
  simp

@[simp] theorem unblanked_indent (n : Nat) (t : Text) : unblanked (indent n t) = unblanked t := by
  have hspaces : unblanked (spaces n) = [] := by
    apply unblanked_of_blank
    intro c hc
    rw [List.eq_of_mem_replicate hc]
    decide
  rw [indent, unblanked_append, hspaces, List.nil_append]

theorem unblanked_join {sep : Text} (hsep : ∀ c ∈ sep, Character.isBlank c) (ts : List Text) :
    unblanked (join sep ts) = unblanked ts.flatten := by
  induction ts with
  | nil => rfl
  | cons t ts ih =>
    cases ts with
    | nil => simp
    | cons s ts =>
      rw [join, List.intercalate_cons_cons, unblanked_append, unblanked_append,
        unblanked_of_blank hsep, List.append_nil, ih, ← unblanked_append]
      rfl

theorem flatten_splitOnP (f : Char → Bool) (t : Text) :
    (t.splitOnP f).flatten = t.filter (!f ·) := by
  induction t with
  | nil => rfl
  | cons c t ih =>
    rw [List.splitOnP_cons_eq_if_modifyHead]
    split
    · next hc => simp [hc, ih]
    · next hc =>
      obtain ⟨x, xs, hx⟩ := List.exists_cons_of_ne_nil (List.splitOnP_ne_nil f t)
      rw [hx] at ih ⊢
      simpa [hc] using ih

theorem flatten_filter_ne_nil (ts : List Text) : (ts.filter (!·.isEmpty)).flatten = ts.flatten := by
  induction ts with
  | nil => rfl
  | cons t ts ih => cases t <;> simp [ih]

theorem flatten_words (t : Text) : (words t).flatten = unblanked t := by
  rw [words, flatten_filter_ne_nil, flatten_splitOnP]
  rfl

theorem solid_of_mem_words (hw : w ∈ words t) : Solid w where
  ne_nil := ne_nil_of_mem_words hw
  noBlank := of_mem_splitOnP (List.mem_filter.1 hw).1

theorem words_eq_nil_iff : words t = [] ↔ t.isAllBlank := by
  rw [← unblanked_eq_nil_iff, ← flatten_words, List.flatten_eq_nil_iff]
  constructor
  · intro h
    simp [h]
  · intro h
    apply List.eq_nil_iff_forall_not_mem.2
    exact fun w hw => ne_nil_of_mem_words hw (h w hw)

theorem words_append_cons (hc : Character.isBlank c) (s t : Text) :
    words (s ++ c :: t) = words s ++ words t := by
  rw [words, List.splitOnP_append_cons s t hc, List.filter_append]
  rfl

theorem words_cons (hc : Character.isBlank c) (t : Text) : words (c :: t) = words t := by
  simpa [words] using words_append_cons hc [] t

theorem words_indent (n : Nat) (t : Text) : words (indent n t) = words t := by
  induction n with
  | zero => rfl
  | succ n ih =>
    rw [indent, spaces, List.replicate_succ, List.cons_append, words_cons (by decide), ← ih]
    rfl

theorem words_join_newline (ts : List Text) : words (join ['\n'] ts) = ts.flatMap words := by
  induction ts with
  | nil => rfl
  | cons t ts ih =>
    cases ts with
    | nil => simp
    | cons s ts =>
      rw [join, List.intercalate_cons_cons, List.append_assoc, List.singleton_append,
        words_append_cons (by decide), ← join, ih]
      rfl

theorem infix_join (sep : Text) {ts : List Text} (ht : t ∈ ts) : t <:+: join sep ts := by
  induction ts with
  | nil => cases ht
  | cons s ts ih =>
    cases ts with
    | nil =>
      obtain rfl := List.mem_singleton.1 ht
      have hjoin : join sep [t] = t := List.intercalate_singleton
      exact hjoin.symm ▸ List.infix_rfl
    | cons r ts =>
      rw [join, List.intercalate_cons_cons]
      rcases List.mem_cons.1 ht with rfl | ht
      · exact ⟨[], sep ++ join sep (r :: ts), by simp⟩
      · exact (ih ht).trans (List.suffix_append _ _).isInfix

theorem lines_join {ls : List Text} (h : ∀ l ∈ ls, '\n' ∉ l) (hne : ls ≠ []) :
    lines (join ['\n'] ls) = ls := by
  rw [lines, ← List.splitOn_eq_splitOnP]
  exact List.splitOn_intercalate '\n' h hne

theorem Solid.words_eq (h : Solid w) : words w = [w] := by
  have hsplit : w.splitOnP Character.isBlank = [w] :=
    List.splitOnP_eq_singleton fun c hc => by simp [h.noBlank c hc]
  rw [words, hsplit]
  simp [h.ne_nil]

theorem words_spread (hw : Solid w) (hws : ∀ v ∈ ws, Solid v) :
    words (w ++ ws.flatMap (' ' :: ·)) = w :: ws := by
  induction ws generalizing w with
  | nil => simpa using hw.words_eq
  | cons v ws ih =>
    obtain ⟨hv, hws⟩ := List.forall_mem_cons.1 hws
    rw [List.flatMap_cons, List.cons_append, words_append_cons (by decide), hw.words_eq,
      ih hv hws, List.singleton_append]

end SpirvTables.Text
