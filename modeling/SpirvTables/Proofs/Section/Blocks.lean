import SpirvTables.Proofs.Text.Split
import SpirvTables.Section

namespace SpirvTables

open Text

variable {start stop t x inner y rest : Text}

theorem delimited_append (hs : start ≠ []) (hx : ¬ start <:+: x ++ start.dropLast) (he : stop ≠ [])
    (hi : ¬ stop <:+: inner ++ stop.dropLast) (y : Text) :
    delimited start stop (x ++ (start ++ (inner ++ (stop ++ y)))) = .ok (some inner, y) := by
  rw [delimited, cut?_append hs hx]
  dsimp only
  rw [cut?_append he hi]
  rfl

theorem exists_delimited_append (start stop x inner y : Text) :
    ∃ found v, delimited start stop (x ++ (start ++ (inner ++ (stop ++ y)))) =
      .ok (found, v ++ y) := by
  obtain ⟨a, v, hstart⟩ := exists_cut?_append start x (inner ++ (stop ++ y))
  obtain ⟨b, w, hstop⟩ := exists_cut?_append stop (v ++ inner) y
  refine ⟨some b, w, ?_⟩
  rw [List.append_assoc] at hstop
  rw [delimited, hstart]
  dsimp only
  rw [hstop]
  rfl

theorem delimited_eq_ok {found : Option Text} (hs : start ≠ []) (he : stop ≠ [])
    (h : delimited start stop t = .ok (found, rest)) :
    (found = none ∧ rest = t) ∨
      ∃ x inner, found = some inner ∧ t = x ++ (start ++ (inner ++ (stop ++ rest))) ∧
        ¬ start <:+: x ++ start.dropLast ∧ ¬ stop <:+: inner ++ stop.dropLast := by
  rw [delimited] at h
  cases hcut : cut? start t with
  | none =>
    rw [hcut] at h
    obtain ⟨rfl, rfl⟩ := Prod.mk.inj (Except.ok.inj h)
    exact .inl ⟨rfl, rfl⟩
  | some xr =>
    obtain ⟨x, r⟩ := xr
    rw [hcut] at h
    dsimp only at h
    cases hstop : cut? stop r with
    | none =>
      rw [hstop] at h
      cases h
    | some iy =>
      obtain ⟨inner, y⟩ := iy
      rw [hstop] at h
      obtain ⟨rfl, rfl⟩ := Prod.mk.inj (Except.ok.inj h)
      refine .inr ⟨x, inner, rfl, ?_, absent_of_cut? hs hcut, absent_of_cut? he hstop⟩
      rw [eq_append_of_cut? hcut, eq_append_of_cut? hstop]
      simp only [List.append_assoc]

namespace BlockSection

variable {p : Text} {s : BlockSection} {blocks : List Text}

theorem separator_ne_nil : separator ≠ [] := ne_nil_ofList

theorem ofText_eq_ok_iff :
    ofText p t = .ok s ↔ splitOn p t = s.header :: s.blocks ++ [s.footer] := by
  unfold ofText
  rcases splitOn p t with _ | ⟨header, _ | ⟨block, rest⟩⟩
  · simp [throw, throwThe, MonadExceptOf.throw]
  · simp [throw, throwThe, MonadExceptOf.throw]
  · have hlast : (block :: rest).dropLast ++ [(block :: rest).getLastD []] = block :: rest := by
      rw [List.getLastD_eq_getLast?, List.getLast?_eq_some_getLast (List.cons_ne_nil _ _)]
      exact List.dropLast_concat_getLast _
    constructor
    · intro h
      obtain rfl := Except.ok.inj h
      rw [List.cons_append, hlast]
    · intro h
      obtain ⟨hheader, hrest⟩ := List.cons.inj h
      rw [← hlast] at hrest
      obtain ⟨hblocks, hfooter⟩ := List.append_inj' hrest rfl
      dsimp only
      rw [hheader, hblocks, (List.cons.inj hfooter).1]
      rfl

def Ends (x : Text) : Prop := ¬ separator <:+: x ++ separator.dropLast

instance (x : Text) : Decidable (Ends x) := inferInstanceAs (Decidable (¬ _))

theorem ofText_separator_eq_ok_iff :
    ofText separator t = .ok s ↔
      t = s.render s.blocks ∧ (Ends s.header ∧ ∀ b ∈ s.blocks, Ends b) ∧
        ¬ separator <:+: s.footer := by
  rw [ofText_eq_ok_iff, splitOn_eq_concat_iff separator_ne_nil, List.forall_mem_cons]
  exact Iff.rfl

theorem ofText_render (h : ofText separator t = .ok s) (hb : ∀ b ∈ blocks, Ends b) :
    ofText separator (s.render blocks) = .ok { s with blocks } := by
  obtain ⟨-, ⟨hheader, -⟩, hfooter⟩ := ofText_separator_eq_ok_iff.1 h
  exact ofText_separator_eq_ok_iff.2 ⟨rfl, ⟨hheader, hb⟩, hfooter⟩

theorem Ends.absent {x : Text} (h : Ends x) : ¬ separator <:+: x :=
  fun hx => h (hx.trans (List.prefix_append _ _).isInfix)

def unfinished : Text := "\n// -----\n"

theorem separator_eq : separator = unfinished ++ ['\n'] := by
  unfold separator unfinished
  repeat rw [String.toList_ofList]
  rfl

theorem eq_of_drop_prefix_unfinished : ∀ k < separator.length, 0 < k →
    separator.drop k <+: unfinished → separator.take k = unfinished := by
  unfold separator unfinished
  repeat rw [String.toList_ofList]
  decide +kernel

theorem ends_iff {x : Text} : Ends x ↔ ¬ separator <:+: x ∧ ¬ unfinished <:+ x := by
  have hdrop : separator.dropLast = unfinished := by rw [separator_eq, List.dropLast_concat]
  rw [Ends, hdrop, ← not_or]
  apply not_congr
  rw [List.infix_append_iff_ne_nil]
  constructor
  · rintro (h | h | ⟨l₁, l₂, h₁, h₂, he, hs, hp⟩)
    · exact .inl h
    · have hlength := h.length_le
      rw [separator_eq, List.length_append, List.length_singleton] at hlength
      omega
    · obtain ⟨k, hk, hk0, rfl, rfl⟩ := exists_cut_of_eq_append he h₁ h₂
      exact .inr (eq_of_drop_prefix_unfinished k hk hk0 hp ▸ hs)
  · rintro (h | h)
    · exact .inl h
    · have hhead : unfinished.head? = some '\n' := head?_ofList rfl
      obtain ⟨rest, hrest⟩ := List.head?_eq_some_iff.1 hhead
      exact .inr (.inr ⟨unfinished, ['\n'], ne_nil_ofList, List.cons_ne_nil _ _, separator_eq, h,
        rest, hrest.symm⟩)

theorem exists_ofText_eq_ok (h : separator <:+: t) : ∃ s, ofText separator t = .ok s := by
  cases hcut : cut? separator t with
  | none => exact absurd h (cut?_eq_none_iff.1 hcut)
  | some ab =>
    obtain ⟨block, rest, hpieces⟩ := List.exists_cons_of_ne_nil (splitOn_ne_nil separator ab.2)
    rw [ofText, splitOn_of_cut? separator_ne_nil hcut, hpieces]
    exact ⟨_, rfl⟩

theorem ofText_render_eq_ok_iff (h : ofText separator t = .ok s) :
    ofText separator (s.render blocks) = .ok { s with blocks } ↔ ∀ b ∈ blocks, Ends b := by
  obtain ⟨-, ⟨hheader, -⟩, hfooter⟩ := ofText_separator_eq_ok_iff.1 h
  rw [ofText_separator_eq_ok_iff]
  constructor
  · rintro ⟨-, ⟨-, hb⟩, -⟩
    exact hb
  · exact fun hb => ⟨rfl, ⟨hheader, hb⟩, hfooter⟩

/-- Reading a file finds the blocks that it renders to, and those that are set between its header
and its footer, exactly as long as no separator starts in one of them. -/
structure Codec : Prop where
  cut (t : Text) : separator <:+: t → ∃ s, ofText separator t = .ok s ∧ s.render s.blocks = t
  reread (t : Text) (s : BlockSection) (blocks : List Text) : ofText separator t = .ok s →
    (ofText separator (s.render blocks) = .ok { s with blocks } ↔
      ∀ b ∈ blocks, ¬ separator <:+: b ∧ ¬ unfinished <:+ b)

theorem codec : Codec where
  cut t h := by
    obtain ⟨s, hs⟩ := exists_ofText_eq_ok h
    exact ⟨s, hs, (ofText_separator_eq_ok_iff.1 hs).1.symm⟩
  reread t s blocks h := by
    rw [ofText_render_eq_ok_iff h]
    exact forall₂_congr fun _ _ => ends_iff

end BlockSection

end SpirvTables
