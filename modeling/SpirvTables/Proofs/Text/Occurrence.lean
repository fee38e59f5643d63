import SpirvTables.Text.Search

/-!
Occurrences of a pattern in a text put together from parts: which seams an occurrence cannot cross,
and which occurrence a search finds first.
-/

namespace SpirvTables.Text

/-- No occurrence of `p` meets `lit`, whatever stands on its two sides. -/
def Parts (p lit : Text) : Prop :=
  ¬ p <:+: lit ∧ ¬ lit <:+: p ∧
    ∀ k < p.length, 0 < k → ¬ p.drop k <+: lit ∧ ¬ p.take k <:+ lit

instance (p lit : Text) : Decidable (Parts p lit) := inferInstanceAs (Decidable (_ ∧ _))

/-- No end of `p` is also a beginning of it, so that two occurrences never overlap. -/
def Borderless (p : Text) : Prop := ∀ k < p.length, 0 < k → ¬ p.drop k <+: p

instance (p : Text) : Decidable (Borderless p) := Nat.decidableBallLT _ _

variable {p lit x y : Text}

theorem ne_nil_ofList {c : Char} {p : List Char} : (String.ofList (c :: p)).toList ≠ [] := by
  rw [String.toList_ofList]
  exact List.cons_ne_nil c p

/-- The kernel is slow to unpack a literal, so that a long one is compared by its characters. -/
theorem parts_ofList {l l' : List Char} (h : Parts l l') :
    Parts (String.ofList l).toList (String.ofList l').toList := by
  rwa [String.toList_ofList, String.toList_ofList]

theorem absent_ofList {l l' : List Char} (h : ¬ l <:+: l') :
    ¬ (String.ofList l).toList <:+: (String.ofList l').toList := by
  rwa [String.toList_ofList, String.toList_ofList]

theorem infix_ofList {l l' : List Char} (h : l <:+: l') :
    (String.ofList l).toList <:+: (String.ofList l').toList := by
  rwa [String.toList_ofList, String.toList_ofList]

theorem borderless_ofList {l : List Char} (h : Borderless l) :
    Borderless (String.ofList l).toList := by
  rwa [String.toList_ofList]

theorem mem_ofList {c : Char} {l : List Char} (h : c ∈ l) : c ∈ (String.ofList l).toList := by
  rwa [String.toList_ofList]

theorem notMem_ofList {c : Char} {l : List Char} (h : c ∉ l) : c ∉ (String.ofList l).toList := by
  rwa [String.toList_ofList]

theorem head?_ofList {c : Char} {l : List Char} (h : l.head? = some c) :
    (String.ofList l).toList.head? = some c := by
  rwa [String.toList_ofList]

theorem getLast?_ofList {c : Char} {l : List Char} (h : l.getLast? = some c) :
    (String.ofList l).toList.getLast? = some c := by
  rwa [String.toList_ofList]

theorem eq_append_ofList {l l₁ l₂ : List Char} (h : l = l₁ ++ l₂) :
    (String.ofList l).toList = (String.ofList l₁).toList ++ (String.ofList l₂).toList := by
  simp only [String.toList_ofList, h]

theorem absent_nil (hp : p ≠ []) : ¬ p <:+: [] := fun h => hp (List.infix_nil.1 h)

theorem Parts.ne_nil (h : Parts p lit) : p ≠ [] := by
  rintro rfl
  exact h.1 List.nil_infix

theorem Parts.lit_ne_nil (h : Parts p lit) : lit ≠ [] := by
  rintro rfl
  exact h.2.1 List.nil_infix

theorem exists_cut_of_eq_append {l₁ l₂ : Text} (h : p = l₁ ++ l₂) (h₁ : l₁ ≠ []) (h₂ : l₂ ≠ []) :
    ∃ k < p.length, 0 < k ∧ l₁ = p.take k ∧ l₂ = p.drop k := by
  refine ⟨l₁.length, ?_, List.length_pos_iff.2 h₁, by simp [h], by simp [h]⟩
  have := List.length_pos_iff.2 h₂
  simp [h, this]

theorem Parts.infix_append_iff (h : Parts p lit) :
    p <:+: x ++ (lit ++ y) ↔ p <:+: x ∨ p <:+: y := by
  obtain ⟨hlit, hp, hk⟩ := h
  constructor
  · rw [← List.append_assoc, List.infix_append_iff_ne_nil]
    rintro (h | h | ⟨l₁, l₂, h₁, h₂, he, hs, -⟩)
    · rw [List.infix_append_iff_ne_nil] at h
      rcases h with h | h | ⟨l₁, l₂, h₁, h₂, he, -, hs⟩
      · exact .inl h
      · exact absurd h hlit
      · obtain ⟨k, hkp, hk0, -, rfl⟩ := exists_cut_of_eq_append he h₁ h₂
        exact absurd hs (hk k hkp hk0).1
    · exact .inr h
    · obtain ⟨k, hkp, hk0, rfl, -⟩ := exists_cut_of_eq_append he h₁ h₂
      -- The beginning of `p` ends with `lit`, or it is a proper end of `lit`.
      rcases List.suffix_or_suffix_of_suffix (List.suffix_append x lit) hs with h | h
      · exact absurd (h.isInfix.trans (List.take_prefix k p).isInfix) hp
      · exact absurd h (hk k hkp hk0).2
  · rintro (h | h)
    · exact h.trans (List.prefix_append _ _).isInfix
    · exact h.trans ⟨x ++ lit, [], by simp⟩

theorem Parts.absent (h : Parts p lit) (hx : ¬ p <:+: x) (hy : ¬ p <:+: y) :
    ¬ p <:+: x ++ (lit ++ y) := by
  rw [h.infix_append_iff]
  exact not_or.2 ⟨hx, hy⟩

theorem Parts.absent_left (h : Parts p lit) (hy : ¬ p <:+: y) : ¬ p <:+: lit ++ y :=
  h.absent (absent_nil h.ne_nil) hy

theorem Parts.absent_right (h : Parts p lit) (hx : ¬ p <:+: x) : ¬ p <:+: x ++ lit := by
  have := h.absent hx (absent_nil h.ne_nil)
  rwa [List.append_nil] at this

theorem Parts.symm (h : Parts p lit) : Parts lit p := by
  obtain ⟨hlit, hp, hk⟩ := h
  -- A proper part of `lit` at a border of `p` is a proper part of `p` at a border of `lit`.
  have hlt {l : Text} (hl : l <:+: lit) (hlp : l <:+: p) : l.length < p.length := by
    apply Nat.lt_of_le_of_ne hlp.length_le
    intro hlen
    exact hlit (hlp.eq_of_length hlen ▸ hl)
  refine ⟨hp, hlit, fun k hkl hk0 => ⟨fun hpre => ?_, fun hsuf => ?_⟩⟩
  · have hlen := hlt (List.drop_suffix k lit).isInfix hpre.isInfix
    have hpos : 0 < (lit.drop k).length := by
      rw [List.length_drop]
      omega
    exact (hk _ hlen hpos).2 (List.prefix_iff_eq_take.1 hpre ▸ List.drop_suffix k lit)
  · have hlen := hlt (List.take_prefix k lit).isInfix hsuf.isInfix
    have hpos : 0 < (lit.take k).length := by
      rw [List.length_take]
      omega
    have hdrop := List.suffix_iff_eq_drop.1 hsuf
    exact (hk _ (by omega) (by omega)).1 (hdrop ▸ List.take_prefix k lit)

theorem Parts.exists_of_append_eq {a rest : Text} (h : Parts p lit)
    (he : p ++ y = a ++ (lit ++ rest)) : ∃ u, a = p ++ u ∧ y = u ++ (lit ++ rest) := by
  rcases List.append_eq_append_iff.1 he with ⟨u, ha, hy⟩ | ⟨c, hp, hc⟩
  · exact ⟨u, ha, hy⟩
  obtain ⟨hlit, hnot, hk⟩ := h
  have hcut : c <+: lit ∨ lit <+: c :=
    List.prefix_or_prefix_of_prefix ⟨y, hc.symm⟩ (List.prefix_append lit rest)
  have hc' : c <+: lit := hcut.resolve_right fun hlc =>
    hnot (hlc.isInfix.trans (hp ▸ List.suffix_append a c).isInfix)
  have ha : a ≠ [] := by
    rintro rfl
    exact hlit (hp ▸ hc'.isInfix)
  by_cases hnil : c = []
  · exact ⟨[], by simp [hp, hnil], by simp [hc, hnil]⟩
  · obtain ⟨k, hkp, hk0, -, rfl⟩ := exists_cut_of_eq_append hp ha hnil
    exact absurd hc' (hk k hkp hk0).1

theorem Parts.before_or_before {x' y' : Text} (h : Parts p lit)
    (he : x ++ (p ++ y) = x' ++ (lit ++ y')) :
    (∃ u, x' = x ++ (p ++ u) ∧ y = u ++ (lit ++ y')) ∨
      ∃ u, x = x' ++ (lit ++ u) ∧ y' = u ++ (p ++ y) := by
  rcases List.append_eq_append_iff.1 he with ⟨a, rfl, ha⟩ | ⟨a, rfl, ha⟩
  · obtain ⟨u, rfl, hy⟩ := h.exists_of_append_eq ha
    exact .inl ⟨u, rfl, hy⟩
  · obtain ⟨u, rfl, hy⟩ := h.symm.exists_of_append_eq ha
    exact .inr ⟨u, rfl, hy⟩

/-- A property that a text has if it is put together with these literals from texts that have it. -/
structure Seams (Good : Text → Prop) (lits : List Text) : Prop where
  nil : Good []
  append : ∀ lit ∈ lits, ∀ {x y : Text}, Good x → Good y → Good (x ++ (lit ++ y))

section

variable {Good : Text → Prop} {lits : List Text}

theorem Seams.lit_append (h : Seams Good lits) (hl : lit ∈ lits) (hx : Good x) :
    Good (lit ++ x) := h.append lit hl h.nil hx

theorem Seams.append_lit (h : Seams Good lits) (hl : lit ∈ lits) (hx : Good x) :
    Good (x ++ lit) := by
  have := h.append lit hl hx h.nil
  rwa [List.append_nil] at this

theorem seams_absent (hp : p ≠ []) (h : ∀ lit ∈ lits, Parts p lit) : Seams (¬ p <:+: ·) lits where
  nil := absent_nil hp
  append lit hl _ _ hx hy := (h lit hl).absent hx hy

end

theorem parts_singleton {c : Char} (hp : p ≠ []) (hc : c ∉ p) : Parts p [c] := by
  have key : ∀ l : Text, l ≠ [] → l <:+: [c] → ¬ l ⊆ p := by
    intro l hl hlc hlp
    obtain ⟨a, t, rfl⟩ := List.exists_cons_of_ne_nil hl
    have hac : a = c := by simpa using hlc.subset List.mem_cons_self
    exact hc (hac ▸ hlp List.mem_cons_self)
  refine ⟨fun h => key p hp h (List.Subset.refl p), fun h => hc (h.subset (by simp)),
    fun k hk hk0 => ⟨fun h => ?_, fun h => ?_⟩⟩
  · exact key _ (by simpa using hk) h.isInfix (List.drop_subset k p)
  · exact key _ (by simp [hp]; omega) h.isInfix (List.take_subset k p)

theorem absent_of_notMem {c : Char} (hc : c ∈ p) (hx : c ∉ x) : ¬ p <:+: x :=
  fun h => hx (h.subset hc)

theorem absent_of_part {q : Text} (hq : q <:+: p) (hx : ¬ q <:+: x) : ¬ p <:+: x :=
  fun h => hx (hq.trans h)

theorem infix_append_iff_of_head {c : Char} (hp : p.head? = some c) (hc : c ∉ x) :
    p <:+: x ++ y ↔ p <:+: y := by
  obtain ⟨q, rfl⟩ := List.head?_eq_some_iff.1 hp
  constructor
  · rw [List.infix_append_iff_ne_nil]
    rintro (h | h | ⟨l₁, l₂, h₁, -, he, hs, -⟩)
    · exact absurd (h.subset List.mem_cons_self) hc
    · exact h
    · obtain ⟨a, l, rfl⟩ := List.exists_cons_of_ne_nil h₁
      obtain ⟨rfl, -⟩ := List.cons.inj he
      exact absurd (hs.subset List.mem_cons_self) hc
  · exact fun h => h.trans (List.suffix_append _ _).isInfix

theorem infix_append_iff_of_last {c : Char} (hp : p.getLast? = some c) (hc : c ∉ y) :
    p <:+: x ++ y ↔ p <:+: x := by
  have h := infix_append_iff_of_head (p := p.reverse) (x := y.reverse) (y := x.reverse) (c := c)
    (by simpa using hp) (by simpa using hc)
  simpa [← List.reverse_append, List.reverse_infix] using h

theorem absent_join {sep : Text} (h : Parts p sep) {pieces : List Text}
    (hp : ∀ t ∈ pieces, ¬ p <:+: t) : ¬ p <:+: join sep pieces := by
  induction pieces with
  | nil => exact absent_nil h.ne_nil
  | cons t ts ih =>
    cases ts with
    | nil => simpa using hp t (by simp)
    | cons t' ts =>
      rw [join, List.intercalate_cons_cons, List.append_assoc]
      exact h.absent (hp t (by simp)) (ih fun s hs => hp s (by simp [hs]))

theorem cut?_append (hp : p ≠ []) (h : ¬ p <:+: x ++ p.dropLast) :
    cut? p (x ++ (p ++ y)) = some (x, y) := by
  induction x with
  | nil =>
    obtain ⟨a, q, rfl⟩ := List.exists_cons_of_ne_nil hp
    have := after?_append (a :: q) y
    rw [List.cons_append] at this
    simp [cut?, this]
  | cons c x ih =>
    have hc : after? p (c :: (x ++ (p ++ y))) = none := by
      rw [Option.eq_none_iff_forall_ne_some]
      intro r hr
      have hpre : p <+: c :: x ++ p ++ y := by
        rw [after?_eq_some_iff] at hr
        exact ⟨r, by simp [← hr]⟩
      have hdrop : c :: x ++ p.dropLast <+: c :: x ++ p ++ y :=
        (List.prefix_append_right_inj _).2 (p.dropLast_prefix) |>.trans (List.prefix_append _ _)
      refine h (List.prefix_of_prefix_length_le hpre hdrop ?_).isInfix
      simp; omega
    simp only [List.cons_append, cut?, hc, ih fun hx => h (List.infix_cons hx), Option.map_some]

theorem cut?_append_cons {c : Char} (hx : c ∉ x) (y : Text) : cut? [c] (x ++ c :: y) = some (x, y) := by
  apply cut?_append (List.cons_ne_nil c [])
  rw [List.dropLast_singleton, List.append_nil]
  exact absent_of_notMem List.mem_cons_self hx

theorem Borderless.absent (hb : Borderless p) (hp : p ≠ []) (h : ¬ p <:+: x) :
    ¬ p <:+: x ++ p.dropLast := by
  rw [List.infix_append_iff_ne_nil]
  rintro (hx | hx | ⟨l₁, l₂, h₁, h₂, he, -, hs⟩)
  · exact h hx
  · have := hx.length_le
    have := List.length_pos_iff.2 hp
    simp at *; omega
  · obtain ⟨k, hk, hk0, -, rfl⟩ := exists_cut_of_eq_append he h₁ h₂
    exact hb k hk hk0 (hs.trans p.dropLast_prefix)

theorem Borderless.cut?_append (hb : Borderless p) (hp : p ≠ []) (h : ¬ p <:+: x) :
    cut? p (x ++ (p ++ y)) = some (x, y) := Text.cut?_append hp (hb.absent hp h)

theorem absent_of_cut? (hp : p ≠ []) {t a b : Text} (h : cut? p t = some (a, b)) :
    ¬ p <:+: a ++ p.dropLast := by
  induction t generalizing a b with
  | nil =>
    obtain ⟨c, q, rfl⟩ := List.exists_cons_of_ne_nil hp
    simp [cut?, after?] at h
  | cons c t ih =>
    simp only [cut?] at h
    split at h
    · obtain ⟨rfl, rfl⟩ := Prod.mk.inj (Option.some.inj h)
      intro hx
      have := hx.length_le
      have := List.length_pos_iff.2 hp
      simp at *; omega
    · next hc =>
      rw [Option.map_eq_some_iff] at h
      obtain ⟨⟨a', b'⟩, hcut, he⟩ := h
      obtain ⟨rfl, rfl⟩ := Prod.mk.inj he
      rw [List.cons_append, List.infix_cons_iff]
      rintro (hx | hx)
      · have ht : c :: (a' ++ p.dropLast) <+: c :: t := by
          rw [eq_append_of_cut? hcut, List.append_assoc]
          exact List.cons_prefix_cons.2 ⟨rfl, (List.prefix_append_right_inj _).2
            ((p.dropLast_prefix).trans (List.prefix_append _ _))⟩
        obtain ⟨r, hr⟩ := hx.trans ht
        rw [after?_eq_some_iff.2 hr.symm] at hc
        cases hc
      · exact ih hcut hx

theorem exists_cut?_append (p x y : Text) : ∃ a v, cut? p (x ++ (p ++ y)) = some (a, v ++ y) := by
  induction x with
  | nil =>
    refine ⟨[], [], ?_⟩
    have hp := after?_append p y
    rw [List.nil_append]
    cases h : p ++ y with
    | nil => simp [cut?, h ▸ hp]
    | cons c t => simp [cut?, h ▸ hp]
  | cons c x ih =>
    obtain ⟨a, v, hcut⟩ := ih
    rw [List.cons_append, cut?]
    split
    · next rest hrest =>
      -- The occurrence at the start begins before the one behind `x`, and so ends before it.
      have heq := after?_eq_some_iff.1 hrest
      have hwhole : y <:+ p ++ rest := ⟨c :: x ++ p, by simp [← heq]⟩
      have hsuffix : y <:+ rest := by
        refine List.suffix_of_suffix_length_le hwhole (List.suffix_append p rest) ?_
        have := congrArg List.length heq
        simp only [List.length_cons, List.length_append] at this
        omega
      obtain ⟨v, rfl⟩ := hsuffix
      exact ⟨[], v, rfl⟩
    · exact ⟨c :: a, v, by rw [hcut]; rfl⟩

theorem cut?_eq_none_iff {t : Text} : cut? p t = none ↔ ¬ p <:+: t := by
  induction t with
  | nil => cases p <;> simp [cut?, after?]
  | cons c t ih =>
    rw [List.infix_cons_iff, cut?]
    split
    · next r hr => simp [after?_eq_some_iff.1 hr]
    · next hr =>
      have hpre : ¬ p <+: c :: t := by
        rintro ⟨r, hp⟩
        rw [after?_eq_some_iff.2 hp.symm] at hr
        cases hr
      simp [hpre, ih]

end SpirvTables.Text
