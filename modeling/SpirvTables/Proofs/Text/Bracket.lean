import SpirvTables.Proofs.Text.Occurrence

namespace SpirvTables.Text

variable {t x : Text} {depth : Nat}

theorem upToClose_open : upToClose depth ('[' :: t) = (upToClose (depth + 1) t).map ('[' :: ·) := by
  cases depth <;> rfl

theorem upToClose_close_succ :
    upToClose (depth + 1) (']' :: t) = (upToClose depth t).map (']' :: ·) := rfl

theorem upToClose_cons {c : Char} (ho : c ≠ '[') (hc : c ≠ ']') :
    upToClose depth (c :: t) = (upToClose depth t).map (c :: ·) := by
  cases depth <;> simp [upToClose, ho, hc]

theorem upToClose_eq_some (h : upToClose depth t = some x) : ∃ y, t = x ++ ']' :: y := by
  fun_induction upToClose depth t generalizing x with
  | case1 => cases h
  | case2 depth t ih =>
    obtain ⟨x, hx, rfl⟩ := Option.map_eq_some_iff.1 h
    obtain ⟨y, rfl⟩ := ih hx
    exact ⟨y, rfl⟩
  | case3 t =>
    obtain rfl := Option.some.inj h
    exact ⟨t, rfl⟩
  | case4 t _ depth ih =>
    obtain ⟨x, hx, rfl⟩ := Option.map_eq_some_iff.1 h
    obtain ⟨y, rfl⟩ := ih hx
    exact ⟨y, rfl⟩
  | case5 depth c t _ _ ih =>
    obtain ⟨x, hx, rfl⟩ := Option.map_eq_some_iff.1 h
    obtain ⟨y, rfl⟩ := ih hx
    exact ⟨y, rfl⟩

/-- As many brackets close as open, and none before it opens. -/
structure BracketBalanced (t : Text) : Prop where
  count : t.count ']' = t.count '['
  count_prefix : ∀ u, u <+: t → u.count ']' ≤ u.count '['

instance (t : Text) : Decidable (BracketBalanced t) :=
  decidable_of_iff (t.count ']' = t.count '[' ∧
      ∀ n < t.length + 1, (t.take n).count ']' ≤ (t.take n).count '[') <| by
    constructor
    · rintro ⟨hcount, htake⟩
      refine ⟨hcount, fun u hu => ?_⟩
      rw [List.prefix_iff_eq_take.1 hu]
      exact htake u.length (Nat.lt_succ_of_le hu.length_le)
    · exact fun h => ⟨h.count, fun n _ => h.count_prefix _ (List.take_prefix n t)⟩

theorem upToClose_append_of_count (hle : ∀ u, u <+: t → u.count ']' ≤ depth + u.count '[')
    (h : t.count ']' = depth + t.count '[') (y : Text) :
    upToClose depth (t ++ ']' :: y) = some t := by
  induction t generalizing depth with
  | nil =>
    obtain rfl : depth = 0 := by simpa using h.symm
    rfl
  | cons c t ih =>
    have hcons (u : Text) (hu : u <+: t) := hle (c :: u) (List.cons_prefix_cons.2 ⟨rfl, hu⟩)
    rw [List.cons_append]
    by_cases ho : c = '['
    · subst ho
      rw [upToClose_open, ih, Option.map_some]
      · intro u hu
        have := hcons u hu
        simp at this
        omega
      · simp at h
        omega
    · by_cases hc : c = ']'
      · subst hc
        cases depth with
        | zero =>
          have := hcons [] List.nil_prefix
          simp at this
        | succ depth =>
          rw [upToClose_close_succ, ih, Option.map_some]
          · intro u hu
            have := hcons u hu
            simp at this
            omega
          · simp at h
            omega
      · rw [upToClose_cons ho hc, ih, Option.map_some]
        · intro u hu
          have := hcons u hu
          simpa [List.count_cons, ho, hc] using this
        · simpa [List.count_cons, ho, hc] using h

theorem BracketBalanced.upToClose_append (h : BracketBalanced t) (y : Text) :
    upToClose 0 (t ++ ']' :: y) = some t := by
  apply upToClose_append_of_count
  · intro u hu
    rw [Nat.zero_add]
    exact h.count_prefix u hu
  · rw [Nat.zero_add]
    exact h.count

theorem getD_map_cons (c : Char) (found : Option Text) :
    (found.map (c :: ·)).getD (c :: t) = c :: found.getD t := by
  cases found <;> rfl

theorem count_le_of_prefix_upToClose {u : Text} (hu : u <+: (upToClose depth t).getD t) :
    u.count ']' ≤ depth + u.count '[' := by
  fun_induction upToClose depth t generalizing u with
  | case1 => simp [List.prefix_nil.1 hu]
  | case2 depth t ih =>
    rw [getD_map_cons, List.prefix_cons_iff] at hu
    obtain rfl | ⟨u, rfl, hu⟩ := hu
    · simp
    · have := ih hu
      simp
      omega
  | case3 => simp [List.prefix_nil.1 hu]
  | case4 t _ depth ih =>
    rw [getD_map_cons, List.prefix_cons_iff] at hu
    obtain rfl | ⟨u, rfl, hu⟩ := hu
    · simp
    · have := ih hu
      simp
      omega
  | case5 depth c t ho hc ih =>
    rw [getD_map_cons, List.prefix_cons_iff] at hu
    obtain rfl | ⟨u, rfl, hu⟩ := hu
    · simp
    · simpa [List.count_cons, ho, hc] using ih hu

theorem count_of_upToClose (h : upToClose depth t = some x) :
    x.count ']' = depth + x.count '[' := by
  fun_induction upToClose depth t generalizing x with
  | case1 => cases h
  | case2 depth t ih =>
    obtain ⟨x, hx, rfl⟩ := Option.map_eq_some_iff.1 h
    have := ih hx
    simp
    omega
  | case3 =>
    obtain rfl := Option.some.inj h
    rfl
  | case4 t _ depth ih =>
    obtain ⟨x, hx, rfl⟩ := Option.map_eq_some_iff.1 h
    have := ih hx
    simp
    omega
  | case5 depth c t ho hc ih =>
    obtain ⟨x, hx, rfl⟩ := Option.map_eq_some_iff.1 h
    simpa [List.count_cons, ho, hc] using ih hx

theorem upToClose_append (h : upToClose depth t = some x) (y : Text) :
    upToClose depth (x ++ ']' :: y) = some x := by
  refine upToClose_append_of_count (fun u hu => ?_) (count_of_upToClose h) y
  apply count_le_of_prefix_upToClose (t := t)
  rwa [h]

theorem bracketBalanced_of_upToClose (h : upToClose 0 t = some x) : BracketBalanced x where
  count := (count_of_upToClose h).trans (Nat.zero_add _)
  count_prefix u hu := by
    have hle := count_le_of_prefix_upToClose (u := u) (by rwa [h])
    rwa [Nat.zero_add] at hle

theorem upToClose_eq_none_iff :
    upToClose depth t = none ↔ ∀ u, u <+: t → u.count ']' ≤ depth + u.count '[' := by
  constructor
  · intro h u hu
    apply count_le_of_prefix_upToClose (t := t)
    rwa [h]
  · intro h
    rw [Option.eq_none_iff_forall_ne_some]
    intro x hx
    obtain ⟨y, rfl⟩ := upToClose_eq_some hx
    have hle := h (x ++ [']']) ⟨y, by simp⟩
    have hcount := count_of_upToClose hx
    simp at hle
    omega

theorem bracketed?_append_cons (hx : '[' ∉ x) (t : Text) :
    bracketed? (x ++ '[' :: t) = (upToClose 0 t).map (x, ·) := by
  rw [bracketed?, cut?_append_cons hx]
  cases h : upToClose 0 t <;> simp [h]

theorem bracketed?_of_notMem (h : '[' ∉ t) : bracketed? t = none := by
  rw [bracketed?, cut?_eq_none_iff.2 (absent_of_notMem List.mem_cons_self h)]
  rfl

end SpirvTables.Text
