import Mathlib.Data.List.Infix
import SpirvTables.Proofs.Text.Occurrence

namespace SpirvTables.Text

variable {p t : Text}

theorem length_lt_of_cut? (hp : p ≠ []) {a b : Text} (h : cut? p t = some (a, b)) :
    b.length < t.length := by
  have := List.length_pos_iff.2 hp
  simp [eq_append_of_cut? h]
  omega

/-- Induction along the occurrences that a search finds, from the last of them to the first. -/
@[elab_as_elim]
theorem cut?_induction {motive : Text → Prop} (hp : p ≠ []) (t : Text)
    (absent : ∀ t, ¬ p <:+: t → motive t)
    (found : ∀ t a b, cut? p t = some (a, b) → motive b → motive t) : motive t := by
  induction hn : t.length using Nat.strongRecOn generalizing t with
  | _ n ih =>
  cases hcut : cut? p t with
  | none => exact absent t (cut?_eq_none_iff.1 hcut)
  | some ab =>
    have hlt := length_lt_of_cut? hp hcut
    exact found t ab.1 ab.2 hcut (ih ab.2.length (hn ▸ hlt) ab.2 rfl)

/-- A search that goes on behind each occurrence comes to the same under all bounds on its steps that
are not below the length of the text. -/
theorem eq_of_length_le {β : Type} {search : Nat → Text → β} (next : Text → Text → β → β)
    (hp : p ≠ []) (absent : ∀ n t, cut? p t = none → search n t = search 0 t)
    (found : ∀ n t a b, cut? p t = some (a, b) → search (n + 1) t = next a b (search n b))
    {n m : Nat} (hn : t.length ≤ n) (hm : t.length ≤ m) : search n t = search m t := by
  induction t using cut?_induction hp generalizing n m with
  | absent t ht =>
    have hcut := cut?_eq_none_iff.2 ht
    rw [absent n t hcut, absent m t hcut]
  | found t a b hcut ih =>
    have hlt := length_lt_of_cut? hp hcut
    obtain ⟨n, rfl⟩ := Nat.exists_eq_add_one.2 (by omega : 0 < n)
    obtain ⟨m, rfl⟩ := Nat.exists_eq_add_one.2 (by omega : 0 < m)
    rw [found n t a b hcut, found m t a b hcut, ih (by omega) (by omega : b.length ≤ m)]

theorem cutTimes_of_le (hp : p ≠ []) {n m : Nat} (hn : t.length ≤ n) (hm : t.length ≤ m) :
    cutTimes p n t = cutTimes p m t := by
  refine eq_of_length_le (fun a _ pieces => a :: pieces) hp ?_ ?_ hn hm
  · intro n t h
    cases n <;> simp [cutTimes, h]
  · intro n t a b h
    simp [cutTimes, h]

theorem splitOn_of_absent (hp : p ≠ []) (h : ¬ p <:+: t) : splitOn p t = [t] := by
  rw [splitOn, if_neg hp]
  cases t with
  | nil => rfl
  | cons c t => simp [cutTimes, cut?_eq_none_iff.2 h]

theorem splitOn_of_cut? (hp : p ≠ []) {a b : Text} (h : cut? p t = some (a, b)) :
    splitOn p t = a :: splitOn p b := by
  have hlt := length_lt_of_cut? hp h
  rw [splitOn, splitOn, if_neg hp, if_neg hp]
  cases hn : t.length with
  | zero => omega
  | succ n =>
    simp only [cutTimes, h]
    rw [cutTimes_of_le hp (by omega) (Nat.le_refl b.length)]

theorem splitOn_ne_nil (p t : Text) : splitOn p t ≠ [] := by
  rw [splitOn]
  split
  · simp
  · exact cutTimes_ne_nil p t.length t

theorem splitOn_eq_concat_iff (hp : p ≠ []) {pieces : List Text} {last : Text} :
    splitOn p t = pieces ++ [last] ↔
      t = join p (pieces ++ [last]) ∧ (∀ x ∈ pieces, ¬ p <:+: x ++ p.dropLast) ∧
        ¬ p <:+: last := by
  induction pieces generalizing t with
  | nil =>
    cases hcut : cut? p t with
    | none =>
      have ht := cut?_eq_none_iff.1 hcut
      rw [splitOn_of_absent hp ht]
      constructor
      · rintro h
        obtain rfl : t = last := by simpa using h
        simp [ht]
      · rintro ⟨rfl, -, -⟩
        simp
    | some ab =>
      have ht : p <:+: t := Classical.not_not.1 (mt cut?_eq_none_iff.2 (by simp [hcut]))
      rw [splitOn_of_cut? hp hcut]
      constructor
      · intro h
        exact absurd (List.cons.inj h).2 (splitOn_ne_nil p ab.2)
      · rintro ⟨rfl, -, hl⟩
        exact absurd (by simpa using ht) hl
  | cons x xs ih =>
    have hjoin : join p (x :: xs ++ [last]) = x ++ (p ++ join p (xs ++ [last])) := by
      rw [List.cons_append, join, List.intercalate_cons_of_ne_nil (by simp), List.append_assoc]
    constructor
    · intro h
      cases hcut : cut? p t with
      | none =>
        rw [splitOn_of_absent hp (cut?_eq_none_iff.1 hcut)] at h
        simp at h
      | some ab =>
        obtain ⟨a, b⟩ := ab
        rw [splitOn_of_cut? hp hcut] at h
        obtain ⟨rfl, hb⟩ := List.cons.inj h
        obtain ⟨hbj, hxs, hl⟩ := ih.1 hb
        refine ⟨?_, ?_, hl⟩
        · rw [hjoin, ← hbj, eq_append_of_cut? hcut, List.append_assoc]
        · simpa using ⟨absent_of_cut? hp hcut, hxs⟩
    · rintro ⟨rfl, hxs, hl⟩
      rw [hjoin, splitOn_of_cut? hp (cut?_append hp (hxs x (by simp))), List.cons_append,
        ih.2 ⟨rfl, fun y hy => hxs y (by simp [hy]), hl⟩]

variable {x y : Text}

def occurrences (p t : Text) : Nat := t.tails.countP (p.isPrefixOf ·)

theorem occurrences_cons (c : Char) (t : Text) :
    occurrences p (c :: t) = occurrences p t + if p <+: c :: t then 1 else 0 := by
  rw [occurrences, List.tails_cons, List.countP_cons]
  simp only [List.isPrefixOf_iff_prefix]
  rfl

theorem occurrences_nil (hp : p ≠ []) : occurrences p [] = 0 := by
  cases p with
  | nil => exact absurd rfl hp
  | cons c p => rfl

theorem occurrences_append (h : ∀ s, s <:+ x → s ≠ [] → ¬ p <+: s ++ y) :
    occurrences p (x ++ y) = occurrences p y := by
  induction x with
  | nil => rfl
  | cons c x ih =>
    have hc := h (c :: x) List.suffix_rfl (List.cons_ne_nil c x)
    rw [List.cons_append] at hc ⊢
    rw [occurrences_cons, if_neg hc]
    exact ih fun s hs => h s (hs.trans (List.suffix_cons c x))

theorem occurrences_of_absent (hp : p ≠ []) (h : ¬ p <:+: t) : occurrences p t = 0 := by
  have key : occurrences p (t ++ []) = occurrences p [] := by
    apply occurrences_append
    intro s hs _ hpre
    rw [List.append_nil] at hpre
    exact h (hpre.isInfix.trans hs.isInfix)
  rwa [List.append_nil, occurrences_nil hp] at key

theorem Borderless.occurrences_append (hb : Borderless p) (hp : p ≠ [])
    (h : ¬ p <:+: x ++ p.dropLast) : occurrences p (x ++ (p ++ y)) = occurrences p y + 1 := by
  have hbefore : occurrences p (x ++ (p ++ y)) = occurrences p (p ++ y) := by
    apply Text.occurrences_append
    intro s hs hne hpre
    -- An occurrence that starts in `x` ends before the one behind `x` does.
    have hshort : s ++ p.dropLast <+: s ++ (p ++ y) := by
      rw [List.prefix_append_right_inj]
      exact p.dropLast_prefix.trans (List.prefix_append p y)
    have hlength : p.length ≤ (s ++ p.dropLast).length := by
      have := List.length_pos_iff.2 hne
      simp only [List.length_append, List.length_dropLast]
      omega
    obtain ⟨u, rfl⟩ := hs
    apply h
    rw [List.append_assoc]
    exact (List.prefix_of_prefix_length_le hpre hshort hlength).isInfix.trans
      (List.suffix_append u _).isInfix
  rw [hbefore]
  obtain ⟨c, q, rfl⟩ := List.exists_cons_of_ne_nil hp
  have hinside : occurrences (c :: q) (q ++ y) = occurrences (c :: q) y := by
    apply Text.occurrences_append
    rintro s ⟨u, hu⟩ hne hpre
    have hs : s <+: c :: q := by
      apply List.prefix_of_prefix_length_le (List.prefix_append s y) hpre
      rw [← hu, List.length_cons, List.length_append]
      omega
    have hpos := List.length_pos_iff.2 hne
    refine hb (u.length + 1) ?_ (Nat.succ_pos _) ?_
    · rw [← hu, List.length_cons, List.length_append]
      omega
    · rw [List.drop_succ_cons, ← hu, List.drop_left, hu]
      exact hs
  have hfirst : c :: q <+: c :: (q ++ y) := List.prefix_append (c :: q) y
  rw [List.cons_append, occurrences_cons, if_pos hfirst, hinside]

theorem Borderless.length_splitOn (hb : Borderless p) (hp : p ≠ []) (t : Text) :
    (splitOn p t).length = occurrences p t + 1 := by
  induction t using cut?_induction hp with
  | absent t ht =>
    rw [splitOn_of_absent hp ht, occurrences_of_absent hp ht]
    rfl
  | found t a b hcut ih =>
    rw [splitOn_of_cut? hp hcut, List.length_cons, ih, eq_append_of_cut? hcut, List.append_assoc,
      hb.occurrences_append hp (absent_of_cut? hp hcut)]

end SpirvTables.Text
