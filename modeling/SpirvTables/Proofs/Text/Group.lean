import Mathlib.Order.Bounds.Basic
import SpirvTables.Proofs.Text.Bracket

namespace SpirvTables.Text

variable {b r t u x : Text} {opening closing n : Nat}

def Level (t : Text) : Prop := t.count ']' = t.count '['

def Deep (t : Text) : Prop := t.count ']' < t.count '['

def FirstOpening (t : Text) (opening : Nat) : Prop := IsLeast {i | t[i]? = some '['} opening

structure FirstGroup (t : Text) (opening closing : Nat) : Prop where
  opens : FirstOpening t opening
  closes : IsLeast {n | opening < n ∧ n < t.length ∧ Level (t.extract opening (n + 1))} closing

theorem firstOpening_append (hb : '[' ∉ b) (r : Text) : FirstOpening (b ++ '[' :: r) b.length := by
  constructor
  · simp
  · intro i hi
    by_contra hlt
    rw [Set.mem_ofPred_eq, List.getElem?_append_left (Nat.lt_of_not_le hlt)] at hi
    exact hb (List.mem_of_getElem? hi)

theorem FirstOpening.mem (h : FirstOpening t opening) : '[' ∈ t := List.mem_of_getElem? h.1

theorem extract_append_cons (b r : Text) (n : Nat) :
    (b ++ '[' :: r).extract b.length (b.length + 1 + n) = '[' :: r.take n := by
  simp [Nat.add_assoc, Nat.add_comm 1 n]

theorem level_cons_iff : Level ('[' :: u) ↔ u.count ']' = 1 + u.count '[' := by
  simp [Level, Nat.add_comm]

theorem deep_cons_iff : Deep ('[' :: u) ↔ u.count ']' ≤ u.count '[' := by
  rw [Deep, List.count_cons_of_ne (by decide), List.count_cons_self, Nat.lt_succ_iff]

theorem BracketBalanced.level (h : BracketBalanced x) : Level ('[' :: (x ++ [']'])) := by
  rw [level_cons_iff, List.count_append, List.count_append, h.count]
  simp [Nat.add_comm]

theorem isLeast_closing (b : Text) (h : upToClose 0 r = some x) :
    IsLeast {n | b.length < n ∧ n < (b ++ '[' :: r).length ∧
      Level ((b ++ '[' :: r).extract b.length (n + 1))} (b.length + 1 + x.length) := by
  have hbalanced := bracketBalanced_of_upToClose h
  obtain ⟨y, rfl⟩ := upToClose_eq_some h
  constructor
  · refine ⟨by omega, by simp; omega, ?_⟩
    have htake : (x ++ ']' :: y).take (x.length + 1) = x ++ [']'] :=
      List.take_length_add_append 1
    rw [Nat.add_assoc, extract_append_cons, htake]
    exact hbalanced.level
  · rintro n ⟨hlt, -, hlevel⟩
    by_contra hle
    obtain ⟨k, rfl⟩ := Nat.exists_eq_add_of_le (Nat.succ_le_of_lt hlt)
    rw [Nat.add_assoc, extract_append_cons, level_cons_iff,
      List.take_append_of_le_length (by omega)] at hlevel
    have := hbalanced.count_prefix _ (List.take_prefix (k + 1) x)
    omega

theorem firstGroup_append_iff (hb : '[' ∉ b) : FirstGroup (b ++ '[' :: r) opening closing ↔
    ∃ x, upToClose 0 r = some x ∧ opening = b.length ∧ closing = b.length + 1 + x.length := by
  constructor
  · rintro ⟨hopens, hcloses⟩
    obtain rfl := hopens.unique (firstOpening_append hb r)
    cases hup : upToClose 0 r with
    | none =>
      obtain ⟨⟨hlt, -, hlevel⟩, -⟩ := hcloses
      obtain ⟨k, rfl⟩ := Nat.exists_eq_add_of_le (Nat.succ_le_of_lt hlt)
      rw [Nat.add_assoc, extract_append_cons, level_cons_iff] at hlevel
      have := upToClose_eq_none_iff.1 hup _ (List.take_prefix (k + 1) r)
      omega
    | some x => exact ⟨x, rfl, rfl, hcloses.unique (isLeast_closing b hup)⟩
  · rintro ⟨x, hx, rfl, rfl⟩
    exact ⟨firstOpening_append hb r, isLeast_closing b hx⟩

theorem notMem_or_exists_append (t : Text) : '[' ∉ t ∨ ∃ b r, t = b ++ '[' :: r ∧ '[' ∉ b := by
  by_cases h : '[' ∈ t
  · exact .inr (List.eq_append_cons_of_mem h)
  · exact .inl h

theorem notMem_of_bracketed? {inside : Text} (h : bracketed? t = some (b, inside)) : '[' ∉ b := by
  rcases notMem_or_exists_append t with ht | ⟨b', r, rfl, hb⟩
  · rw [bracketed?_of_notMem ht] at h
    cases h
  · rw [bracketed?_append_cons hb] at h
    obtain ⟨x, -, heq⟩ := Option.map_eq_some_iff.1 h
    exact (Prod.mk.inj heq).1 ▸ hb

theorem bracketed?_eq_some_iff {inside : Text} : bracketed? t = some (b, inside) ↔
    ∃ opening closing, FirstGroup t opening closing ∧
      b = t.take opening ∧ inside = t.extract (opening + 1) closing := by
  rcases notMem_or_exists_append t with ht | ⟨b', r, rfl, hb⟩
  · rw [bracketed?_of_notMem ht]
    refine iff_of_false nofun ?_
    rintro ⟨opening, closing, ⟨hopens, -⟩, -⟩
    exact ht hopens.mem
  · rw [bracketed?_append_cons hb]
    simp only [firstGroup_append_iff hb]
    have hinside {x : Text} (hx : upToClose 0 r = some x) :
        (b' ++ '[' :: r).extract (b'.length + 1) (b'.length + 1 + x.length) = x := by
      obtain ⟨y, rfl⟩ := upToClose_eq_some hx
      simp
    constructor
    · intro h
      obtain ⟨x, hx, heq⟩ := Option.map_eq_some_iff.1 h
      obtain ⟨rfl, rfl⟩ := Prod.mk.inj heq
      exact ⟨_, _, ⟨x, hx, rfl, rfl⟩, by simp, (hinside hx).symm⟩
    · rintro ⟨opening, closing, ⟨x, hx, rfl, rfl⟩, rfl, rfl⟩
      rw [hx, hinside hx, Option.map_some, List.take_left]

theorem FirstGroup.deep (h : FirstGroup t opening closing) (hlt : opening < n)
    (hle : n ≤ closing) : Deep (t.extract opening n) := by
  rcases notMem_or_exists_append t with ht | ⟨b, r, rfl, hb⟩
  · exact absurd h.opens.mem ht
  · obtain ⟨x, hx, rfl, rfl⟩ := (firstGroup_append_iff hb).1 h
    have hbalanced := bracketBalanced_of_upToClose hx
    obtain ⟨y, rfl⟩ := upToClose_eq_some hx
    obtain ⟨k, rfl⟩ := Nat.exists_eq_add_of_le (Nat.succ_le_of_lt hlt)
    rw [extract_append_cons, deep_cons_iff, List.take_append_of_le_length (by omega)]
    exact hbalanced.count_prefix _ (List.take_prefix k x)

theorem FirstOpening.exists_append (h : FirstOpening t opening) :
    ∃ b r, t = b ++ '[' :: r ∧ '[' ∉ b ∧ t.drop opening = '[' :: r := by
  rcases notMem_or_exists_append t with ht | ⟨b, r, rfl, hb⟩
  · exact absurd h.mem ht
  · obtain rfl := h.unique (firstOpening_append hb r)
    exact ⟨b, r, rfl, hb, List.drop_left⟩

theorem FirstOpening.deep (ho : FirstOpening t opening) (h : bracketed? t = none)
    (hu : u <+: t.drop opening) (hne : u ≠ []) : Deep u := by
  obtain ⟨b, r, rfl, hb, hdrop⟩ := ho.exists_append
  rw [bracketed?_append_cons hb, Option.map_eq_none_iff, upToClose_eq_none_iff] at h
  rw [hdrop, List.prefix_cons_iff] at hu
  obtain rfl | ⟨u, rfl, hu⟩ := hu
  · exact absurd rfl hne
  · rw [deep_cons_iff]
    simpa using h u hu

theorem bracketed?_eq_none_iff : bracketed? t = none ↔
    '[' ∉ t ∨ ∃ opening, FirstOpening t opening ∧
      ∀ u, u <+: t.drop opening → u ≠ [] → ¬ Level u := by
  constructor
  · intro h
    refine (notMem_or_exists_append t).imp_right ?_
    rintro ⟨b, r, rfl, hb⟩
    have ho := firstOpening_append hb r
    exact ⟨b.length, ho, fun u hu hne => (ho.deep h hu hne).ne⟩
  · rintro (ht | ⟨opening, ho, hlevel⟩)
    · exact bracketed?_of_notMem ht
    · obtain ⟨b, r, rfl, hb, hdrop⟩ := ho.exists_append
      rw [bracketed?_append_cons hb, Option.map_eq_none_iff, Option.eq_none_iff_forall_ne_some]
      intro x hx
      have hbalanced := bracketBalanced_of_upToClose hx
      obtain ⟨y, rfl⟩ := upToClose_eq_some hx
      refine hlevel _ ?_ (List.cons_ne_nil _ _) hbalanced.level
      rw [hdrop]
      exact ⟨y, by simp⟩

/-- What a search for the first group may give: it finds the group if there is one and, of a text
whose brackets do not close, gives nothing. On its way more brackets are open than were closed. -/
structure FindsGroup (t : Text) (found : Option (Text × Text)) : Prop where
  eq_some_iff : ∀ b inside, found = some (b, inside) ↔
    ∃ opening closing, FirstGroup t opening closing ∧
      b = t.take opening ∧ inside = t.extract (opening + 1) closing
  eq_none_iff : found = none ↔ '[' ∉ t ∨ ∃ opening, FirstOpening t opening ∧
    ∀ u, u <+: t.drop opening → u ≠ [] → ¬ Level u
  deep : ∀ opening closing, FirstGroup t opening closing →
    ∀ n, opening < n → n ≤ closing → Deep (t.extract opening n)
  deep_of_none : found = none → ∀ opening, FirstOpening t opening →
    ∀ u, u <+: t.drop opening → u ≠ [] → Deep u

theorem findsGroup_bracketed? (t : Text) : FindsGroup t (bracketed? t) where
  eq_some_iff _ _ := bracketed?_eq_some_iff
  eq_none_iff := bracketed?_eq_none_iff
  deep _ _ h _ := h.deep
  deep_of_none h _ ho _ := ho.deep h

end SpirvTables.Text
