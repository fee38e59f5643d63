import Mathlib.Data.List.Infix
import SpirvTables.Text.Arrange

namespace SpirvTables.Text

variable {before p s t word : Text} {ps qs : List Text} {c : Char}

inductive LettersBefore : Text → Prop
  | two (u : Text) {x y : Char} : Character.isLetter x → Character.isLetter y →
    LettersBefore (u ++ [x, y])
  | across (u : Text) {x y : Char} : Character.isLetter x → Character.isLetter y →
    LettersBefore (u ++ [x, '-', y])

inductive LettersBehind : Text → Prop
  | two (u : Text) {x y : Char} : Character.isLetter x → Character.isLetter y →
    LettersBehind (x :: y :: u)
  | across (u : Text) {x y : Char} : Character.isLetter x → Character.isLetter y →
    LettersBehind (x :: '-' :: y :: u)

inductive Breakable : Text → Text → Prop
  | hyphen {u t : Text} : LettersBefore u → LettersBehind t → Breakable (u ++ ['-']) t

/-- A place between two pieces, by the text before it and the text behind it. -/
inductive CutAt : List Text → Text → Text → Prop
  | here {p q : Text} {ps : List Text} : CutAt (p :: q :: ps) p (q :: ps).flatten
  | there {p s t : Text} {ps : List Text} : CutAt ps s t → CutAt (p :: ps) (p ++ s) t

theorem ne_nil_of_mem_piecesFrom (before : Text) (ht : t ≠ []) :
    ∀ p ∈ piecesFrom before t, p ≠ [] := by
  induction t generalizing before with
  | nil => exact absurd rfl ht
  | cons c t ih =>
    rw [piecesFrom]
    split
    · next hbreak =>
      have ht : t ≠ [] := by
        rintro rfl
        simp [breaksBehind, flanks] at hbreak
      exact List.forall_mem_cons.2 ⟨List.cons_ne_nil c [], ih _ ht⟩
    · by_cases ht : t = []
      · simp [ht, piecesFrom]
      · obtain ⟨q, qs, hqs⟩ := List.exists_cons_of_ne_nil (piecesFrom_ne_nil (c :: before) t)
        have hne := ih (c :: before) ht
        rw [hqs] at hne ⊢
        exact List.forall_mem_cons.2
          ⟨List.cons_ne_nil c q, (List.forall_mem_cons.1 hne).2⟩

theorem flanks_iff : flanks t ↔ LettersBehind t := by
  constructor
  · intro h
    rcases t with _ | ⟨x, _ | ⟨y, u⟩⟩
    · simp [flanks] at h
    · simp [flanks] at h
    · simp only [flanks, Bool.and_eq_true, Bool.or_eq_true, beq_iff_eq] at h
      obtain ⟨hx, hy | ⟨rfl, hz⟩⟩ := h
      · exact .two u hx hy
      · rcases u with _ | ⟨z, u⟩
        · simp at hz
        · exact .across u hx hz
  · rintro (⟨u, hx, hy⟩ | ⟨u, hx, hy⟩)
    · simp [flanks, hx, hy]
    · simp [flanks, hx, hy]

theorem lettersBehind_reverse_iff : LettersBehind s.reverse ↔ LettersBefore s := by
  constructor
  · generalize hr : s.reverse = r
    obtain rfl : s = r.reverse := by rw [← hr, List.reverse_reverse]
    rintro (⟨u, hx, hy⟩ | ⟨u, hx, hy⟩)
    · simpa using LettersBefore.two u.reverse hy hx
    · simpa using LettersBefore.across u.reverse hy hx
  · rintro (⟨u, hx, hy⟩ | ⟨u, hx, hy⟩)
    · simpa using LettersBehind.two u.reverse hy hx
    · simpa using LettersBehind.across u.reverse hy hx

theorem breaksBehind_reverse_iff : breaksBehind s.reverse c t ↔ Breakable (s ++ [c]) t := by
  rw [breaksBehind, Bool.and_eq_true, Bool.and_eq_true, flanks_iff, flanks_iff,
    lettersBehind_reverse_iff, beq_iff_eq]
  constructor
  · rintro ⟨⟨rfl, hs⟩, ht⟩
    exact .hyphen hs ht
  · generalize hsc : s ++ [c] = sc
    rintro ⟨hs, ht⟩
    obtain ⟨rfl, hc⟩ := List.append_inj' hsc rfl
    exact ⟨⟨List.singleton_inj.1 hc, hs⟩, ht⟩

theorem Breakable.append (h : Breakable s t) (a b : Text) : Breakable (a ++ s) (t ++ b) := by
  obtain ⟨hs, ht⟩ := h
  rw [← List.append_assoc]
  constructor
  · rcases hs with ⟨u, hx, hy⟩ | ⟨u, hx, hy⟩
    · rw [← List.append_assoc]
      exact .two _ hx hy
    · rw [← List.append_assoc]
      exact .across _ hx hy
  · rcases ht with ⟨u, hx, hy⟩ | ⟨u, hx, hy⟩
    · exact .two _ hx hy
    · exact .across _ hx hy

theorem cutAt_cons_iff : CutAt (p :: ps) s t ↔
    (ps ≠ [] ∧ s = p ∧ t = ps.flatten) ∨ ∃ s', s = p ++ s' ∧ CutAt ps s' t := by
  constructor
  · rintro (_ | h)
    · exact .inl ⟨List.cons_ne_nil _ _, rfl, rfl⟩
    · exact .inr ⟨_, rfl, h⟩
  · rintro (⟨hne, rfl, rfl⟩ | ⟨s', rfl, h⟩)
    · obtain ⟨q, ps, rfl⟩ := List.exists_cons_of_ne_nil hne
      exact .here
    · exact .there h

theorem cutAt_modifyHead_iff :
    CutAt (ps.modifyHead (c :: ·)) s t ↔ ∃ s', s = c :: s' ∧ CutAt ps s' t := by
  cases ps with
  | nil =>
    refine iff_of_false ?_ ?_
    · rintro ⟨⟩
    · rintro ⟨_, _, ⟨⟩⟩
  | cons p ps =>
    simp only [List.modifyHead_cons, cutAt_cons_iff]
    constructor
    · rintro (⟨hne, rfl, ht⟩ | ⟨s', rfl, h⟩)
      · exact ⟨p, rfl, .inl ⟨hne, rfl, ht⟩⟩
      · exact ⟨p ++ s', rfl, .inr ⟨s', rfl, h⟩⟩
    · rintro ⟨s', rfl, ⟨hne, rfl, ht⟩ | ⟨s', rfl, h⟩⟩
      · exact .inl ⟨hne, rfl, ht⟩
      · exact .inr ⟨s', rfl, h⟩

def BreaksAt (before word s t : Text) : Prop :=
  ∃ u c, s = u ++ [c] ∧ word = s ++ t ∧ breaksBehind (u.reverse ++ before) c t

theorem breaksAt_cons_iff : BreaksAt before (c :: word) s t ↔
    (s = [c] ∧ word = t ∧ breaksBehind before c t) ∨
      ∃ s', s = c :: s' ∧ BreaksAt (c :: before) word s' t := by
  constructor
  · rintro ⟨_ | ⟨d, u⟩, e, rfl, hword, hbreak⟩
    · obtain ⟨rfl, rfl⟩ := List.cons.inj hword
      exact .inl ⟨rfl, rfl, hbreak⟩
    · obtain ⟨rfl, rfl⟩ := List.cons.inj hword
      exact .inr ⟨u ++ [e], rfl, u, e, rfl, rfl, by simpa using hbreak⟩
  · rintro (⟨rfl, rfl, hbreak⟩ | ⟨_, rfl, u, e, rfl, rfl, hbreak⟩)
    · exact ⟨[], c, rfl, rfl, hbreak⟩
    · exact ⟨c :: u, e, rfl, rfl, by simpa using hbreak⟩

theorem cutAt_piecesFrom_iff : CutAt (piecesFrom before word) s t ↔ BreaksAt before word s t := by
  induction word generalizing before s with
  | nil =>
    refine iff_of_false ?_ ?_
    · rintro (_ | ⟨⟨⟩⟩)
    · rintro ⟨u, c, rfl, hword, -⟩
      simp at hword
  | cons c word ih =>
    rw [breaksAt_cons_iff, piecesFrom]
    simp only [← ih]
    split
    · next hbreak =>
      rw [cutAt_cons_iff, flatten_piecesFrom]
      apply or_congr_left
      constructor
      · rintro ⟨-, rfl, rfl⟩
        exact ⟨rfl, rfl, hbreak⟩
      · rintro ⟨rfl, rfl, -⟩
        exact ⟨piecesFrom_ne_nil _ _, rfl, rfl⟩
    · next hbreak =>
      rw [cutAt_modifyHead_iff, or_iff_right]
      rintro ⟨-, rfl, h⟩
      exact hbreak h

theorem cutAt_hyphenPieces_iff :
    CutAt (hyphenPieces word) s t ↔ word = s ++ t ∧ Breakable s t := by
  rw [hyphenPieces, cutAt_piecesFrom_iff]
  constructor
  · rintro ⟨u, c, rfl, hword, hbreak⟩
    rw [List.append_nil, breaksBehind_reverse_iff] at hbreak
    exact ⟨hword, hbreak⟩
  · rintro ⟨hword, hs, ht⟩
    refine ⟨_, '-', rfl, hword, ?_⟩
    rw [List.append_nil, breaksBehind_reverse_iff]
    exact .hyphen hs ht

theorem CutAt.append (h : CutAt (hyphenPieces word) s t) (a b : Text) :
    CutAt (hyphenPieces (a ++ (word ++ b))) (a ++ s) (t ++ b) := by
  obtain ⟨rfl, hbreak⟩ := cutAt_hyphenPieces_iff.1 h
  exact cutAt_hyphenPieces_iff.2 ⟨by simp only [List.append_assoc], hbreak.append a b⟩

theorem CutAt.ne_nil (h : CutAt (hyphenPieces word) s t) : s ≠ [] := by
  obtain ⟨-, hs, -⟩ := cutAt_hyphenPieces_iff.1 h
  simp

theorem exists_cutAt_of_mem_dropLast (hp : p ∈ ps.dropLast) : ∃ s t, CutAt ps (s ++ p) t := by
  induction ps with
  | nil => cases hp
  | cons q ps ih =>
    cases ps with
    | nil => cases hp
    | cons r ps =>
      rcases List.mem_cons.1 hp with rfl | hp
      · exact ⟨[], _, .here⟩
      · obtain ⟨s, t, h⟩ := ih hp
        exact ⟨q ++ s, t, by simpa using h.there⟩

theorem CutAt.length_le (h : CutAt (ps ++ p :: qs) (ps.flatten ++ s) t) (hs : s ≠ []) :
    p.length ≤ s.length := by
  induction ps with
  | nil =>
    rcases cutAt_cons_iff.1 h with ⟨-, rfl, -⟩ | ⟨s', rfl, -⟩
    · exact Nat.le_refl _
    · simp
  | cons p₀ ps ih =>
    rw [List.flatten_cons, List.append_assoc] at h
    rcases cutAt_cons_iff.1 h with ⟨-, hnil, -⟩ | ⟨s', hs', hrest⟩
    · exact absurd (List.append_eq_nil_iff.1 (List.append_right_eq_self.1 hnil)).2 hs
    · rw [← List.append_cancel_left hs'] at hrest
      exact ih hrest

/-- The beginning `p` of a word is not broken, wherever the word may end behind it. -/
def Firm (p rest : Text) : Prop :=
  ∀ x q qs, x <+: p ++ rest → p.length ≤ x.length → hyphenPieces x = q :: qs → p.length ≤ q.length

theorem firm_of_hyphenPieces (h : hyphenPieces word = ps ++ p :: qs) : Firm p qs.flatten := by
  rintro x q rs ⟨rest, hx⟩ hle hq
  have hword : word = ps.flatten ++ (x ++ rest) := by
    rw [hx, ← flatten_hyphenPieces word, h, List.flatten_append, List.flatten_cons]
  have hflat : q ++ rs.flatten = x := by
    rw [← flatten_hyphenPieces x, hq, List.flatten_cons]
  cases rs with
  | nil =>
    rw [List.flatten_nil, List.append_nil] at hflat
    rwa [hflat]
  | cons r rs =>
    have hcut : CutAt (hyphenPieces x) q (r :: rs).flatten := by
      rw [hq]
      exact .here
    have hwhole := hcut.append ps.flatten rest
    rw [← hword, h] at hwhole
    exact hwhole.length_le hcut.ne_nil

structure Hyphenated (word : Text) (ps : List Text) : Prop where
  flatten : ps.flatten = word
  ne_nil : word ≠ [] → ∀ p ∈ ps, p ≠ []
  hyphen : ∀ p ∈ ps.dropLast, p.getLast? = some '-'
  cutAt_iff : ∀ s t, CutAt ps s t ↔ word = s ++ t ∧ Breakable s t

theorem getLast?_of_mem_dropLast (hp : p ∈ (hyphenPieces word).dropLast) :
    p.getLast? = some '-' := by
  obtain ⟨s, t, hcut⟩ := exists_cutAt_of_mem_dropLast hp
  have hne : p ≠ [] := by
    apply ne_nil_of_mem_piecesFrom (t := word) [] _ p (List.mem_of_mem_dropLast hp)
    rintro rfl
    cases hp
  have hbreak := (cutAt_hyphenPieces_iff.1 hcut).2
  generalize hsp : s ++ p = sp at hbreak
  cases hbreak
  rw [← List.getLast?_append_of_ne_nil s hne, hsp, List.getLast?_concat]

theorem hyphenated_hyphenPieces (word : Text) : Hyphenated word (hyphenPieces word) where
  flatten := flatten_hyphenPieces word
  ne_nil hne := ne_nil_of_mem_piecesFrom [] hne
  hyphen _ := getLast?_of_mem_dropLast
  cutAt_iff _ _ := cutAt_hyphenPieces_iff

/-- A word is cut where it may be broken and nowhere else, and every cut of a part of it is a cut of
the word at the same place. -/
theorem hyphenPieces_cut_locally (word : Text) :
    Hyphenated word (hyphenPieces word) ∧
      ∀ a part b, word = a ++ (part ++ b) →
        ∀ s t, CutAt (hyphenPieces part) s t → CutAt (hyphenPieces word) (a ++ s) (t ++ b) := by
  refine ⟨hyphenated_hyphenPieces word, ?_⟩
  rintro a part b rfl s t hcut
  exact hcut.append a b

def hyphenedWord : Text := "non-ab-c-de"

theorem hyphenPieces_cut_locally_part :
    hyphenPieces "ab-c-d" = ["ab-", "c-d"] ∧
      CutAt (hyphenPieces "ab-c-d") "ab-" "c-d" ∧
      hyphenPieces hyphenedWord = ["non-", "ab-", "c-", "de"] ∧
      CutAt (hyphenPieces hyphenedWord) "non-ab-" "c-de" := by
  have hpart : hyphenPieces "ab-c-d" = ["ab-", "c-d"] := by decide +kernel
  have hword : hyphenedWord = "non-" ++ (("ab-c-d" : Text) ++ ("e" : Text)) := by decide +kernel
  have hcut : CutAt (hyphenPieces "ab-c-d") "ab-" "c-d" := by
    rw [hpart]
    exact .here
  refine ⟨hpart, hcut, by decide +kernel, ?_⟩
  have hwhole := (hyphenPieces_cut_locally hyphenedWord).2 _ _ _ hword _ _ hcut
  have hleft : ("non-" : Text) ++ ("ab-" : Text) = "non-ab-" := by decide +kernel
  have hright : ("c-d" : Text) ++ ("e" : Text) = "c-de" := by decide +kernel
  rwa [hleft, hright] at hwhole

end SpirvTables.Text
