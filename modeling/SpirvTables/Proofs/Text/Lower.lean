import SpirvTables.Proofs.Character
import SpirvTables.Proofs.Text.Wrap
import SpirvTables.Text.Basic

namespace SpirvTables

namespace Character

def isFence (c : Char) : Bool := 0 < c.toNat && c.toNat < 0x61

theorem le_lower_of_mem_caseRuns : ∀ r ∈ caseRuns, 0x61 ≤ r.lower := by decide +kernel

theorem isFence_ofNat {n : Nat} (h : 0x61 ≤ n) : isFence (Char.ofNat n) = false := by
  by_cases hn : n.isValidChar
  · rw [isFence, toNat_ofNat hn]
    simp
    omega
  · rw [Char.ofNat, dif_neg hn]
    rfl

theorem eq_of_mem_lower {c x : Char} (h : x ∈ lower c) (hx : isFence x) : x = c := by
  cases lowerForm_of_mem_lower h with
  | dotted _ h => rcases h with rfl | rfl <;> exact absurd hx (by decide)
  | run hr hl =>
    rw [isFence_ofNat ((le_lower_of_mem_caseRuns _ hr).trans (CaseRun.bounds_of_lower? hl).1)] at hx
    cases hx
  | self _ => rfl

theorem isWord_of_isBlank {c : Char} (h : isBlank c) : isWord c = false := by
  have hspans : ∀ i ∈ blankSpans, ∀ k < i.2 - i.1 + 1,
      alphabeticSpans.has (i.1 + k) = false ∧ numeralSpans.has (i.1 + k) = false ∧
        i.1 + k ≠ '_'.toNat := by decide +kernel
  obtain ⟨i, hi, hlo, hhi⟩ := Spans.mem_of_has h
  obtain ⟨ha, hn, hu⟩ := hspans i hi (c.toNat - i.1) (by omega)
  rw [Nat.add_sub_cancel' hlo] at ha hn hu
  have hne : c ≠ '_' := fun hc => hu (by rw [hc])
  simp [isWord, isAlphabetic, isNumeral, ha, hn, hne]

theorem isBlank_of_isWord {c : Char} (h : isWord c) : isBlank c = false := by
  by_contra hblank
  rw [isWord_of_isBlank (Bool.of_not_eq_false hblank)] at h
  cases h

end Character

namespace Text

variable {c x : Char} {t : Text}

theorem mem_lowerFrom {before : Text} : x ∈ lowerFrom before t ↔
    ∃ s c r, t = s ++ c :: r ∧ x ∈ lowerAt (s.reverse ++ before) c r := by
  induction t generalizing before with
  | nil => simp [lowerFrom]
  | cons d t ih =>
    rw [lowerFrom, List.mem_append, ih]
    constructor
    · rintro (hx | ⟨s, c, r, rfl, hx⟩)
      · exact ⟨[], d, t, rfl, hx⟩
      · exact ⟨d :: s, c, r, rfl, by simpa using hx⟩
    · rintro ⟨_ | ⟨e, s⟩, c, r, h, hx⟩
      · obtain ⟨rfl, rfl⟩ := List.cons.inj h
        exact .inl hx
      · obtain ⟨rfl, rfl⟩ := List.cons.inj h
        exact .inr ⟨s, c, r, rfl, by simpa using hx⟩

theorem sigma_or_of_mem_lowerAt {before after : Text} (hx : x ∈ lowerAt before c after) :
    c = 'Σ' ∧ (x = 'ς' ∨ x = 'σ') ∨ c ≠ 'Σ' ∧ x ∈ Character.lower c := by
  unfold lowerAt at hx
  split at hx
  · next hc =>
    refine .inl ⟨hc, ?_⟩
    split at hx
    · exact .inl (List.mem_singleton.1 hx)
    · exact .inr (List.mem_singleton.1 hx)
  · next hc => exact .inr ⟨hc, hx⟩

theorem notMem_lower (hc : Character.isFence c) (h : c ∉ t) : c ∉ lower t := by
  intro hlower
  obtain ⟨s, d, r, rfl, hm⟩ := mem_lowerFrom.1 hlower
  obtain ⟨-, rfl | rfl⟩ | ⟨-, hm⟩ := sigma_or_of_mem_lowerAt hm
  · exact absurd hc (by decide)
  · exact absurd hc (by decide)
  · rw [Character.eq_of_mem_lower hm hc] at h
    exact h List.mem_append_cons_self

theorem of_mem_splitOnP {f : Char → Bool} {x : Text} (h : x ∈ t.splitOnP f) :
    ∀ c ∈ x, f c = false := by
  induction t generalizing x with
  | nil =>
    rw [List.splitOnP_nil, List.mem_singleton] at h
    simp [h]
  | cons d t ih =>
    rw [List.splitOnP_cons_eq_if_modifyHead] at h
    split at h
    · rcases List.mem_cons.1 h with rfl | h
      · simp
      · exact ih h
    · next hd =>
      obtain ⟨y, ys, hy⟩ := List.exists_cons_of_ne_nil (List.splitOnP_ne_nil f t)
      rw [hy] at h ih
      rcases List.mem_cons.1 h with rfl | h
      · intro c hc
        rcases List.mem_cons.1 hc with rfl | hc
        · simpa using hd
        · exact ih List.mem_cons_self c hc
      · exact ih (List.mem_cons_of_mem _ h)

theorem mem_or_of_mem_join {sep : Text} {ts : List Text} (h : c ∈ join sep ts) :
    c ∈ sep ∨ ∃ t ∈ ts, c ∈ t := by
  induction ts with
  | nil => cases h
  | cons s ts ih =>
    cases ts with
    | nil => exact .inr ⟨s, List.mem_singleton_self s, by simpa using h⟩
    | cons r ts =>
      rw [join, List.intercalate_cons_cons, List.mem_append, List.mem_append] at h
      rcases h with (h | h) | h
      · exact .inr ⟨s, List.mem_cons_self, h⟩
      · exact .inl h
      · obtain h | ⟨t, ht, hc⟩ := ih h
        · exact .inl h
        · exact .inr ⟨t, List.mem_cons_of_mem s ht, hc⟩

theorem notMem_identifier (hc : Character.isFence c) (hw : Character.isWord c = false) :
    c ∉ identifier t := by
  have hne : c ≠ '_' := by
    rintro rfl
    revert hw
    decide
  intro hm
  obtain hm | ⟨x, hx, hm⟩ := mem_or_of_mem_join hm
  · exact hne (List.mem_singleton.1 hm)
  · obtain ⟨w, hw', rfl⟩ := List.mem_map.1 hx
    refine notMem_lower hc (fun hcw => ?_) hm
    have hblank := of_mem_splitOnP (List.mem_filter.1 hw').1 c hcw
    have hkept := (infix_of_mem_words hw').subset hcw
    simp [hw, hblank] at hkept

end Text

end SpirvTables
