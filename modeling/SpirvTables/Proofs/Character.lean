import Mathlib.Data.List.Chain
import SpirvTables.Character.Basic
import SpirvTables.Character.Case

namespace SpirvTables.Character

variable {c x : Char} {m n : Nat} {i : Nat × Nat} {r r' : CaseRun}

theorem isDigit_iff : c.isDigit ↔ 48 ≤ c.toNat ∧ c.toNat ≤ 57 :=
  Bool.and_eq_true_iff.trans (and_congr (decide_eq_true_iff.trans UInt32.le_iff_toNat_le)
    (decide_eq_true_iff.trans UInt32.le_iff_toNat_le))

theorem isLower_iff : c.isLower ↔ 97 ≤ c.toNat ∧ c.toNat ≤ 122 :=
  Bool.and_eq_true_iff.trans (and_congr (decide_eq_true_iff.trans UInt32.le_iff_toNat_le)
    (decide_eq_true_iff.trans UInt32.le_iff_toNat_le))

theorem isUpper_iff : c.isUpper ↔ 65 ≤ c.toNat ∧ c.toNat ≤ 90 :=
  decide_eq_true_iff.trans (and_congr UInt32.le_iff_toNat_le UInt32.le_iff_toNat_le)

theorem toNat_toLower (c : Char) :
    c.toLower.toNat = if 65 ≤ c.toNat ∧ c.toNat ≤ 90 then c.toNat + 32 else c.toNat := by
  have hupper : (c.val ≥ 'A'.val ∧ c.val ≤ 'Z'.val) ↔ 65 ≤ c.toNat ∧ c.toNat ≤ 90 :=
    and_congr UInt32.le_iff_toNat_le UInt32.le_iff_toNat_le
  unfold Char.toLower
  simp only [hupper]
  split
  · next h =>
    change (c.val + 32).toNat = c.toNat + 32
    rw [UInt32.toNat_add, Char.toNat_val]
    exact Nat.mod_eq_of_lt (by change c.toNat + 32 < _; omega)
  · rfl

theorem toNat_ofNat {n : Nat} (h : n.isValidChar) : (Char.ofNat n).toNat = n := by
  rw [Char.ofNat, dif_pos h]
  rfl

theorem isWord_of_isAlphanum (h : c.isAlphanum) : isWord c := by
  have hascii : ∀ n < 128, (Char.ofNat n).isAlphanum → isWord (Char.ofNat n) := by decide +kernel
  have hlt : c.toNat < 128 := by
    obtain halpha | hdigit := Bool.or_eq_true_iff.1 h
    · obtain hupper | hlower := Bool.or_eq_true_iff.1 halpha
      · exact (isUpper_iff.1 hupper).2.trans_lt (by decide)
      · exact (isLower_iff.1 hlower).2.trans_lt (by decide)
    · exact (isDigit_iff.1 hdigit).2.trans_lt (by decide)
  have hword := hascii c.toNat hlt
  rw [Char.ofNat_toNat] at hword
  exact hword h

theorem Spans.has_of_mem {s : Spans} {i : Nat × Nat} (h : s.Pairwise (·.1 ≤ ·.1))
    (hi : i ∈ s) (hlo : i.1 ≤ n) (hhi : n ≤ i.2) : s.has n := by
  induction s with
  | nil => cases hi
  | cons j s ih =>
    obtain ⟨hj, h⟩ := List.pairwise_cons.1 h
    rcases List.mem_cons.1 hi with rfl | hi
    · simp [has, hlo, hhi]
    · simp [has, ih h hi, (hj i hi).trans hlo]

theorem pairwise_alphabeticSpans : alphabeticSpans.Pairwise (·.1 ≤ ·.1) := by
  have htrans : IsTrans (Nat × Nat) (·.1 ≤ ·.1) := ⟨fun _ _ _ => Nat.le_trans⟩
  exact List.isChain_iff_pairwise.1 (by decide +kernel)

theorem exists_span_of_mem_caseRuns : ∀ r ∈ caseRuns, ∃ i ∈ alphabeticSpans,
    i.1 ≤ r.lower ∧ r.lower + (r.last - r.first) ≤ i.2 := by
  -- The kernel decides the comparisons of a test faster than those of a proposition.
  have htest : caseRuns.all (fun r => alphabeticSpans.any fun i =>
      Nat.ble i.1 r.lower && Nat.ble (r.lower + (r.last - r.first)) i.2) = true := by
    decide +kernel
  simpa only [List.all_eq_true, List.any_eq_true, Bool.and_eq_true, Nat.ble_eq] using htest

theorem isValidChar_of_mem_alphabeticSpans :
    ∀ i ∈ alphabeticSpans, i.2 < 0xD800 ∨ 0xDFFF < i.1 ∧ i.2 < 0x110000 := by decide +kernel

theorem isValidChar_of_mem_span (hi : i ∈ alphabeticSpans) (hlo : i.1 ≤ n) (hhi : n ≤ i.2) :
    n.isValidChar := by
  have := isValidChar_of_mem_alphabeticSpans i hi
  simp only [Nat.isValidChar]
  omega

theorem isWord_ofNat (hi : i ∈ alphabeticSpans) (hlo : i.1 ≤ n) (hhi : n ≤ i.2) :
    isWord (Char.ofNat n) := by
  have hhas := Spans.has_of_mem pairwise_alphabeticSpans hi hlo hhi
  rw [isWord, isAlphabetic, toNat_ofNat (isValidChar_of_mem_span hi hlo hhi), hhas]
  rfl

theorem CaseRun.bounds_of_lower? (h : r.lower? n = some m) :
    r.lower ≤ m ∧ m ≤ r.lower + (r.last - r.first) := by
  unfold lower? at h
  split at h
  · obtain rfl := Option.some.inj h
    omega
  · cases h

theorem exists_span_of_lower? (hr : r ∈ caseRuns) (h : r.lower? n = some m) :
    ∃ i ∈ alphabeticSpans, i.1 ≤ m ∧ m ≤ i.2 := by
  obtain ⟨i, hi, hlo, hhi⟩ := exists_span_of_mem_caseRuns r hr
  obtain ⟨hle, hge⟩ := CaseRun.bounds_of_lower? h
  exact ⟨i, hi, hlo.trans hle, hge.trans hhi⟩

/-- A character of the lower case of another: one of the two that the dotted capital I becomes, one
that a run gives, or the character itself where no run has it. -/
inductive LowerForm (c : Char) : Char → Prop
  | dotted {x : Char} : c = 'İ' → x = 'i' ∨ x = '\u0307' → LowerForm c x
  | run {r : CaseRun} {m : Nat} : r ∈ caseRuns → r.lower? c.toNat = some m →
    LowerForm c (Char.ofNat m)
  | self : lower c = [c] → LowerForm c c

theorem lowerForm_of_mem_lower (hx : x ∈ lower c) : LowerForm c x := by
  by_cases hc : c = 'İ'
  · rw [lower, if_pos hc, List.mem_pair] at hx
    exact .dotted hc hx
  · rw [lower, if_neg hc] at hx
    split at hx
    · next m hm =>
      obtain ⟨r, hr, hl⟩ := List.exists_of_findSome?_eq_some hm
      rw [List.mem_singleton.1 hx]
      exact .run hr hl
    · next hm =>
      rw [List.mem_singleton.1 hx]
      exact .self (by rw [lower, if_neg hc, hm])

theorem isWord_of_mem_lower (hc : isWord c) (hne : c ≠ 'İ') (hx : x ∈ lower c) :
    isWord x := by
  cases lowerForm_of_mem_lower hx with
  | dotted heq _ => exact absurd heq hne
  | run hr hl =>
    obtain ⟨i, hi, hlo, hhi⟩ := exists_span_of_lower? hr hl
    exact isWord_ofNat hi hlo hhi
  | self _ => exact hc

theorem apart_of_mem_caseRuns : ∀ r ∈ caseRuns, ∀ r' ∈ caseRuns,
    r.lower + (r.last - r.first) < r'.first ∨ r'.last < r.lower ∨
      r'.stride = 2 ∧ (r.stride = 2 ∨ r.first = r.last) ∧ (r.lower + r'.first) % 2 = 1 := by
  have htest : caseRuns.all (fun r => caseRuns.all fun r' =>
      Nat.blt (r.lower + (r.last - r.first)) r'.first || (Nat.blt r'.last r.lower ||
        (Nat.beq r'.stride 2 && ((Nat.beq r.stride 2 || Nat.beq r.first r.last) &&
          Nat.beq ((r.lower + r'.first) % 2) 1)))) = true := by
    decide +kernel
  simpa only [List.all_eq_true, Bool.or_eq_true, Bool.and_eq_true, Nat.blt_eq, Nat.beq_eq]
    using htest

theorem lower?_eq_none (hr : r ∈ caseRuns) (hr' : r' ∈ caseRuns) (h : r.lower? n = some m) :
    r'.lower? m = none := by
  have hapart := apart_of_mem_caseRuns r hr r' hr'
  unfold CaseRun.lower? at h ⊢
  split at h
  · next hn =>
    obtain rfl := Option.some.inj h
    refine if_neg fun hm => ?_
    obtain hlt | hlt | ⟨hstride, hone, hodd⟩ := hapart
    · omega
    · omega
    · -- Every other character is in the run, and the form is one of those between.
      rw [hstride] at hm
      obtain hone | hone := hone
      · rw [hone] at hn
        omega
      · omega
  · cases h

/-- A character that is its own lower case, whatever stands next to it. -/
structure Lowered (c : Char) : Prop where
  ne_sigma : c ≠ 'Σ'
  lower_eq : lower c = [c]

instance (c : Char) : Decidable (Lowered c) :=
  decidable_of_iff (c ≠ 'Σ' ∧ lower c = [c]) ⟨fun h => ⟨h.1, h.2⟩, fun h => ⟨h.1, h.2⟩⟩

theorem lowered_ofNat (hr : r ∈ caseRuns) (h : r.lower? n = some m) : Lowered (Char.ofNat m) := by
  obtain ⟨i, hi, hlo, hhi⟩ := exists_span_of_lower? hr h
  have hnat := toNat_ofNat (isValidChar_of_mem_span hi hlo hhi)
  have hbounds := CaseRun.bounds_of_lower? h
  have hne {c : Char} (hc : ∀ r ∈ caseRuns, r.lower + (r.last - r.first) < c.toNat ∨
      c.toNat < r.lower) : Char.ofNat m ≠ c := by
    rintro rfl
    have := hc r hr
    omega
  have hnone : caseRuns.findSome? (·.lower? m) = none :=
    List.findSome?_eq_none_iff.2 fun r' hr' => lower?_eq_none hr hr' h
  refine ⟨hne (by decide +kernel), ?_⟩
  rw [lower, if_neg (hne (by decide +kernel)), hnat, hnone]

theorem lowered_of_mem_lower (hc : c ≠ 'Σ') (hx : x ∈ lower c) : Lowered x := by
  cases lowerForm_of_mem_lower hx with
  | dotted _ hx => rcases hx with rfl | rfl <;> decide +kernel
  | run hr hl => exact lowered_ofNat hr hl
  | self hlower => exact ⟨hc, hlower⟩

end SpirvTables.Character
