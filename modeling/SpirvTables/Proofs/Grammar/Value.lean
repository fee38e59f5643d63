import Mathlib.Data.List.Forall2
import Mathlib.Data.Nat.Digits.Defs
import Mathlib.Data.Option.Basic
import Mathlib.Tactic.Ring
import SpirvTables.Grammar.Reader
import SpirvTables.Proofs.Character
import SpirvTables.Proofs.Text.Word

namespace SpirvTables

variable {base d m n : Nat} {c : Char} {t : Text} {v : Json} {w : UInt32}

structure IsDigit (base : Nat) (c : Char) (d : Nat) : Prop where
  small : d < base
  lower : c.toLower = Nat.digitChar d

inductive Spells (base : Nat) : Text → Nat → Prop
  | digits {t : Text} {ds : List Nat} : t ≠ [] → List.Forall₂ (IsDigit base) t ds →
      Spells base t (Nat.ofDigits base ds.reverse)

inductive Signed (base : Nat) : Text → Nat → Prop
  | bare {t : Text} {n : Nat} : Spells base t n → Signed base t n
  | plus {t : Text} {n : Nat} : Spells base t n → Signed base ('+' :: t) n

inductive IsNumeral : Text → Nat → Prop
  | decimal {t : Text} {n : Nat} : Signed 10 t n → IsNumeral t n
  | hexadecimal {x : Char} {t : Text} {n : Nat} : x ∈ ['x', 'X'] → Signed 16 t n →
      IsNumeral ('0' :: x :: t) n

/-- The number that a JSON value gives, in whatever size. -/
inductive Gives : Json → Nat → Prop
  | integer (n : Nat) : Gives (.integer n) n
  | text {a b t : Text} {n : Nat} : (∀ c ∈ a, Character.isBlank c) →
      (∀ c ∈ b, Character.isBlank c) → IsNumeral t n → Gives (.string (a ++ (t ++ b))) n

theorem toNat_digitChar (h : d < 16) :
    (Nat.digitChar d).toNat = if d < 10 then 48 + d else 87 + d := by
  have hall : ∀ d < 16, (Nat.digitChar d).toNat = if d < 10 then 48 + d else 87 + d := by decide
  exact hall d h

theorem digitValue?_eq_some_iff (hb : base ≤ 16) :
    digitValue? base c = some d ↔ IsDigit base c d := by
  have hdigit := Character.isDigit_iff (c := c)
  have hlower := Character.isLower_iff (c := c)
  have hupper := Character.isUpper_iff (c := c)
  have hspec : IsDigit base c d ↔ d < base ∧ c.toLower.toNat = (Nat.digitChar d).toNat :=
    ⟨fun h => ⟨h.small, by rw [h.lower]⟩, fun h => ⟨h.1, Char.toNat_inj.1 h.2⟩⟩
  have hzero : '0'.toNat = 48 := rfl
  have ha : 'a'.toNat = 97 := rfl
  have hA : 'A'.toNat = 65 := rfl
  rw [hspec, Character.toNat_toLower]
  by_cases hd : d < base
  · rw [toNat_digitChar (by omega)]
    grind [digitValue?]
  · grind [digitValue?]

theorem digitsValue?_eq_some_iff (hb : base ≤ 16) :
    digitsValue? base n t = some m ↔ ∃ ds, List.Forall₂ (IsDigit base) t ds ∧
      n * base ^ t.length + Nat.ofDigits base ds.reverse = m := by
  induction t generalizing n with
  | nil => simp [digitsValue?, List.forall₂_nil_left_iff]
  | cons c t ih =>
    -- The digits read before count once more in the base for each digit that follows.
    have hstep {d : Nat} {ds : List Nat} (h : List.Forall₂ (IsDigit base) t ds) :
        (n * base + d) * base ^ t.length + Nat.ofDigits base ds.reverse =
          n * base ^ (c :: t).length + Nat.ofDigits base (d :: ds).reverse := by
      rw [Nat.ofDigits_reverse_cons, h.length_eq, List.length_cons, h.length_eq]
      ring
    simp only [digitsValue?, bind, Option.bind_eq_some_iff, digitValue?_eq_some_iff hb, ih,
      List.forall₂_cons_left_iff]
    constructor
    · rintro ⟨d, hd, ds, hds, rfl⟩
      exact ⟨d :: ds, ⟨d, ds, hd, hds, rfl⟩, (hstep hds).symm⟩
    · rintro ⟨_, ⟨d, ds, hd, hds, rfl⟩, rfl⟩
      exact ⟨d, hd, ds, hds, hstep hds⟩

theorem spells_iff (hb : base ≤ 16) :
    Spells base t n ↔ t ≠ [] ∧ digitsValue? base 0 t = some n := by
  rw [digitsValue?_eq_some_iff hb]
  simp only [Nat.zero_mul, Nat.zero_add]
  constructor
  · rintro ⟨ht, hds⟩
    exact ⟨ht, _, hds, rfl⟩
  · rintro ⟨ht, ds, hds, rfl⟩
    exact .digits ht hds

def wordOf? (n : Nat) : Option UInt32 := if n < UInt32.size then some (UInt32.ofNat n) else none

theorem wordOf?_eq_some_iff : wordOf? n = some w ↔ n = w.toNat := by
  unfold wordOf?
  split
  · next h =>
    rw [Option.some.injEq, ← UInt32.toNat_inj, UInt32.toNat_ofNat_of_lt' h]
  · next h =>
    refine iff_of_false nofun ?_
    rintro rfl
    exact h w.toNat_lt_size

theorem IsDigit.isBlank (hb : base ≤ 16) (h : IsDigit base c d) : Character.isBlank c = false := by
  have hgap : ∀ i ∈ Character.blankSpans, i.2 < 48 ∨ 102 < i.1 := by decide
  have hlower := congrArg Char.toNat h.lower
  have := h.small
  rw [Character.toNat_toLower, toNat_digitChar (by omega)] at hlower
  by_contra hblank
  obtain ⟨i, hi, hlo, hhi⟩ := Character.Spans.mem_of_has (Bool.of_not_eq_false hblank)
  have := hgap i hi
  grind

theorem Spells.exists_isDigit (h : Spells base t n) : ∀ c ∈ t, ∃ d, IsDigit base c d := by
  obtain ⟨-, hds⟩ := h
  induction hds with
  | nil => exact nofun
  | cons hd _ ih => exact List.forall_mem_cons.2 ⟨⟨_, hd⟩, ih⟩

theorem Spells.isBlank (hb : base ≤ 16) (h : Spells base t n) :
    ∀ c ∈ t, Character.isBlank c = false := by
  intro c hc
  obtain ⟨d, hd⟩ := h.exists_isDigit c hc
  exact hd.isBlank hb

theorem Spells.plus_notMem (hb : base ≤ 16) (h : Spells base t n) : '+' ∉ t := by
  intro hmem
  obtain ⟨d, hd⟩ := h.exists_isDigit '+' hmem
  have hvalue := (digitValue?_eq_some_iff hb).2 hd
  simp [digitValue?] at hvalue

theorem numberValue?_of_signed (hb : base ≤ 16) (h : Signed base t n) :
    numberValue? base t = wordOf? n := by
  cases h with
  | bare h =>
    obtain ⟨hne, hvalue⟩ := (spells_iff hb).1 h
    have hplus (ds : Text) : t ≠ '+' :: ds := by
      rintro rfl
      exact h.plus_notMem hb List.mem_cons_self
    simp [numberValue?, hne, hvalue, wordOf?]
  | plus h =>
    obtain ⟨hne, hvalue⟩ := (spells_iff hb).1 h
    simp [numberValue?, hne, hvalue, wordOf?]

theorem exists_signed (hb : base ≤ 16) (h : numberValue? base t = some w) :
    ∃ n, Signed base t n := by
  simp only [numberValue?, bind, Option.bind_eq_some_iff, Option.guard_eq_some'] at h
  obtain ⟨-, hne, n, hvalue, -⟩ := h
  have hspells := (spells_iff hb).2 ⟨hne, hvalue⟩
  split at hspells
  · exact ⟨n, .plus hspells⟩
  · exact ⟨n, .bare hspells⟩

theorem Signed.isBlank (hb : base ≤ 16) (h : Signed base t n) :
    ∀ c ∈ t, Character.isBlank c = false := by
  cases h with
  | bare h => exact h.isBlank hb
  | plus h => exact List.forall_mem_cons.2 ⟨by decide, h.isBlank hb⟩

theorem IsNumeral.isBlank (h : IsNumeral t n) : ∀ c ∈ t, Character.isBlank c = false := by
  cases h with
  | decimal h => exact h.isBlank (by decide)
  | @hexadecimal x _ _ hx h =>
    have hlead : Character.isBlank x = false := by
      obtain rfl | rfl := List.mem_pair.1 hx <;> decide
    exact List.forall_mem_cons.2 ⟨by decide,
      List.forall_mem_cons.2 ⟨hlead, h.isBlank (by decide)⟩⟩

theorem Signed.ne_hexadecimal (h : Signed 10 t n) {x : Char} (hx : x ∈ ['x', 'X']) (s : Text) :
    t ≠ '0' :: x :: s := by
  have hlead : digitValue? 10 x = none := by
    obtain rfl | rfl := List.mem_pair.1 hx <;> decide
  rintro rfl
  cases h with
  | bare h =>
    obtain ⟨d, hd⟩ := h.exists_isDigit x (List.mem_cons_of_mem _ List.mem_cons_self)
    have hvalue := (digitValue?_eq_some_iff (by decide)).2 hd
    rw [hlead] at hvalue
    cases hvalue

theorem enumerantValue?_of_gives (h : Gives v n) : enumerantValue? v = wordOf? n := by
  cases h with
  | integer n =>
    change (if n < UInt32.size then some n else none).map UInt32.ofNat = wordOf? n
    unfold wordOf?
    split <;> rfl
  | @text a b t n ha hb h =>
    have htrim : Text.trim Character.isBlank (a ++ (t ++ b)) = t := by
      rw [Text.trim_append ha hb]
      exact Text.trim_eq_self (fun c hc => h.isBlank c (List.mem_of_head? hc))
        fun c hc => h.isBlank c (List.mem_of_getLast? hc)
    rw [enumerantValue?, htrim]
    cases h with
    | decimal h =>
      have hx := h.ne_hexadecimal (x := 'x') (by decide)
      have hX := h.ne_hexadecimal (x := 'X') (by decide)
      simp [numberValue?_of_signed (by decide) h]
    | hexadecimal hx h =>
      rcases List.mem_pair.1 hx with rfl | rfl
      · exact numberValue?_of_signed (by decide) h
      · exact numberValue?_of_signed (by decide) h

theorem exists_gives (h : enumerantValue? v = some w) : ∃ n, Gives v n := by
  unfold enumerantValue? at h
  split at h
  · next s =>
    obtain ⟨a, b, hs, ha, hb⟩ := Text.exists_eq_append_trim Character.isBlank s
    suffices hnumeral : ∃ n, IsNumeral (Text.trim Character.isBlank s) n by
      obtain ⟨n, hn⟩ := hnumeral
      rw [hs]
      exact ⟨n, .text ha hb hn⟩
    split at h
    · next t ht =>
      obtain ⟨n, hn⟩ := exists_signed (by decide) h
      exact ⟨n, ht ▸ .hexadecimal (by decide) hn⟩
    · next t ht =>
      obtain ⟨n, hn⟩ := exists_signed (by decide) h
      exact ⟨n, ht ▸ .hexadecimal (by decide) hn⟩
    · obtain ⟨n, hn⟩ := exists_signed (by decide) h
      exact ⟨n, .decimal hn⟩
  · obtain ⟨n, hn, -⟩ := Option.map_eq_some_iff.1 h
    unfold Json.natBelow? at hn
    split at hn
    · exact ⟨_, .integer _⟩
    · cases hn

theorem exists_digits (hb : 1 < base) (n : Nat) :
    ∃ ds : List Nat, Nat.toDigits base n = ds.map Nat.digitChar ∧ (∀ d ∈ ds, d < base) ∧
      Nat.ofDigits base ds.reverse = n := by
  induction n using Nat.strongRecOn with
  | ind n ih =>
    rw [Nat.toDigits_eq_if hb]
    split
    · next hn => exact ⟨[n], rfl, List.forall_mem_singleton.2 hn, by simp⟩
    · next hn =>
      obtain ⟨ds, hds, hsmall, hvalue⟩ := ih (n / base) (Nat.div_lt_self (by omega) hb)
      refine ⟨ds ++ [n % base], by rw [hds, List.map_append, List.map_singleton], ?_, ?_⟩
      · exact List.forall_mem_append.2
          ⟨hsmall, List.forall_mem_singleton.2 (Nat.mod_lt n (by omega))⟩
      · rw [List.reverse_append, List.reverse_singleton, List.singleton_append,
          Nat.ofDigits_cons, hvalue]
        exact Nat.mod_add_div n base

theorem spells_toDigits (hb : 1 < base) (zeros : Nat)
    (h : t.map Char.toLower = Nat.toDigits base n) :
    Spells base (List.replicate zeros '0' ++ t) n := by
  obtain ⟨ds, hds, hsmall, rfl⟩ := exists_digits hb n
  have hdigits : List.Forall₂ (IsDigit base) t ds := by
    rw [hds, ← List.forall₂_eq_eq_eq, List.forall₂_map_left_iff, List.forall₂_map_right_iff] at h
    exact ((List.forall₂_and_left _ _).2 ⟨hsmall, h.flip⟩).flip.imp fun _ _ hd => ⟨hd.1, hd.2⟩
  have hzeros : List.Forall₂ (IsDigit base) (List.replicate zeros '0')
      (List.replicate zeros 0) := by
    induction zeros with
    | zero => exact .nil
    | succ k ih => exact .cons ⟨by omega, by decide⟩ ih
  have hne : List.replicate zeros '0' ++ t ≠ [] := by
    intro hnil
    rw [(List.append_eq_nil_iff.1 hnil).2] at h
    exact Nat.toDigits_ne_nil h.symm
  have hspells := Spells.digits hne (List.rel_append hzeros hdigits)
  rwa [List.reverse_append, List.reverse_replicate, Nat.ofDigits_append_replicate_zero] at hspells

theorem map_toLower_decimal (n : Nat) : (Text.decimal n).map Char.toLower = Text.decimal n := by
  have hdigit : ∀ c ∈ Text.decimal n, c.toLower = id c := by
    intro c hc
    have hdigit := Nat.isDigit_of_mem_toDigits (by decide) (by decide) hc
    have hle := (Character.isDigit_iff.1 hdigit).2
    rw [id, ← Char.toNat_inj, Character.toNat_toLower, if_neg]
    omega
  rw [List.map_congr_left hdigit, List.map_id]

/-- A value is read as a word if and only if it gives the number of the word, and a number that does
not fit is refused. So each word can be spelled in base ten and in base sixteen, in either case and
with any zeros in front. -/
theorem enumerantValue?_reads_numerals :
    (∀ v w, enumerantValue? v = some w ↔ Gives v w.toNat) ∧
      (∀ v n, Gives v n → 2 ^ 32 ≤ n → enumerantValue? v = none) ∧
      ∀ (w : UInt32) (zeros : Nat),
        enumerantValue? (.string (List.replicate zeros '0' ++ Text.decimal w.toNat)) = some w ∧
        ∀ t : Text, t.map Char.toLower = Nat.toDigits 16 w.toNat → ∀ x ∈ ['x', 'X'],
          enumerantValue? (.string ('0' :: x :: (List.replicate zeros '0' ++ t))) = some w := by
  have hiff (v : Json) (w : UInt32) : enumerantValue? v = some w ↔ Gives v w.toNat := by
    constructor
    · intro h
      obtain ⟨n, hn⟩ := exists_gives h
      rw [enumerantValue?_of_gives hn, wordOf?_eq_some_iff] at h
      exact h ▸ hn
    · intro h
      rw [enumerantValue?_of_gives h, wordOf?_eq_some_iff]
  have hnumeral {t : Text} {w : UInt32} (h : IsNumeral t w.toNat) :
      enumerantValue? (.string t) = some w := by
    have htext := Gives.text (a := []) (b := []) nofun nofun h
    rw [List.nil_append, List.append_nil] at htext
    exact (hiff _ w).2 htext
  refine ⟨hiff, fun v n hn hsize => ?_, fun w zeros => ⟨?_, fun t ht x hx => ?_⟩⟩
  · rw [enumerantValue?_of_gives hn]
    exact if_neg (Nat.not_lt.2 hsize)
  · exact hnumeral (.decimal (.bare
      (spells_toDigits (by decide) zeros (map_toLower_decimal _))))
  · exact hnumeral (.hexadecimal hx (.bare (spells_toDigits (by decide) zeros ht)))

theorem enumerantValue?_reads_numerals_limit :
    enumerantValue? (.string " 0X+00fFFFFFFF\n") = some 0xFFFFFFFF ∧
      enumerantValue? (.string "4294967296") = none := by
  obtain ⟨hread, hrefused, -⟩ := enumerantValue?_reads_numerals
  have hlargest : Spells 16 (List.replicate 2 '0' ++ "fFFFFFFF") 0xFFFFFFFF :=
    spells_toDigits (by decide) 2 (by decide +kernel)
  have htext : (" 0X+00fFFFFFFF\n" : Text) =
      [' '] ++ ('0' :: 'X' :: '+' :: (List.replicate 2 '0' ++ "fFFFFFFF") ++ ['\n']) := by
    decide +kernel
  have hover : Spells 10 (List.replicate 0 '0' ++ "4294967296") 4294967296 :=
    spells_toDigits (by decide) 0 (by decide +kernel)
  constructor
  · rw [htext]
    exact (hread _ _).2 (.text (List.all_eq_true.1 (by decide)) (List.all_eq_true.1 (by decide))
      (.hexadecimal (by decide) (.plus hlargest)))
  · have hgives := Gives.text (a := []) (b := []) nofun nofun (.decimal (.bare hover))
    exact hrefused _ _ hgives (by decide)

end SpirvTables
