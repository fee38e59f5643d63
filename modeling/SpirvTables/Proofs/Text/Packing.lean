import Mathlib.Data.List.Chain
import Mathlib.Data.List.Infix
import SpirvTables.Text.Arrange

namespace SpirvTables.Text

variable {budget : Nat} {item : Text} {line first items others : List Text}
  {lines rest : List (List Text)}

def lineCost : List Text → Nat
  | [] => 0
  | item :: line => itemCost item + lineCost line

@[simp] theorem lineCost_append (line others : List Text) :
    lineCost (line ++ others) = lineCost line + lineCost others := by
  induction line with
  | nil => simp [lineCost]
  | cons item line ih => rw [List.cons_append, lineCost, lineCost, ih, Nat.add_assoc]

@[simp] theorem lineCost_singleton (item : Text) : lineCost [item] = itemCost item := by
  simp [lineCost]

def Within (budget : Nat) (line : List Text) : Prop := 2 ≤ line.length → lineCost line ≤ budget

def Closes (budget : Nat) (line next : List Text) : Prop :=
  ∀ item ∈ next.head?, budget < lineCost (line ++ [item])

structure Lined (budget : Nat) (items : List Text) (lines : List (List Text)) : Prop where
  flatten : lines.flatten = items
  ne_nil : ∀ line ∈ lines, line ≠ []
  within : ∀ line ∈ lines, Within budget line

structure Greedy (budget : Nat) (items : List Text) (lines : List (List Text)) : Prop
    extends Lined budget items lines where
  closes : lines.IsChain (Closes budget)

instance (budget : Nat) (line : List Text) : Decidable (Within budget line) :=
  inferInstanceAs (Decidable (_ → _))

instance (budget : Nat) (line next : List Text) : Decidable (Closes budget line next) :=
  inferInstanceAs (Decidable (∀ item ∈ next.head?, _))

instance (budget : Nat) (items : List Text) (lines : List (List Text)) :
    Decidable (Lined budget items lines) :=
  decidable_of_iff (lines.flatten = items ∧ (∀ line ∈ lines, line ≠ []) ∧
      ∀ line ∈ lines, Within budget line)
    ⟨fun ⟨f, n, w⟩ => ⟨f, n, w⟩, fun h => ⟨h.flatten, h.ne_nil, h.within⟩⟩

instance (budget : Nat) (items : List Text) (lines : List (List Text)) :
    Decidable (Greedy budget items lines) :=
  decidable_of_iff (Lined budget items lines ∧ lines.IsChain (Closes budget))
    ⟨fun ⟨l, c⟩ => ⟨l, c⟩, fun h => ⟨h.toLined, h.closes⟩⟩

theorem within_of_length_le_one (h : line.length ≤ 1) : Within budget line := fun htwo =>
  absurd (htwo.trans h) (by decide)

theorem Lined.tail (h : Lined budget items (line :: lines)) : Lined budget lines.flatten lines where
  flatten := rfl
  ne_nil l hl := h.ne_nil l (List.mem_cons_of_mem line hl)
  within l hl := h.within l (List.mem_cons_of_mem line hl)

theorem Greedy.tail (h : Greedy budget items (line :: lines)) :
    Greedy budget lines.flatten lines where
  toLined := h.toLined.tail
  closes := h.closes.tail

theorem greedy_singleton (hne : line ≠ []) (hwithin : Within budget line) :
    Greedy budget line [line] where
  flatten := by simp
  ne_nil := by simpa using hne
  within := by simpa using hwithin
  closes := .singleton line

theorem Greedy.cons (h : Greedy budget (item :: items) lines) (hne : line ≠ [])
    (hwithin : Within budget line) (hover : budget < lineCost (line ++ [item])) :
    Greedy budget (line ++ item :: items) (line :: lines) where
  flatten := by rw [List.flatten_cons, h.flatten]
  ne_nil := List.forall_mem_cons.2 ⟨hne, h.ne_nil⟩
  within := List.forall_mem_cons.2 ⟨hwithin, h.within⟩
  closes := by
    apply h.closes.cons
    intro next hnext item' hitem'
    obtain ⟨lines, rfl⟩ := List.head?_eq_some_iff.1 hnext
    obtain ⟨next, rfl⟩ := List.head?_eq_some_iff.1 hitem'
    obtain ⟨rfl, -⟩ := List.cons.inj h.flatten
    exact hover

theorem Greedy.exists_next {next : List Text} (h : Greedy budget items (line :: next :: lines)) :
    ∃ item tail, (next :: lines).flatten = item :: tail ∧
      budget < lineCost (line ++ [item]) := by
  obtain ⟨item, next, rfl⟩ := List.exists_cons_of_ne_nil (h.ne_nil next (by simp))
  exact ⟨item, next ++ lines.flatten, rfl, (List.isChain_cons_cons.1 h.closes).1 item rfl⟩

theorem greedy_packFrom {used : Nat} (hused : used = lineCost line) (hwithin : Within budget line) :
    Greedy budget (line ++ items) (packFrom budget line used items) := by
  induction items generalizing line used with
  | nil =>
    rw [packFrom, List.append_nil]
    split
    · next hline => exact hline ▸ ⟨⟨rfl, by simp, by simp⟩, .nil⟩
    · next hline => exact greedy_singleton hline hwithin
  | cons item items ih =>
    have hcost : lineCost (line ++ [item]) = used + itemCost item := by simp [hused]
    rw [packFrom]
    split
    · next hclose =>
      have hrest := ih (lineCost_singleton item).symm (within_of_length_le_one (Nat.le_refl 1))
      exact hrest.cons hclose.1 hwithin (hcost ▸ hclose.2)
    · next hopen =>
      rw [List.append_cons]
      apply ih hcost.symm
      intro hlength
      have hline : line ≠ [] := by
        rintro rfl
        simp at hlength
      have hfits := not_and.1 hopen hline
      omega

theorem greedy_pack (budget : Nat) (items : List Text) : Greedy budget items (pack budget items) :=
  @greedy_packFrom budget [] items 0 rfl (within_of_length_le_one (Nat.zero_le 1))

theorem suffix_of_closes (hline : line ≠ []) (hover : budget < lineCost (line ++ [item]))
    (hwithin : Within budget first) (h : line ++ item :: items <:+ first ++ others) :
    item :: items <:+ others := by
  have hbehind : item :: items <:+ first ++ others :=
    (List.suffix_append line (item :: items)).trans h
  rcases List.suffix_or_suffix_of_suffix hbehind (List.suffix_append first others) with
    hsuffix | ⟨y, hy⟩
  · exact hsuffix
  · cases y with
    | nil => exact hy ▸ List.suffix_rfl
    | cons item' y =>
      -- The first line would hold the greedy one and the item behind it.
      obtain ⟨rfl, rfl⟩ := List.cons.inj hy
      obtain ⟨x, hx⟩ := h
      have hfirst : x ++ (line ++ [item']) ++ y = first := by
        have hall : x ++ (line ++ [item']) ++ y ++ others = first ++ others := by simpa using hx
        exact List.append_cancel_right hall
      have hpos := List.length_pos_iff.2 hline
      have hlength : 2 ≤ first.length := by
        rw [← hfirst]
        simp only [List.length_append, List.length_singleton]
        omega
      have hcost := hwithin hlength
      rw [← hfirst, lineCost_append, lineCost_append] at hcost
      omega

theorem Greedy.length_le (h : Greedy budget items lines) (hother : Lined budget others rest)
    (hsuffix : items <:+ others) : lines.length ≤ rest.length := by
  induction lines generalizing items others rest with
  | nil => exact Nat.zero_le _
  | cons line lines ih =>
    have hline := h.ne_nil line List.mem_cons_self
    cases rest with
    | nil =>
      obtain rfl : [] = others := hother.flatten
      have hnil := List.suffix_nil.1 hsuffix
      rw [← h.flatten, List.flatten_cons] at hnil
      exact absurd (List.append_eq_nil_iff.1 hnil).1 hline
    | cons first rest =>
      cases lines with
      | nil => exact Nat.succ_le_succ (Nat.zero_le rest.length)
      | cons next lines =>
        obtain ⟨item, tail, htail, hover⟩ := h.exists_next
        rw [← h.flatten, ← hother.flatten, List.flatten_cons (l := line), htail,
          List.flatten_cons] at hsuffix
        have hrest := suffix_of_closes hline hover (hother.within first List.mem_cons_self) hsuffix
        exact Nat.succ_le_succ (ih h.tail hother.tail (htail ▸ hrest))

theorem Greedy.length_first_le (h : Greedy budget items (line :: lines))
    (hother : Lined budget items (first :: rest)) : first.length ≤ line.length := by
  have hitems : line ++ lines.flatten = first ++ rest.flatten :=
    h.flatten.trans hother.flatten.symm
  have hlength := congrArg List.length hitems
  rw [List.length_append, List.length_append] at hlength
  cases lines with
  | nil =>
    rw [List.flatten_nil, List.length_nil] at hlength
    omega
  | cons next lines =>
    obtain ⟨item, tail, htail, hover⟩ := h.exists_next
    rw [htail] at hitems hlength
    have hsuffix : line ++ item :: tail <:+ first ++ rest.flatten := hitems ▸ List.suffix_rfl
    have hbehind := (suffix_of_closes (h.ne_nil line List.mem_cons_self) hover
      (hother.within first List.mem_cons_self) hsuffix).length_le
    omega

theorem Greedy.unique {lines' : List (List Text)} (h : Greedy budget items lines)
    (h' : Greedy budget items lines') : lines = lines' := by
  induction lines generalizing items lines' with
  | nil =>
    have hlength := h'.length_le h.toLined List.suffix_rfl
    exact (List.length_eq_zero_iff.1 (Nat.le_zero.1 hlength)).symm
  | cons line lines ih =>
    cases lines' with
    | nil =>
      have hlength := h.length_le h'.toLined List.suffix_rfl
      exact absurd hlength (by simp)
    | cons line' lines' =>
      have hlength := Nat.le_antisymm (h'.length_first_le h.toLined) (h.length_first_le h'.toLined)
      have hitems : line ++ lines.flatten = line' ++ lines'.flatten :=
        h.flatten.trans h'.flatten.symm
      obtain ⟨rfl, hrest⟩ := List.append_inj hitems hlength
      rw [ih h.tail (hrest ▸ h'.tail)]

/-- A packed list has its items in order on lines that are not empty and that only a single item
takes over the budget, and each line ends where the next item has no place. It is the only way to
end the lines so, and no lines that keep the budget are fewer. -/
theorem pack_greedy_fewest (budget : Nat) (items : List Text) :
    (∀ lines, Greedy budget items lines ↔ lines = pack budget items) ∧
      ∀ lines, Lined budget items lines → (pack budget items).length ≤ lines.length := by
  have hpack := greedy_pack budget items
  refine ⟨fun lines => ⟨fun h => h.unique hpack, ?_⟩, fun lines h => ?_⟩
  · rintro rfl
    exact hpack
  · exact hpack.length_le h List.suffix_rfl

def overlongItems : List Text := ["SPV_SC_Input", "a", "b", "SPV_SC_Output"]

def overlongLines : List (List Text) := [["SPV_SC_Input"], ["a", "b"], ["SPV_SC_Output"]]

theorem pack_greedy_fewest_overlong :
    Lined 12 overlongItems (overlongItems.map ([·])) ∧
      (pack 12 overlongItems).length ≤ (overlongItems.map ([·])).length ∧
      Greedy 12 overlongItems (pack 12 overlongItems) ∧
      pack 12 overlongItems = overlongLines := by
  have hsingle : Lined 12 overlongItems (overlongItems.map ([·])) := by decide +kernel
  have hgreedy : Greedy 12 overlongItems overlongLines := by decide +kernel
  obtain ⟨hunique, hfewest⟩ := pack_greedy_fewest 12 overlongItems
  exact ⟨hsingle, hfewest _ hsingle, (hunique _).2 rfl, ((hunique _).1 hgreedy).symm⟩

end SpirvTables.Text
