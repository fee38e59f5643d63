import Mathlib.Data.List.Nodup
import SpirvTables.Proofs.OpcodeCases
import SpirvTables.Proofs.Refresh.Opcodes

namespace SpirvTables

open Text MarkedSection

variable {g : Grammar} {names : List Text} {is js : List Instruction} {a b i : Instruction}

theorem pairwise_idxOf {l : List Text} (h : l.Nodup) :
    l.Pairwise fun a b => l.idxOf a < l.idxOf b := by
  rw [List.pairwise_iff_getElem]
  intro i j hi hj hij
  rwa [h.idxOf_getElem i hi, h.idxOf_getElem j hj]

namespace Grammar

def place (g : Grammar) (n : Text) : Nat := (g.instructions.map (·.opname)).idxOf n

def Before (g : Grammar) (a b : Instruction) : Prop :=
  a.opcode < b.opcode ∨ a.opcode = b.opcode ∧ g.place a.opname < g.place b.opname

theorem before_iff : g.Before a b ↔
    notAfter a b ∧ (a.opcode = b.opcode → g.place a.opname < g.place b.opname) := by
  rw [Before, notAfter, decide_eq_true_eq, UInt32.lt_iff_toNat_lt, ← UInt32.toNat_inj]
  omega

theorem Before.asymm (hab : g.Before a b) : ¬ g.Before b a := by
  rw [Before, UInt32.lt_iff_toNat_lt, ← UInt32.toNat_inj] at *
  omega

theorem Before.irrefl : ¬ g.Before i i := fun h => h.asymm h

theorem pairwise_place (h : (g.instructions.map (·.opname)).Nodup) :
    g.instructions.Pairwise fun a b => g.place a.opname < g.place b.opname := by
  have hnames := pairwise_idxOf h
  rwa [List.pairwise_map] at hnames

theorem pairwise_before_byOpcode_iff : (byOpcode is).Pairwise g.Before ↔
    is.Pairwise fun a b => a.opcode = b.opcode → g.place a.opname < g.place b.opname := by
  have hsplit : (byOpcode is).Pairwise g.Before ↔ (byOpcode is).Pairwise fun a b =>
      a.opcode = b.opcode → g.place a.opname < g.place b.opname := by
    constructor
    · exact fun h => h.imp fun hab => (before_iff.1 hab).2
    · exact fun h => (pairwise_byOpcode is).imp₂ (fun _ _ hle hlt => before_iff.2 ⟨hle, hlt⟩) h
  rw [hsplit, ← pairwise_ofOpcode_iff, ← pairwise_ofOpcode_iff]
  simp only [ofOpcode_byOpcode]

/-- The instructions of some names, as the grammar has them and in the order of a section. -/
structure InOrder (g : Grammar) (names : List Text) (is : List Instruction) : Prop where
  known : ∀ i ∈ is, g.instruction? i.opname = some i
  mem : ∀ n, n ∈ is.map (·.opname) ↔ n ∈ names
  before : is.Pairwise g.Before

theorem InOrder.mem_iff (h : g.InOrder names is) :
    i ∈ is ↔ i.opname ∈ names ∧ g.instruction? i.opname = some i := by
  constructor
  · exact fun hi => ⟨(h.mem _).1 (List.mem_map_of_mem hi), h.known i hi⟩
  · rintro ⟨hn, hfind⟩
    obtain ⟨j, hj, hop⟩ := List.mem_map.1 ((h.mem _).2 hn)
    have hknown := h.known j hj
    rw [hop, hfind] at hknown
    rwa [Option.some.inj hknown]

theorem InOrder.nodup (h : g.InOrder names is) : (is.map (·.opname)).Nodup := by
  rw [List.nodup_iff_pairwise_ne, List.pairwise_map]
  refine h.before.imp_of_mem fun {a b} ha hb hab heq => ?_
  have hknown := h.known a ha
  rw [heq, h.known b hb] at hknown
  rw [Option.some.inj hknown] at hab
  exact Before.irrefl hab

theorem InOrder.unique (hi : g.InOrder names is) (hj : g.InOrder names js) : is = js := by
  have hperm : is.Perm js :=
    (List.perm_ext_iff_of_nodup hi.nodup.of_map hj.nodup.of_map).2 fun i =>
      hi.mem_iff.trans hj.mem_iff.symm
  exact hperm.eq_of_pairwise (fun a b _ _ hab hba => absurd hba hab.asymm) hi.before hj.before

theorem InOrder.congr (h : g.InOrder names is) {names' : List Text}
    (hnames : ∀ n, n ∈ names ↔ n ∈ names') : g.InOrder names' is :=
  { h with mem n := (h.mem n).trans (hnames n) }

theorem inOrder_byOpcode (hnodup : (g.instructions.map (·.opname)).Nodup)
    (hknown : ∀ n ∈ names, ∃ i, g.instruction? n = some i) :
    g.InOrder names (byOpcode (g.instructions.filter (names.contains ·.opname))) where
  known _ hi := find?_of_nodup_map hnodup (mem_opcodesNamed.1 (mem_byOpcode.1 hi)).1
  mem _ := mem_map_byOpcode hknown
  before := by
    rw [pairwise_before_byOpcode_iff]
    refine ((pairwise_place hnodup).filter _).imp ?_
    exact fun hab _ => hab

end Grammar

end SpirvTables
