import Mathlib.Data.List.Pairwise
import SpirvTables.EnumTable

namespace SpirvTables

variable {is js : List Instruction}

def ofOpcode (c : UInt32) (is : List Instruction) : List Instruction :=
  is.filter (·.opcode = c)

theorem mem_ofOpcode {c : UInt32} {i : Instruction} :
    i ∈ ofOpcode c is ↔ i ∈ is ∧ i.opcode = c := by
  rw [ofOpcode, List.mem_filter, decide_eq_true_eq]

theorem ofOpcode_cons (c : UInt32) (i : Instruction) (is : List Instruction) :
    ofOpcode c (i :: is) = if i.opcode = c then i :: ofOpcode c is else ofOpcode c is := by
  simp [ofOpcode, List.filter_cons]

def notAfter (a b : Instruction) : Bool := decide (a.opcode.toNat ≤ b.opcode.toNat)

theorem notAfter_trans (a b c : Instruction) (hab : notAfter a b) (hbc : notAfter b c) :
    notAfter a c :=
  decide_eq_true (Nat.le_trans (of_decide_eq_true hab) (of_decide_eq_true hbc))

theorem notAfter_total (a b : Instruction) : notAfter a b || notAfter b a := by
  simpa [notAfter] using Nat.le_total a.opcode.toNat b.opcode.toNat

theorem opcode_eq_of_notAfter {a b : Instruction} (hab : notAfter a b) (hba : notAfter b a) :
    a.opcode = b.opcode :=
  UInt32.toNat_inj.1 (Nat.le_antisymm (of_decide_eq_true hab) (of_decide_eq_true hba))

theorem pairwise_byOpcode (is : List Instruction) :
    (byOpcode is).Pairwise fun a b => notAfter a b :=
  List.pairwise_mergeSort notAfter_trans notAfter_total is

theorem ofOpcode_byOpcode (c : UInt32) (is : List Instruction) :
    ofOpcode c (byOpcode is) = ofOpcode c is := by
  -- What a list has of one opcode is in order already, so that it lies in the sorted list as it is.
  have hordered : (ofOpcode c is).Pairwise fun a b => notAfter a b := by
    apply List.pairwise_of_forall_mem_list
    intro a ha b hb
    rw [notAfter, (mem_ofOpcode.1 ha).2, (mem_ofOpcode.1 hb).2]
    exact decide_eq_true (Nat.le_refl _)
  have hsub : List.Sublist (ofOpcode c is) (byOpcode is) :=
    List.sublist_mergeSort notAfter_trans notAfter_total hordered List.filter_sublist
  have hfilter := hsub.filter (·.opcode = c)
  rw [ofOpcode, List.filter_filter] at hfilter
  simp only [Bool.and_self] at hfilter
  exact (hfilter.eq_of_length ((List.mergeSort_perm is _).filter _).length_eq.symm).symm

theorem pairwise_ofOpcode_iff {r : Instruction → Instruction → Prop} :
    (∀ c, (ofOpcode c is).Pairwise r) ↔ is.Pairwise fun a b => a.opcode = b.opcode → r a b := by
  constructor
  · intro h
    rw [List.pairwise_iff_forall_sublist]
    intro a b hsub hopcode
    have hpair := hsub.filter (·.opcode = a.opcode)
    rw [List.filter_eq_self.2 (by simp [hopcode])] at hpair
    exact List.pairwise_iff_forall_sublist.1 (h a.opcode) hpair
  · intro h c
    rw [ofOpcode, List.pairwise_filter]
    exact h.imp fun hr ha hb =>
      hr ((of_decide_eq_true ha).trans (of_decide_eq_true hb).symm)

theorem mem_of_ofOpcode_eq (h : ∀ c, ofOpcode c is = ofOpcode c js) {i : Instruction}
    (hi : i ∈ is) : i ∈ js := by
  have hmem := mem_ofOpcode.2 ⟨hi, rfl⟩
  rw [h] at hmem
  exact (mem_ofOpcode.1 hmem).1

theorem eq_of_ofOpcode_eq (hi : is.Pairwise fun a b => notAfter a b)
    (hj : js.Pairwise fun a b => notAfter a b) (h : ∀ c, ofOpcode c is = ofOpcode c js) :
    is = js := by
  induction is generalizing js with
  | nil =>
    cases js with
    | nil => rfl
    | cons j js => cases mem_of_ofOpcode_eq (fun c => (h c).symm) List.mem_cons_self
  | cons i is ih =>
    cases js with
    | nil => cases mem_of_ofOpcode_eq h List.mem_cons_self
    | cons j js =>
      obtain ⟨hile, his⟩ := List.pairwise_cons.1 hi
      obtain ⟨hjle, hjs⟩ := List.pairwise_cons.1 hj
      -- Neither head comes after the other, so that both are the first of one opcode.
      have hopcode : i.opcode = j.opcode := by
        rcases List.mem_cons.1 (mem_of_ofOpcode_eq h List.mem_cons_self) with rfl | hij
        · rfl
        rcases List.mem_cons.1 (mem_of_ofOpcode_eq (fun c => (h c).symm) List.mem_cons_self)
          with rfl | hji
        · rfl
        exact opcode_eq_of_notAfter (hile j hji) (hjle i hij)
      have hhead := h i.opcode
      rw [ofOpcode_cons, if_pos rfl, ofOpcode_cons, if_pos hopcode.symm] at hhead
      obtain rfl := (List.cons.inj hhead).1
      have htail (c : UInt32) : ofOpcode c is = ofOpcode c js := by
        have hc := h c
        rw [ofOpcode_cons, ofOpcode_cons] at hc
        split at hc
        · exact (List.cons.inj hc).2
        · exact hc
      rw [ih his hjs htail]

theorem byOpcode_congr (h : ∀ c, ofOpcode c is = ofOpcode c js) : byOpcode is = byOpcode js := by
  apply eq_of_ofOpcode_eq (pairwise_byOpcode is) (pairwise_byOpcode js)
  intro c
  rw [ofOpcode_byOpcode, ofOpcode_byOpcode, h]

/-- The same instructions in another order, in which those of one opcode stand as they stood. -/
structure Reordered (is js : List Instruction) : Prop where
  perm : is.Perm js
  ties : ∀ i ∈ is, ofOpcode i.opcode is = ofOpcode i.opcode js

instance (is js : List Instruction) : Decidable (Reordered is js) :=
  decidable_of_iff (is.Perm js ∧ ∀ i ∈ is, ofOpcode i.opcode is = ofOpcode i.opcode js)
    ⟨fun ⟨p, t⟩ => ⟨p, t⟩, fun h => ⟨h.perm, h.ties⟩⟩

theorem Reordered.ofOpcode_eq (h : Reordered is js) (c : UInt32) :
    ofOpcode c is = ofOpcode c js := by
  by_cases hc : ∃ i ∈ is, i.opcode = c
  · obtain ⟨i, hi, rfl⟩ := hc
    exact h.ties i hi
  · have hnil : ofOpcode c is = [] := by
      rw [List.eq_nil_iff_forall_not_mem]
      exact fun i hi => hc ⟨i, mem_ofOpcode.1 hi⟩
    have hperm : (ofOpcode c is).Perm (ofOpcode c js) := h.perm.filter _
    rw [hnil] at hperm ⊢
    exact (List.nil_perm.1 hperm).symm

end SpirvTables
