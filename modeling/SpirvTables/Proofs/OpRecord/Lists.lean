import Mathlib.Data.List.Infix
import SpirvTables.Proofs.OpRecord.Read

namespace SpirvTables

open Text Record

variable {start t x y inner before front assembly : Text} {k : Kept}

def OnlyBehind (before start t : Text) : Prop :=
  ∀ x y, t = x ++ (start ++ y) → listStop <:+: y → x = before

instance (before start t : Text) : Decidable (OnlyBehind before start t) :=
  decidable_of_iff (∀ n < t.length + 1, start <+: t.drop n →
      listStop <:+: t.drop (n + start.length) → t.take n = before) <| by
    constructor
    · rintro h x y rfl hy
      have hx := h x.length
      rw [← List.drop_drop, List.drop_left, List.drop_left, List.take_left] at hx
      exact hx (Nat.lt_succ_of_le (List.prefix_append _ _).length_le) (List.prefix_append _ _) hy
    · rintro h n - ⟨y, hy⟩ hstop
      rw [← List.drop_drop, ← hy, List.drop_left] at hstop
      apply h (t.take n) y _ hstop
      rw [hy, List.take_append_drop]

theorem OnlyBehind.absent (h : OnlyBehind x start (x ++ (start ++ (inner ++ (listStop ++ y)))))
    (hstart : start ≠ []) : ¬ start <:+: x ++ start.dropLast := by
  rintro ⟨a, b, hab⟩
  have hbehind : x ++ (start ++ (inner ++ (listStop ++ y))) =
      a ++ (start ++ (b ++ (start.getLast hstart :: (inner ++ (listStop ++ y))))) :=
    calc
      _ = x ++ (start.dropLast ++ [start.getLast hstart] ++ (inner ++ (listStop ++ y))) := by
        rw [List.dropLast_append_getLast]
      _ = a ++ start ++ b ++ (start.getLast hstart :: (inner ++ (listStop ++ y))) := by
        rw [hab]
        simp
      _ = _ := by simp
  have hax : a = x := by
    apply h a _ hbehind
    exact ⟨b ++ start.getLast hstart :: inner, y, by simp⟩
  have hlength := congrArg List.length hab
  rw [hax] at hlength
  have hpos := List.length_pos_iff.2 hstart
  simp at hlength
  omega

theorem OnlyBehind.delimited_eq_ok
    (h : OnlyBehind x start (x ++ (start ++ (inner ++ (listStop ++ y))))) (hstart : start ≠ [])
    (hinner : ¬ listStop <:+: inner) :
    delimited start listStop (x ++ (start ++ (inner ++ (listStop ++ y)))) = .ok (some inner, y) :=
  delimited_append hstart (h.absent hstart) ne_nil_ofList
    (Borderless.absent (borderless_ofList (by decide)) ne_nil_ofList hinner) y

/-- The text behind an assembly form, with the arguments and the results in either order. -/
structure Lists where
  argumentsFirst : Bool
  before : Text
  arguments : Text
  between : Text
  results : Text
  after : Text

namespace Lists

variable {l : Lists}

def beforeArguments (l : Lists) : Text :=
  if l.argumentsFirst then l.before
  else l.before ++ (resultsStart ++ (l.results ++ (listStop ++ l.between)))

def beforeResults (l : Lists) : Text :=
  if l.argumentsFirst then l.before ++ (argumentsStart ++ (l.arguments ++ (listStop ++ l.between)))
  else l.before

def text (l : Lists) : Text :=
  if l.argumentsFirst then
    l.before ++ (argumentsStart ++ (l.arguments ++ (listStop ++ (l.between ++ (resultsStart ++
      (l.results ++ (listStop ++ l.after)))))))
  else
    l.before ++ (resultsStart ++ (l.results ++ (listStop ++ (l.between ++ (argumentsStart ++
      (l.arguments ++ (listStop ++ l.after)))))))

structure Once (l : Lists) : Prop where
  arguments : ¬ listStop <:+: l.arguments
  results : ¬ listStop <:+: l.results
  onlyArguments : OnlyBehind l.beforeArguments argumentsStart l.text
  onlyResults : OnlyBehind l.beforeResults resultsStart l.text

instance (l : Lists) : Decidable l.Once :=
  decidable_of_iff (_ ∧ _ ∧ _ ∧ _) ⟨fun ⟨a, r, oa, or⟩ => ⟨a, r, oa, or⟩,
    fun h => ⟨h.arguments, h.results, h.onlyArguments, h.onlyResults⟩⟩

def behindArguments (l : Lists) : Text :=
  if l.argumentsFirst then
    l.between ++ (resultsStart ++ (l.results ++ (listStop ++ l.after)))
  else l.after

theorem text_eq_arguments (l : Lists) : l.text =
    l.beforeArguments ++ (argumentsStart ++ (l.arguments ++ (listStop ++ l.behindArguments))) := by
  unfold text beforeArguments behindArguments
  cases l.argumentsFirst <;> simp

theorem Once.delimited_arguments (h : l.Once) :
    delimited argumentsStart listStop l.text = .ok (some l.arguments, l.behindArguments) := by
  have honly := h.onlyArguments
  rw [text_eq_arguments] at honly ⊢
  exact honly.delimited_eq_ok ne_nil_ofList h.arguments

theorem Once.eq_beforeResults (h : l.Once) (hx : l.behindArguments = x ++ (resultsStart ++ y))
    (hy : listStop <:+: y) : l.beforeArguments ++ (argumentsStart ++ (l.arguments ++
      (listStop ++ x))) = l.beforeResults := by
  apply h.onlyResults _ y _ hy
  rw [text_eq_arguments, hx]
  simp only [List.append_assoc]

theorem Once.eq_of_delimited_results (h : l.Once) {found : Option Text} {rest : Text}
    (hfound : delimited resultsStart listStop l.behindArguments = .ok (found, rest)) :
    found = if l.argumentsFirst then some l.results else none := by
  cases hfirst : l.argumentsFirst with
  | true =>
    have hbehind : l.behindArguments =
        l.between ++ (resultsStart ++ (l.results ++ (listStop ++ l.after))) := if_pos hfirst
    rw [hbehind] at hfound
    have honly : OnlyBehind l.between resultsStart
        (l.between ++ (resultsStart ++ (l.results ++ (listStop ++ l.after)))) := by
      intro x y hxy hy
      have heq := h.eq_beforeResults (hbehind.trans hxy) hy
      simpa [beforeArguments, beforeResults, hfirst] using heq
    have hresults := honly.delimited_eq_ok ne_nil_ofList h.results
    exact (congrArg Prod.fst (Except.ok.inj (hresults.symm.trans hfound))).symm
  | false =>
    have hstart : resultsStart ≠ [] := marks_ne_nil _ (by simp [marks])
    have hstop : listStop ≠ [] := marks_ne_nil _ (by simp [marks])
    rcases delimited_eq_ok hstart hstop hfound with ⟨rfl, -⟩ | ⟨x, inner, -, hx, -⟩
    · rfl
    · have heq := h.eq_beforeResults hx ⟨inner, rest, by simp⟩
      simp [beforeArguments, beforeResults, hfirst, hstart] at heq

/-- What is read and written again of the lists of a record is what they state. -/
def Survive (l : Lists) (k : Kept) : Prop :=
  k.arguments = some l.arguments ∧ k.results = some l.results ∧
    ∀ layout doc (i : Instruction), i.render layout plainCategory k doc =
      .ok (i.renderHead k plainCategory ++ Instruction.renderTexts layout k doc ++
        ("\n  let arguments = (ins" ++ l.arguments ++ ");\n\n  let results = (outs" ++ l.results ++
          ");\n") ++ k.extras.getD [] ++ "\x7d\n")

theorem survive_of_eq_some (harguments : k.arguments = some l.arguments)
    (hresults : k.results = some l.results) : l.Survive k := by
  refine ⟨harguments, hresults, fun layout doc i => ?_⟩
  unfold Instruction.render Instruction.renderInterface
  rw [if_pos rfl, harguments, hresults]
  rfl

def block (l : Lists) (front assembly : Text) : Text :=
  front ++ (assemblyStart ++ (assembly ++ (assemblyStop ++ l.text)))

theorem Once.eq_of_ofBlock (hl : l.Once) (hfront : ¬ assemblyStart <:+: front)
    (hassembly : ¬ assemblyStop <:+: assembly) (h : Kept.ofBlock (l.block front assembly) = .ok k) :
    k.arguments = some l.arguments ∧
      k.results = some (if l.argumentsFirst then l.results else []) := by
  have hform : delimited assemblyStart assemblyStop (l.block front assembly) =
      .ok (some assembly, l.text) :=
    delimited_append ne_nil_ofList
      (Borderless.absent (borderless_ofList (by decide)) ne_nil_ofList hfront)
      ne_nil_ofList
      (Borderless.absent (borderless_ofList (by decide)) ne_nil_ofList hassembly) l.text
  obtain ⟨stem, definition, args, traits, form, rest₁, arguments, rest₂, results, rest₃, -, -,
    hform', harguments, hresults, rfl⟩ := ofBlock_eq_ok h
  obtain ⟨rfl, rfl⟩ := Prod.mk.inj (Except.ok.inj (hform.symm.trans hform'))
  obtain ⟨rfl, rfl⟩ :=
    Prod.mk.inj (Except.ok.inj (hl.delimited_arguments.symm.trans harguments))
  obtain rfl := hl.eq_of_delimited_results hresults
  refine ⟨rfl, ?_⟩
  cases l.argumentsFirst <;> rfl

/-- The arguments of a record are always read, its results only if they are stated behind the
arguments: both lists survive exactly if they come in this order or there are no results to lose. -/
theorem survive_iff (hl : l.Once) (hfront : ¬ assemblyStart <:+: front)
    (hassembly : ¬ assemblyStop <:+: assembly) (h : Kept.ofBlock (l.block front assembly) = .ok k) :
    k.arguments = some l.arguments ∧
      (l.Survive k ↔ l.argumentsFirst ∨ l.results = []) := by
  obtain ⟨harguments, hresults⟩ := hl.eq_of_ofBlock hfront hassembly h
  refine ⟨harguments, ?_⟩
  constructor
  · rintro ⟨-, hsurvive, -⟩
    cases hfirst : l.argumentsFirst with
    | true => exact .inl rfl
    | false =>
      rw [hresults, hfirst] at hsurvive
      exact .inr (Option.some.inj hsurvive).symm
  · intro horder
    apply survive_of_eq_some harguments
    rw [hresults]
    rcases horder with hfirst | hnil
    · rw [if_pos hfirst]
    · rw [hnil, ite_self]

def undefLists (argumentsFirst : Bool) : Lists where
  argumentsFirst := argumentsFirst
  before := "\n  let autogen = 0;\n"
  arguments := " I32:$x"
  between := "\n"
  results := " SPV_Type:$result"
  after := "\n  let verifier = [\x7b\x7d];\n\x7d\n"

def undefFront : Text :=
  "def SPV_UndefOp : SPV_Op<\"Undef\", [Pure]> \x7b\n  let description = [\x7b\n    "

theorem once_undefLists : ∀ argumentsFirst, (undefLists argumentsFirst).Once := by
  decide +kernel

theorem absent_undefFront : ¬ assemblyStart <:+: undefFront :=
  absent_ofList (by decide +kernel)

theorem survive_undef :
    (undefLists true).Once ∧ ¬ assemblyStart <:+: undefFront ∧ ¬ assemblyStop <:+: "\n  " ∧
      ∃ k, Kept.ofBlock ((undefLists true).block undefFront "\n  ") = .ok k ∧
        (undefLists true).Survive k := by
  have hassembly : ¬ assemblyStop <:+: "\n  " := by decide +kernel
  refine ⟨once_undefLists true, absent_undefFront, hassembly, ?_⟩
  have hok : (Kept.ofBlock ((undefLists true).block undefFront "\n  ")).isOk := by decide +kernel
  obtain ⟨k, hk⟩ := exists_eq_ok_of_isOk hok
  have hsurvive := survive_iff (once_undefLists true) absent_undefFront hassembly hk
  exact ⟨k, hk, hsurvive.2.2 (.inl rfl)⟩

theorem not_survive_undef :
    (undefLists false).Once ∧ ¬ assemblyStart <:+: undefFront ∧ ¬ assemblyStop <:+: "\n  " ∧
      ∃ k, Kept.ofBlock ((undefLists false).block undefFront "\n  ") = .ok k ∧
        k.results = some [] ∧ ¬ (undefLists false).Survive k := by
  refine ⟨once_undefLists false, absent_undefFront, by decide +kernel, ?_⟩
  have hresults : ((Kept.ofBlock ((undefLists false).block undefFront "\n  ")).toOption.map
      (·.results)) = some (some []) := by
    decide +kernel
  obtain ⟨k, hk, hnil⟩ := Option.map_eq_some_iff.1 hresults
  refine ⟨k, toOption_eq_some_iff.1 hk, hnil, ?_⟩
  rintro ⟨-, hsurvive, -⟩
  rw [hnil] at hsurvive
  exact absurd (Option.some.inj hsurvive) (by decide +kernel)

end Lists

end SpirvTables
