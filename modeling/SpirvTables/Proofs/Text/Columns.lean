import Mathlib.Data.List.Forall2
import Mathlib.Order.Bounds.Basic
import SpirvTables.Proofs.Fault
import SpirvTables.Proofs.Section.Cases
import SpirvTables.Proofs.Text.Listing
import SpirvTables.Proofs.Text.Words

namespace SpirvTables.Text

variable {a t : Text} {column column' width : Nat} {c : Case} {cases cases' : List Case}
  {ls : List Text}

def Case.IsLine (column : Nat) (c : Case) (line : Text) : Prop :=
  ∃ n, line = "def " ++ (c.name ++ (spaces (n + 1) ++ (": " ++ (c.body ++ ";")))) ∧
    4 + c.name.length + (n + 1) = column

theorem Case.isLine_line (h : c.name.length ≤ width) : c.IsLine (width + 5) (c.line width) := by
  refine ⟨width - c.name.length, ?_, by omega⟩
  have hspaces : spaces (width - c.name.length + 1) = spaces (width - c.name.length) ++ [' '] :=
    List.replicate_succ'
  have hcolon : (" : " : Text) = [' '] ++ ": " := by simp
  unfold Case.line padRight
  rw [hspaces]
  simp only [hcolon, List.append_assoc]

theorem forall₂_isLine (cases : List Case) :
    List.Forall₂ (Case.IsLine (widest cases + 5)) cases (cases.map (Case.line (widest cases))) :=
  List.forall₂_map_right_iff.2
    (List.forall₂_same.2 fun _ hc => Case.isLine_line (length_le_widest hc))

def Case.ofLine? (line : Text) : Option Case := do
  let rest ← after? "def " line
  let (name, rest) ← cut? [' '] rest
  let rest ← after? ": " (rest.dropWhile (· == ' '))
  let body ← upTo? ";" rest
  return { name, body }

theorem Case.IsLine.ofLine?_eq {line : Text} (h : c.IsLine column line) (hc : ' ' ∉ c.name) :
    Case.ofLine? line = some c := by
  obtain ⟨n, rfl, -⟩ := h
  have hspaces : spaces (n + 1) = ' ' :: spaces n := List.replicate_succ
  have hcolon : (": " : Text) = ':' :: [' '] := String.toList_ofList
  have hname : cut? [' '] (c.name ++ (spaces (n + 1) ++ (": " ++ (c.body ++ ";")))) =
      some (c.name, spaces n ++ (": " ++ (c.body ++ ";"))) := by
    rw [hspaces, List.cons_append, cut?_append_cons hc]
  have hpad : (spaces n ++ (": " ++ (c.body ++ ";"))).dropWhile (· == ' ') =
      ": " ++ (c.body ++ ";") := by
    rw [List.dropWhile_append_of_pos fun s hs => beq_of_eq (List.eq_of_mem_replicate hs), hcolon]
    rfl
  have hbody : upTo? ";" (c.body ++ ";") = some c.body := upTo?_eq_some_iff.2 rfl
  simp only [Case.ofLine?, after?_append, hname, hpad, hbody, Option.bind_eq_bind,
    Option.bind_some, Option.pure_def]

def leadingLines (t : Text) : List Text := (lines t).takeWhile (· ≠ [])

theorem lines_append_newline (ha : '\n' ∉ a) (t : Text) :
    lines (a ++ '\n' :: t) = a :: lines t := by
  have hsplit : a.splitOnP (· == '\n') = [a] :=
    List.splitOnP_eq_singleton fun c hc => beq_false_of_ne fun hnewline => ha (hnewline ▸ hc)
  rw [lines, List.splitOnP_append_cons a t (by decide), hsplit]
  rfl

theorem leadingLines_join (h : ∀ l ∈ ls, l ≠ [] ∧ '\n' ∉ l) (t : Text) :
    leadingLines (join ['\n'] ls ++ '\n' :: '\n' :: t) = ls := by
  have hempty (t : Text) : leadingLines ('\n' :: t) = [] := by
    rw [leadingLines, ← List.nil_append ('\n' :: t), lines_append_newline List.not_mem_nil]
    rfl
  induction ls with
  | nil => exact hempty _
  | cons l ls ih =>
    obtain ⟨⟨hne, hnewline⟩, hls⟩ := List.forall_mem_cons.1 h
    have hcons (t : Text) : leadingLines (l ++ '\n' :: t) = l :: leadingLines t := by
      rw [leadingLines, lines_append_newline hnewline]
      exact List.takeWhile_cons_of_pos (decide_eq_true hne)
    cases ls with
    | nil =>
      rw [join, List.intercalate_singleton, hcons, hempty]
    | cons l' ls =>
      rw [join, List.intercalate_cons_cons, List.append_assoc, List.append_assoc,
        List.singleton_append, hcons]
      exact congrArg _ (ih hls)

structure Case.Legible (c : Case) : Prop where
  noSpace : ' ' ∉ c.name
  name_oneLine : '\n' ∉ c.name
  body_oneLine : '\n' ∉ c.body

theorem Case.IsLine.ne_nil {line : Text} (h : c.IsLine column line) : line ≠ [] := by
  obtain ⟨n, rfl, -⟩ := h
  simp

theorem Case.IsLine.oneLine {line : Text} (h : c.IsLine column line) (hname : '\n' ∉ c.name)
    (hbody : '\n' ∉ c.body) : '\n' ∉ line := by
  obtain ⟨n, rfl, -⟩ := h
  simp only [List.mem_append, not_or]
  exact ⟨notMem_ofList (by decide), hname, notMem_spaces (by decide) (n + 1),
    notMem_ofList (by decide), hbody, notMem_ofList (by decide)⟩

theorem exists_of_mem_forall₂ {α β : Type} {r : α → β → Prop} {as : List α} {bs : List β} {b : β}
    (h : List.Forall₂ r as bs) (hb : b ∈ bs) : ∃ a ∈ as, r a b := by
  induction h with
  | nil => cases hb
  | cons hr _ ih =>
    rcases List.mem_cons.1 hb with rfl | hb
    · exact ⟨_, List.mem_cons_self, hr⟩
    · obtain ⟨a, ha, hr⟩ := ih hb
      exact ⟨a, List.mem_cons_of_mem _ ha, hr⟩

theorem oneLine_of_forall₂_isLine (h : List.Forall₂ (Case.IsLine column) cases ls)
    (hc : ∀ c ∈ cases, '\n' ∉ c.name ∧ '\n' ∉ c.body) : ∀ l ∈ ls, l ≠ [] ∧ '\n' ∉ l := by
  intro l hl
  obtain ⟨c, hmem, hline⟩ := exists_of_mem_forall₂ h hl
  exact ⟨hline.ne_nil, hline.oneLine (hc c hmem).1 (hc c hmem).2⟩

/-- A text that defines cases, one a line and with their colons in one column, and goes on with an
aggregate behind an empty line. -/
def Tabulates (cases : List Case) (aggregate t : Text) : Prop :=
  ∃ column ls, t = join ['\n'] ls ++ ("\n\n" ++ aggregate) ∧
    List.Forall₂ (Case.IsLine column) cases ls

theorem tabulates_alignedCases (cases : List Case) (aggregate : Text) :
    Tabulates cases aggregate (alignedCases cases ++ ("\n\n" ++ aggregate)) :=
  ⟨_, _, rfl, forall₂_isLine cases⟩

theorem Tabulates.ne_nil {aggregate : Text} (h : Tabulates cases aggregate t) : t ≠ [] := by
  obtain ⟨column, ls, rfl, -⟩ := h
  simp

theorem Tabulates.forall₂_leadingLines {aggregate : Text} (h : Tabulates cases aggregate t)
    (hc : ∀ c ∈ cases, c.Legible) :
    ∃ column, List.Forall₂ (Case.IsLine column) cases (leadingLines t) := by
  obtain ⟨column, ls, rfl, hls⟩ := h
  have hblank : ("\n\n" : Text) = ['\n', '\n'] := String.toList_ofList
  refine ⟨column, ?_⟩
  rw [hblank, List.cons_append, List.singleton_append, leadingLines_join]
  · exact hls
  · exact oneLine_of_forall₂_isLine hls fun c hmem =>
      ⟨(hc c hmem).name_oneLine, (hc c hmem).body_oneLine⟩

theorem mapM_ofLine?_of_forall₂ (h : List.Forall₂ (Case.IsLine column) cases ls)
    (hc : ∀ c ∈ cases, ' ' ∉ c.name) : ls.mapM Case.ofLine? = some cases := by
  rw [mapM_eq_some_iff_forall₂]
  induction h with
  | nil => exact .nil
  | cons hline _ ih =>
    obtain ⟨hfirst, hrest⟩ := List.forall_mem_cons.1 hc
    exact .cons (hline.ofLine?_eq hfirst) (ih hrest)

theorem eq_of_forall₂_isLine (h : List.Forall₂ (Case.IsLine column) cases ls)
    (h' : List.Forall₂ (Case.IsLine column') cases' ls) (hc : ∀ c ∈ cases, ' ' ∉ c.name)
    (hc' : ∀ c ∈ cases', ' ' ∉ c.name) : cases = cases' :=
  Option.some.inj ((mapM_ofLine?_of_forall₂ h hc).symm.trans (mapM_ofLine?_of_forall₂ h' hc'))

theorem Tabulates.unique {aggregate aggregate' : Text} (h : Tabulates cases aggregate t)
    (h' : Tabulates cases' aggregate' t) (hc : ∀ c ∈ cases, c.Legible)
    (hc' : ∀ c ∈ cases', c.Legible) : cases = cases' := by
  obtain ⟨column, hls⟩ := h.forall₂_leadingLines hc
  obtain ⟨column', hls'⟩ := h'.forall₂_leadingLines hc'
  exact eq_of_forall₂_isLine hls hls' (fun c hmem => (hc c hmem).noSpace)
    fun c hmem => (hc' c hmem).noSpace

theorem isGreatest_widest (hne : cases ≠ []) :
    IsGreatest {n | ∃ c ∈ cases, c.name.length = n} (widest cases) := by
  constructor
  · induction cases with
    | nil => exact absurd rfl hne
    | cons c cs ih =>
      rw [widest_cons]
      rcases le_total (widest cs) c.name.length with hle | hle
      · exact ⟨c, List.mem_cons_self, (max_eq_left hle).symm⟩
      · by_cases hcs : cs = []
        · exact ⟨c, List.mem_cons_self, by simp [hcs]⟩
        · obtain ⟨d, hd, hlength⟩ := ih hcs
          exact ⟨d, List.mem_cons_of_mem c hd, hlength.trans (max_eq_right hle).symm⟩
  · rintro _ ⟨c, hc, rfl⟩
    exact length_le_widest hc

def linesIfAny (t : Text) : List Text := if t = [] then [] else lines t

theorem linesIfAny_join (h : ∀ l ∈ ls, l ≠ [] ∧ '\n' ∉ l) : linesIfAny (join ['\n'] ls) = ls := by
  cases ls with
  | nil => rfl
  | cons l ls =>
    have hne : join ['\n'] (l :: ls) ≠ [] := by
      intro hnil
      have hl := infix_join ['\n'] (List.mem_cons_self (a := l) (l := ls))
      rw [hnil, List.infix_nil] at hl
      exact (h l List.mem_cons_self).1 hl
    rw [linesIfAny, if_neg hne]
    exact lines_join (fun l hl => (h l hl).2) (List.cons_ne_nil l ls)

theorem forall₂_linesIfAny (h : ∀ c ∈ cases, '\n' ∉ c.name ∧ '\n' ∉ c.body) :
    List.Forall₂ (Case.IsLine (widest cases + 5)) cases (linesIfAny (alignedCases cases)) := by
  have hlines := forall₂_isLine cases
  rw [alignedCases, linesIfAny_join (oneLine_of_forall₂_isLine hlines h)]
  exact hlines

/-- Each case has a line of its own, in order, with at least one space before its colon and all
colons in the first column that leaves room for this, and the cases are read back from the lines. -/
theorem alignedCases_aligned (h : ∀ c ∈ cases, '\n' ∉ c.name ∧ '\n' ∉ c.body) :
    (∀ c ∈ cases, 1 ≤ widest cases + 1 - c.name.length) ∧
      (cases ≠ [] → IsGreatest {n | ∃ c ∈ cases, c.name.length = n} (widest cases)) ∧
      List.Forall₂ (Case.IsLine (widest cases + 5)) cases (linesIfAny (alignedCases cases)) ∧
      ((∀ c ∈ cases, ' ' ∉ c.name) →
        (linesIfAny (alignedCases cases)).mapM Case.ofLine? = some cases) := by
  have hlines := forall₂_linesIfAny h
  refine ⟨fun c hc => ?_, isGreatest_widest, hlines, mapM_ofLine?_of_forall₂ hlines⟩
  have hle := length_le_widest hc
  omega

def unevenCases : List Case := [⟨"Ä", "x;"⟩, ⟨"", " : y"⟩, ⟨"Ä", "x;"⟩, ⟨"SPV_A", ""⟩]

def unevenLines : List Text :=
  ["def Ä     : x;;", "def       :  : y;", "def Ä     : x;;", "def SPV_A : ;"]

theorem alignedCases_aligned_uneven :
    linesIfAny (alignedCases unevenCases) = unevenLines ∧
      List.Forall₂ (Case.IsLine 10) unevenCases unevenLines ∧
      unevenLines.mapM Case.ofLine? = some unevenCases := by
  have hlines : linesIfAny (alignedCases unevenCases) = unevenLines := by decide +kernel
  have hnewline : ∀ c ∈ unevenCases, '\n' ∉ c.name ∧ '\n' ∉ c.body := by decide +kernel
  have hspace : ∀ c ∈ unevenCases, ' ' ∉ c.name := by decide +kernel
  obtain ⟨-, -, haligned, hread⟩ := alignedCases_aligned hnewline
  rw [hlines] at haligned hread
  exact ⟨hlines, haligned, hread hspace⟩

end SpirvTables.Text
