import Mathlib.Data.List.Flatten
import SpirvTables.Proofs.EnumTable
import SpirvTables.Proofs.Fault
import SpirvTables.Proofs.NameSet
import SpirvTables.Proofs.Section.Marked
import SpirvTables.Refresh

namespace SpirvTables

open Text MarkedSection

def Grammar.idle (g : Grammar) (n : Text) : Bool := (g.kind? n).any (·.enumerants.isEmpty)

def Grammar.idents (g : Grammar) (n : Text) : List Text :=
  if g.idle n then [] else (g.kind? n).elim [] OperandKind.idents

def enumFragments (layout : Layout) (g : Grammar) (names : List Text) :
    Except Fault (List EnumFragment) := do
  let kinds ← names.mapM (knownKind g)
  return kinds.filterMap (·.fragment? layout)

variable {layout : Layout} {g : Grammar} {names : List Text} {fs : List EnumFragment} {t t' : Text}

theorem map_refreshEnums (requested : List Text) :
    (refreshEnums layout g requested t).map (·.1) = do
      let s ← ofText enumMarker t
      let fs ← enumFragments layout g (NameSet.union requested (definedKinds s.body)).names
      return s.render (enumBody fs) := by
  unfold refreshEnums enumFragments
  cases ofText enumMarker t with
  | error e => rfl
  | ok s =>
    dsimp only [bind, Except.bind]
    cases (NameSet.union requested (definedKinds s.body)).names.mapM (knownKind g) <;> rfl

theorem enumFragments_filter (names : List Text) :
    enumFragments layout g (names.filter (!g.idle ·)) = enumFragments layout g names := by
  induction names with
  | nil => rfl
  | cons n ns ih =>
    unfold enumFragments at ih ⊢
    rw [List.filter_cons, List.mapM_cons]
    by_cases hn : g.idle n
    · obtain ⟨k, hk, he⟩ := (Option.any_eq_true _ _).1 hn
      have hnone := (fragment?_eq_none_iff layout).2 (List.isEmpty_iff.1 he)
      have hknown : knownKind g n = .ok k := known_eq_ok_iff.2 hk
      rw [hn, Bool.not_true, if_neg Bool.false_ne_true, ih, hknown]
      cases ns.mapM (knownKind g) <;>
        simp [bind, Except.bind, pure, Except.pure, hnone]
    · rw [Bool.not_eq_true] at hn
      rw [hn, Bool.not_false, if_pos rfl, List.mapM_cons]
      cases hk : knownKind g n with
      | error e => rfl
      | ok k =>
        cases h₁ : (ns.filter (!g.idle ·)).mapM (knownKind g) <;>
          cases h₂ : ns.mapM (knownKind g) <;>
          simp_all [bind, Except.bind, pure, Except.pure, List.filterMap_cons]

theorem enumFragments_eq_ok (h : enumFragments layout g names = .ok fs) :
    (∀ n ∈ names, ∃ k, g.kind? n = some k) ∧
      fs = names.filterMap fun n => (g.kind? n).bind (·.fragment? layout) := by
  obtain ⟨kinds, hm, hkinds⟩ := bind_eq_ok.1 h
  obtain rfl := Except.ok.inj hkinds
  rw [mapM_eq_ok_iff] at hm
  clear h hkinds
  induction names generalizing kinds with
  | nil =>
    obtain rfl := List.map_eq_nil_iff.1 hm.symm
    simp
  | cons n ns ih =>
    cases kinds with
    | nil => cases hm
    | cons k kinds =>
      obtain ⟨hk, hm⟩ := List.cons.inj hm
      replace hk := known_eq_ok_iff.1 hk
      obtain ⟨hall, hfs⟩ := ih kinds hm
      refine ⟨?_, ?_⟩
      · simpa [hk] using hall
      · simp [List.filterMap_cons, hk, hfs]

theorem Grammar.mem_kinds_of_kind? {n : Text} {k : OperandKind} (h : g.kind? n = some k) :
    k ∈ g.kinds := List.mem_of_find?_eq_some h

theorem Grammar.idle_eq {n : Text} {k : OperandKind} (h : g.kind? n = some k) :
    g.idle n = decide (k.cases = []) := by
  rw [idle, h, Option.any_some, Bool.eq_iff_iff, List.isEmpty_iff, decide_eq_true_iff,
    OperandKind.cases_eq_nil_iff]

theorem Grammar.idents_eq {n : Text} {k : OperandKind} (h : g.kind? n = some k) :
    g.idents n = if k.cases = [] then [] else k.idents := by
  rw [idents, idle_eq h, h]
  simp

theorem perm_wordsAfter_enumBody (hg : ∀ k ∈ g.kinds, k.Named)
    (h : enumFragments layout g names = .ok fs) :
    (wordsAfter definitionLead (enumBody fs)).Perm (names.flatMap g.idents) := by
  obtain ⟨hall, rfl⟩ := enumFragments_eq_ok h
  clear h
  rw [enumBody, wordsAfter_join OperandKind.parts_blankLine (stopsWord_ofList (by decide))
    definitionLead_ne_nil, List.flatMap_map]
  apply ((List.mergeSort_perm _ _).flatMap_right _).trans
  apply List.Perm.of_eq
  induction names with
  | nil => rfl
  | cons n ns ih =>
    obtain ⟨k, hk⟩ := hall n List.mem_cons_self
    have ih := ih fun m hm => hall m (List.mem_cons_of_mem n hm)
    rw [List.filterMap_cons, List.flatMap_cons, Grammar.idents_eq hk, hk, Option.bind_some]
    cases hf : k.fragment? layout with
    | none =>
      rw [fragment?_eq_none_iff, ← OperandKind.cases_eq_nil_iff] at hf
      rw [if_pos hf, List.nil_append, ih]
    | some fr =>
      have hcases : k.cases ≠ [] := by
        intro hc
        rw [OperandKind.cases_eq_nil_iff, ← fragment?_eq_none_iff layout, hf] at hc
        cases hc
      obtain ⟨text, ht, rfl⟩ := Option.map_eq_some_iff.1 hf
      rw [if_neg hcases, List.flatMap_cons, ih,
        (hg k (Grammar.mem_kinds_of_kind? hk)).worded.wordsAfter_definitions? ht]

theorem exclamation_infix_enumMarker : OperandKind.exclamation <:+: enumMarker :=
  infix_ofList (by decide)

theorem absent_exclamation_enumBody (hg : ∀ k ∈ g.kinds, k.Worded)
    (h : enumFragments layout g names = .ok fs) : ¬ OperandKind.exclamation <:+: enumBody fs := by
  obtain ⟨hall, rfl⟩ := enumFragments_eq_ok h
  apply absent_join (parts_ofList (by decide))
  intro text ht
  obtain ⟨fr, hfr, rfl⟩ := List.mem_map.1 ht
  obtain ⟨n, -, hn⟩ := List.mem_filterMap.1 (List.mem_mergeSort.1 hfr)
  obtain ⟨k, hk, hf⟩ := Option.bind_eq_some_iff.1 hn
  obtain ⟨text, htext, rfl⟩ := Option.map_eq_some_iff.1 hf
  exact (hg k (Grammar.mem_kinds_of_kind? hk)).absent_exclamation htext

theorem absent_enumBody (hg : ∀ k ∈ g.kinds, k.Worded)
    (h : enumFragments layout g names = .ok fs) : ¬ enumMarker <:+: enumBody fs :=
  absent_of_part exclamation_infix_enumMarker (absent_exclamation_enumBody hg h)

theorem stem?_caseIdent_eq_some_iff {k : OperandKind} {e : Enumerant} {z : Text} :
    stem? "Attr" (k.caseIdent e) = some z ↔
      ∃ stem : Text, e.symbol = stem ++ "Attr" ∧ z = acronym k.name ++ "_" ++ stem := by
  rw [stem?_eq_some_iff, OperandKind.caseIdent]
  constructor
  · rintro ⟨h, -⟩
    rcases List.append_eq_append_iff.1 h with ⟨s, rfl, hs⟩ | ⟨s, hs, hattr⟩
    · exact ⟨s, hs, rfl⟩
    · cases s with
      | nil => exact ⟨[], by simpa using hattr.symm, by simpa using hs.symm⟩
      | cons a s =>
        -- The part of `Attr` before the symbol would end with the underscore.
        have hlast : (a :: s).getLast? = some '_' := by
          rw [← List.getLast?_append_of_ne_nil z (List.cons_ne_nil a s), ← hs]
          exact List.getLast?_concat
        have hmem : '_' ∈ ("Attr" : Text) := by
          rw [hattr]
          exact List.mem_append_left _ (List.mem_of_getLast? hlast)
        exact absurd hmem (notMem_ofList (by decide))
  · rintro ⟨stem, he, rfl⟩
    simp [he]

theorem definedKinds_eq (body : Text) :
    definedKinds body = (wordsAfter definitionLead body).filterMap (stem? "Attr") := by
  simp [definedKinds, wordsAfter, List.filterMap_map]

theorem definedKinds_framedBody (content : Text) :
    definedKinds (framedBody content) = definedKinds content := by
  rw [definedKinds_eq, definedKinds_eq, wordsAfter_framedBody definitionLead_ne_nil
    OperandKind.parts_blankLine (parts_ofList (by decide))]

/-- A name that is read back although its attribute is not written: what a case of a written kind
is called with, if its symbol ends in `Attr`. -/
def Grammar.Misread (g : Grammar) (names : List Text) (m : Text) : Prop :=
  ∃ n ∈ names, ∃ k, g.kind? n = some k ∧ ∃ e ∈ k.cases, ∃ stem : Text,
    e.symbol = stem ++ "Attr" ∧ m = acronym n ++ "_" ++ stem

theorem mem_definedKinds_enumBody (hg : ∀ k ∈ g.kinds, k.Named)
    (h : enumFragments layout g names = .ok fs) {m : Text} :
    m ∈ definedKinds (enumBody fs) ↔ m ∈ names ∧ g.idle m = false ∨ g.Misread names m := by
  have hattr {n : Text} {k : OperandKind} (hk : g.kind? n = some k) :
      stem? "Attr" k.attributeIdent = some n := by
    have hn := g.name_of_kind? hk
    refine stem?_eq_some_iff.2 ⟨by rw [OperandKind.attributeIdent, hn], ?_⟩
    exact hn ▸ (hg k (Grammar.mem_kinds_of_kind? hk)).name.ne_nil
  rw [definedKinds_eq, List.mem_filterMap]
  constructor
  · rintro ⟨w, hw, hm⟩
    obtain ⟨n, hn, hw⟩ := List.mem_flatMap.1 ((perm_wordsAfter_enumBody hg h).mem_iff.1 hw)
    obtain ⟨k, hk⟩ := (enumFragments_eq_ok h).1 n hn
    rw [Grammar.idents_eq hk] at hw
    split at hw
    · cases hw
    · next hc =>
      rcases List.mem_append.1 hw with hw | hw
      · obtain ⟨e, he, rfl⟩ := List.mem_map.1 hw
        obtain ⟨stem, hs, rfl⟩ := stem?_caseIdent_eq_some_iff.1 hm
        exact .inr ⟨n, hn, k, hk, e, he, stem, hs, by rw [g.name_of_kind? hk]⟩
      · rw [List.mem_singleton.1 hw, hattr hk] at hm
        obtain rfl := Option.some.inj hm
        exact .inl ⟨hn, by rw [Grammar.idle_eq hk, decide_eq_false_iff_not]; exact hc⟩
  · have hmem {n w : Text} {k : OperandKind} (hn : n ∈ names) (hk : g.kind? n = some k)
        (hc : k.cases ≠ []) (hw : w ∈ k.idents) :
        w ∈ wordsAfter definitionLead (enumBody fs) := by
      apply (perm_wordsAfter_enumBody hg h).mem_iff.2
      apply List.mem_flatMap.2
      refine ⟨n, hn, ?_⟩
      rwa [Grammar.idents_eq hk, if_neg hc]
    rintro (⟨hm, hidle⟩ | ⟨n, hn, k, hk, e, he, stem, hs, rfl⟩)
    · obtain ⟨k, hk⟩ := (enumFragments_eq_ok h).1 m hm
      rw [Grammar.idle_eq hk, decide_eq_false_iff_not] at hidle
      exact ⟨_, hmem hm hk hidle (List.mem_append_right _ (List.mem_singleton_self _)), hattr hk⟩
    · refine ⟨_, hmem hn hk (List.ne_nil_of_mem he)
        (List.mem_append_left _ (List.mem_map_of_mem he)), ?_⟩
      exact stem?_caseIdent_eq_some_iff.2 ⟨stem, hs, by rw [g.name_of_kind? hk]⟩

/-- The names that a refresh reads back from what it wrote add nothing to it. -/
def Grammar.Legible (g : Grammar) (names : List Text) : Prop :=
  ∀ m, g.Misread names m → m ∈ names ∨ g.idle m = true

theorem refreshEnums_eq_ok {requested : List Text} {ns : NameSet}
    (h : refreshEnums layout g requested t = .ok (t', ns)) :
    ∃ s fs, ofText enumMarker t = .ok s ∧ enumFragments layout g ns.names = .ok fs ∧
      ns = NameSet.union requested (definedKinds s.body) ∧ t' = s.render (enumBody fs) := by
  obtain ⟨s, hs, h⟩ := bind_eq_ok.1 h
  obtain ⟨kinds, hkinds, h⟩ := bind_eq_ok.1 h
  obtain ⟨rfl, rfl⟩ := Prod.mk.inj (Except.ok.inj h)
  exact ⟨s, _, hs, bind_eq_ok.2 ⟨kinds, hkinds, rfl⟩, rfl, rfl⟩

variable {requested : List Text} {ns : NameSet}

theorem refreshEnums_composes (hg : ∀ k ∈ g.kinds, k.Named)
    (h : refreshEnums layout g requested t = .ok (t', ns)) (hl : g.Legible ns.names)
    (requested' : List Text) :
    (refreshEnums layout g requested' t').map (·.1) =
      (refreshEnums layout g (requested ++ requested') t).map (·.1) := by
  obtain ⟨s, fs, hs, hfs, rfl, rfl⟩ := refreshEnums_eq_ok h
  have ht' := ofText_render framed_enumMarker hs
    (absent_enumBody (fun k hk => (hg k hk).worded) hfs)
  rw [map_refreshEnums, map_refreshEnums, hs, ht']
  dsimp only [bind, Except.bind]
  simp only [render_body]
  rw [← enumFragments_filter, ← enumFragments_filter (NameSet.names (.union (_ ++ _) _)),
    definedKinds_framedBody]
  -- The names differ in what is read back, and of that only idle names are new.
  have hnames : (NameSet.union requested' (definedKinds (enumBody fs))).names.filter (!g.idle ·) =
      (NameSet.union (requested ++ requested') (definedKinds s.body)).names.filter
        (!g.idle ·) := by
    apply List.SortedLT.eq_of_mem_iff
    · exact ((NameSet.sortedLT_names_union _ _).pairwise.filter _).sortedLT
    · exact ((NameSet.sortedLT_names_union _ _).pairwise.filter _).sortedLT
    · intro m
      have hm := hl m
      simp only [List.mem_filter, NameSet.mem_names_union, mem_definedKinds_enumBody hg hfs,
        List.mem_append] at hm ⊢
      grind
  rw [hnames]

theorem flatMap_idents_filter (names : List Text) :
    (names.filter (!g.idle ·)).flatMap g.idents = names.flatMap g.idents := by
  induction names with
  | nil => rfl
  | cons n ns ih =>
    rw [List.filter_cons, List.flatMap_cons, ← ih]
    cases hn : g.idle n with
    | true => simp [Grammar.idents, hn]
    | false => simp

theorem legible_of_refreshEnums (hg : ∀ k ∈ g.kinds, k.Named)
    (h : refreshEnums layout g requested t = .ok (t', ns))
    (hid : (refreshEnums layout g [] t').map (·.1) = .ok t') : g.Legible ns.names := by
  obtain ⟨s, fs, hs, hfs, rfl, rfl⟩ := refreshEnums_eq_ok h
  have ht' := ofText_render framed_enumMarker hs
    (absent_enumBody (fun k hk => (hg k hk).worded) hfs)
  rw [map_refreshEnums, ht'] at hid
  dsimp only [bind, Except.bind] at hid
  simp only [definedKinds_framedBody, render_body] at hid
  intro m hm
  by_contra hnew
  obtain ⟨hnot, hidle⟩ := not_or.1 hnew
  rw [Bool.not_eq_true] at hidle
  cases hfs' : enumFragments layout g (NameSet.union [] (definedKinds (enumBody fs))).names with
  | error e => simp [hfs'] at hid
  | ok fs' =>
    have hbody : enumBody fs' = enumBody fs := by
      simpa [hfs', pure, Except.pure, render_inj] using hid
    -- What was written for its names is written again, and the definitions of `m` besides.
    generalize hlive : (NameSet.union requested (definedKinds s.body)).names.filter
      (!g.idle ·) = live
    have hsub : m :: live ⊆ (NameSet.union [] (definedKinds (enumBody fs))).names := by
      intro n hn
      rw [NameSet.mem_names_union, mem_definedKinds_enumBody hg hfs]
      rcases List.mem_cons.1 hn with rfl | hn
      · exact .inr (.inr hm)
      · rw [← hlive, List.mem_filter, Bool.not_eq_true'] at hn
        exact .inr (.inl hn)
    have hnodup : (m :: live).Nodup := by
      rw [List.nodup_cons, ← hlive]
      exact ⟨fun hmem => hnot (List.mem_of_mem_filter hmem),
        (NameSet.sortedLT_names_union _ _).nodup.filter _⟩
    obtain ⟨l, hperm, hl⟩ := List.subperm_of_subset hnodup hsub
    have hlength := (hl.flatMap g.idents).length_le
    rw [(hperm.flatMap_right g.idents).length_eq,
      ← (perm_wordsAfter_enumBody hg hfs').length_eq, hbody,
      (perm_wordsAfter_enumBody hg hfs).length_eq, ← flatMap_idents_filter (NameSet.names _),
      hlive,
      List.flatMap_cons, List.length_append] at hlength
    have hpos : 0 < (g.idents m).length := by
      obtain ⟨k, hk⟩ := (enumFragments_eq_ok hfs').1 m (hsub List.mem_cons_self)
      rw [Grammar.idle_eq hk, decide_eq_false_iff_not] at hidle
      rw [Grammar.idents_eq hk, if_neg hidle, OperandKind.idents, List.length_append]
      exact Nat.lt_of_lt_of_le Nat.zero_lt_one (Nat.le_add_left _ _)
    omega

/-- Two refreshes come to one for both requests if and only if what the first wrote is legible, and
so it is for a second refresh that nothing is requested of. -/
theorem refreshEnums_composes_iff_legible (hg : ∀ k ∈ g.kinds, k.Named)
    (h : refreshEnums layout g requested t = .ok (t', ns)) :
    (g.Legible ns.names ↔ ∀ requested' : List Text,
        (refreshEnums layout g requested' t').map (·.1) =
          (refreshEnums layout g (requested ++ requested') t).map (·.1)) ∧
      (g.Legible ns.names ↔ (refreshEnums layout g [] t').map (·.1) = .ok t') := by
  have hnone : (refreshEnums layout g (requested ++ []) t).map (·.1) = .ok t' := by
    rw [List.append_nil, h]
    rfl
  refine ⟨⟨refreshEnums_composes hg h, fun hc => ?_⟩, fun hl => ?_, legible_of_refreshEnums hg h⟩
  · exact legible_of_refreshEnums hg h ((hc []).trans hnone)
  · exact (refreshEnums_composes hg h hl []).trans hnone

def blankEnums : Text := enumMarker ++ "\n\n// End " ++ enumMarker

def dimGrammar : Grammar := ⟨[⟨"Dim", .valueEnum, [⟨"Cube", 3⟩]⟩], []⟩

theorem refreshEnums_composes_iff_legible_dim :
    (∀ k ∈ dimGrammar.kinds, k.Named) ∧
      ∃ t' ns, refreshEnums {} dimGrammar ["Dim"] blankEnums = .ok (t', ns) ∧
        (dimGrammar.Legible ns.names ↔
          (refreshEnums {} dimGrammar [] t').map (·.1) = .ok t') := by
  have hg : ∀ k ∈ dimGrammar.kinds, k.Named := by decide +kernel
  have hok : (refreshEnums {} dimGrammar ["Dim"] blankEnums).isOk := by decide +kernel
  refine ⟨hg, ?_⟩
  cases h : refreshEnums {} dimGrammar ["Dim"] blankEnums with
  | error e =>
    rw [h] at hok
    cases hok
  | ok r => exact ⟨r.1, r.2, rfl, (refreshEnums_composes_iff_legible hg h).2⟩

def decorationGrammar : Grammar := ⟨[⟨"Decoration", .valueEnum, [⟨"FuncParamAttr", 38⟩]⟩], []⟩

theorem refreshEnums_not_composes_funcParamAttr :
    (∀ k ∈ decorationGrammar.kinds, k.Named) ∧
      ∃ t' ns, refreshEnums {} decorationGrammar ["Decoration"] blankEnums = .ok (t', ns) ∧
        (refreshEnums {} decorationGrammar [] t').map (·.1) ≠
          (refreshEnums {} decorationGrammar ([("Decoration" : Text)] ++ []) blankEnums).map
            (·.1) := by
  have hok : (refreshEnums {} decorationGrammar ["Decoration"] blankEnums).isOk := by
    decide +kernel
  have hfail : ((refreshEnums {} decorationGrammar ["Decoration"] blankEnums).bind fun r =>
      refreshEnums {} decorationGrammar [] r.1).isOk = false := by decide +kernel
  refine ⟨by decide +kernel, ?_⟩
  cases h : refreshEnums {} decorationGrammar ["Decoration"] blankEnums with
  | error e =>
    rw [h] at hok
    cases hok
  | ok r =>
    rw [h] at hfail
    refine ⟨r.1, r.2, rfl, fun heq => ?_⟩
    rw [List.append_nil, h] at heq
    cases h' : refreshEnums {} decorationGrammar [] r.1 with
    | error e =>
      rw [h'] at heq
      cases heq
    | ok r' =>
      rw [show (Except.ok r).bind (fun r => refreshEnums {} decorationGrammar [] r.1) =
        refreshEnums {} decorationGrammar [] r.1 from rfl, h'] at hfail
      cases hfail

end SpirvTables
