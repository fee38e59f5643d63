import SpirvTables.Proofs.Refresh.Enums
import SpirvTables.Proofs.Refresh.Opcodes
import SpirvTables.Proofs.Section.Marked

namespace SpirvTables

open Text MarkedSection

section

variable {layout : Layout} {g : Grammar} {requested : List Text} {t t' : Text} {ns : NameSet}

theorem reframed_of_refreshEnums (hg : ∀ k ∈ g.kinds, k.Worded)
    (h : refreshEnums layout g requested t = .ok (t', ns)) : Reframed enumMarker t t' := by
  obtain ⟨s, fs, hs, hfs, -, rfl⟩ := refreshEnums_eq_ok h
  exact reframed_render framed_enumMarker hs (absent_enumBody hg hfs)

theorem reframed_of_refreshOpcodes (hg : ∀ i ∈ g.instructions, i.opname.all Character.isWord)
    (h : refreshOpcodes layout g requested t = .ok (t', ns)) : Reframed opcodeMarker t t' := by
  obtain ⟨s, content, hs, hcontent, -, rfl⟩ := refreshOpcodes_eq_ok h
  exact reframed_render framed_opcodeMarker hs
    (absent_opcodeContent (fun i hi _ => hg i hi) hcontent)

structure Grammar.Worded (g : Grammar) : Prop where
  kinds : ∀ k ∈ g.kinds, k.Worded
  opnames : ∀ i ∈ g.instructions, i.opname.all Character.isWord

instance (g : Grammar) : Decidable g.Worded :=
  decidable_of_iff (_ ∧ _) ⟨fun ⟨k, o⟩ => ⟨k, o⟩, fun h => ⟨h.kinds, h.opnames⟩⟩

/-- The two marked sections are read and rendered faithfully, so that no refresh with the names of
a grammar touches what is around them. -/
theorem refresh_reframes (hg : g.Worded) :
    (∀ m ∈ [enumMarker, opcodeMarker], Codec m) ∧
      (∀ (layout : Layout) (requested : List Text) (t t' : Text) (ns : NameSet),
        refreshEnums layout g requested t = .ok (t', ns) → Reframed enumMarker t t') ∧
      ∀ (layout : Layout) (requested : List Text) (t t' : Text) (ns : NameSet),
        refreshOpcodes layout g requested t = .ok (t', ns) → Reframed opcodeMarker t t' := by
  refine ⟨?_, fun _ _ _ _ _ => reframed_of_refreshEnums hg.kinds,
    fun _ _ _ _ _ => reframed_of_refreshOpcodes hg.opnames⟩
  intro m hm
  rcases List.mem_pair.1 hm with rfl | rfl
  · exact framed_enumMarker.codec
  · exact framed_opcodeMarker.codec

def barrenGrammar : Grammar :=
  ⟨[⟨[], .valueEnum, [⟨"2D", 1⟩]⟩], [⟨"_", 7, none, []⟩]⟩

theorem refresh_reframes_barren :
    barrenGrammar.Worded ∧ Codec enumMarker ∧ Codec opcodeMarker ∧
      (∃ t' ns, refreshEnums {} barrenGrammar [[]] blankEnums = .ok (t', ns) ∧
        Reframed enumMarker blankEnums t') ∧
      ∃ t' ns, refreshOpcodes {} barrenGrammar ["_"] blankOpcodes = .ok (t', ns) ∧
        Reframed opcodeMarker blankOpcodes t' := by
  have hg : barrenGrammar.Worded := by decide +kernel
  have henums : (refreshEnums {} barrenGrammar [[]] blankEnums).isOk := by decide +kernel
  have hopcodes : (refreshOpcodes {} barrenGrammar ["_"] blankOpcodes).isOk := by decide +kernel
  obtain ⟨hcodec, hreframeEnums, hreframeOpcodes⟩ := refresh_reframes hg
  refine ⟨hg, hcodec _ (by simp), hcodec _ (by simp), ?_, ?_⟩
  · cases h : refreshEnums {} barrenGrammar [[]] blankEnums with
    | error f =>
      rw [h] at henums
      cases henums
    | ok r => exact ⟨r.1, r.2, rfl, hreframeEnums _ _ _ _ _ h⟩
  · cases h : refreshOpcodes {} barrenGrammar ["_"] blankOpcodes with
    | error f =>
      rw [h] at hopcodes
      cases hopcodes
    | ok r => exact ⟨r.1, r.2, rfl, hreframeOpcodes _ _ _ _ _ h⟩

end

def Refreshes {α : Type} (m : Text) (rule : Text → Text → α → Prop) (t t' : Text) (a : α) : Prop :=
  ∃ s content, ofText m t = .ok s ∧ rule s.body content a ∧ t' = s.render content

def enumRule (layout : Layout) (g : Grammar) (requested : List Text) (body content : Text)
    (ns : NameSet) : Prop :=
  ns = NameSet.union requested (definedKinds body) ∧
    ∃ fs, enumFragments layout g ns.names = .ok fs ∧ content = enumBody fs

def opcodeRule (layout : Layout) (g : Grammar) (requested : List Text) (body content : Text)
    (ns : NameSet) : Prop :=
  ns = NameSet.union requested (definedOpcodes body) ∧
    opcodeContent layout g ns.names = .ok content

section

variable {layout : Layout} {g : Grammar} {requested : List Text} {t t' : Text} {ns : NameSet}

theorem refreshEnums_eq_ok_iff : refreshEnums layout g requested t = .ok (t', ns) ↔
    Refreshes enumMarker (enumRule layout g requested) t t' ns := by
  constructor
  · intro h
    obtain ⟨s, fs, hs, hfs, hns, ht'⟩ := refreshEnums_eq_ok h
    exact ⟨s, _, hs, ⟨hns, fs, hfs, rfl⟩, ht'⟩
  · rintro ⟨s, _, hs, ⟨rfl, fs, hfs, rfl⟩, rfl⟩
    obtain ⟨kinds, hkinds, hfs⟩ := bind_eq_ok.1 hfs
    obtain rfl := Except.ok.inj hfs
    exact bind_eq_ok.2 ⟨s, hs, bind_eq_ok.2 ⟨kinds, hkinds, rfl⟩⟩

theorem refreshOpcodes_eq_ok_iff : refreshOpcodes layout g requested t = .ok (t', ns) ↔
    Refreshes opcodeMarker (opcodeRule layout g requested) t t' ns := by
  constructor
  · intro h
    obtain ⟨s, content, hs, hcontent, hns, ht'⟩ := refreshOpcodes_eq_ok h
    exact ⟨s, content, hs, ⟨hns, hcontent⟩, ht'⟩
  · rintro ⟨s, content, hs, ⟨rfl, hcontent⟩, rfl⟩
    obtain ⟨known, hknown, hcontent⟩ := bind_eq_ok.1 hcontent
    obtain rfl := Except.ok.inj hcontent
    exact bind_eq_ok.2 ⟨s, hs, bind_eq_ok.2 ⟨known, hknown, rfl⟩⟩

end

/-- A file with a section for each of two markers, neither of which has the marker of the other. -/
structure Apart (m m' t : Text) : Prop where
  count : occurrences m t = 2
  count' : occurrences m' t = 2
  body : ∀ s, ofText m t = .ok s → ¬ m' <:+: s.body
  body' : ∀ s, ofText m' t = .ok s → ¬ m <:+: s.body

instance (m m' t : Text) : Decidable (Apart m m' t) :=
  decidable_of_iff (occurrences m t = 2 ∧ occurrences m' t = 2 ∧
      (∀ s ∈ (ofText m t).toOption, ¬ m' <:+: s.body) ∧
      ∀ s ∈ (ofText m' t).toOption, ¬ m <:+: s.body) <| by
    simp only [Option.mem_def, toOption_eq_some_iff]
    exact ⟨fun ⟨c, c', b, b'⟩ => ⟨c, c', b, b'⟩, fun h => ⟨h.count, h.count', h.body, h.body'⟩⟩

section

variable {α β : Type} {m m' t t' : Text} {rule : Text → Text → α → Prop}
  {rule' : Text → Text → β → Prop} {a : α} {b : β}

theorem Apart.symm (h : Apart m m' t) : Apart m' m t := ⟨h.count', h.count, h.body', h.body⟩

theorem Apart.refreshes_comm (h : Apart m m' t) (hm : Framed m) (hm' : Framed m')
    (hp : Parts m m') (hrule : ∀ body content a, rule body content a → ¬ m' <:+: content)
    (hrule' : ∀ body content b, rule' body content b → ¬ m <:+: content)
    (hr : ∃ u, Refreshes m rule t u a ∧ Refreshes m' rule' u t' b) :
    ∃ u, Refreshes m' rule' t u b ∧ Refreshes m rule u t' a := by
  obtain ⟨u, ⟨s, content, hs, ha, rfl⟩, z, content', hz, hb, rfl⟩ := hr
  obtain ⟨s', hs'⟩ := exists_ofText_eq_ok hm' h.count'
  have hc := hrule _ _ _ ha
  have hc' := hrule' _ _ _ hb
  obtain ⟨v, w, hw, hwbody, hv, hvbody, heq⟩ :=
    exists_ofText_render hm hm' hp hs hs' (h.body s hs) (h.body' s' hs') hc hc'
  obtain rfl := Except.ok.inj (hz.symm.trans hw)
  exact ⟨_, ⟨s', content', hs', hwbody ▸ hb, rfl⟩, v, content, hv, hvbody ▸ ha, heq⟩

end

theorem parts_markers : Parts enumMarker opcodeMarker := parts_ofList (by decide +kernel)

/-- Refreshing both sections gives the same file and the same names in either order, and fails in
both or in none. -/
theorem refreshEnums_refreshOpcodes_comm {g : Grammar} (hg : g.Worded) (layout : Layout)
    (kinds opnames : List Text) {t : Text} (h : Apart enumMarker opcodeMarker t) (t' : Text)
    (enums opcodes : NameSet) :
    (∃ u, refreshEnums layout g kinds t = .ok (u, enums) ∧
      refreshOpcodes layout g opnames u = .ok (t', opcodes)) ↔
    ∃ u, refreshOpcodes layout g opnames t = .ok (u, opcodes) ∧
      refreshEnums layout g kinds u = .ok (t', enums) := by
  have hkinds (body content : Text) (ns : NameSet)
      (hrule : enumRule layout g kinds body content ns) : ¬ opcodeMarker <:+: content := by
    obtain ⟨-, fs, hfs, rfl⟩ := hrule
    exact absent_of_part exclamation_infix_opcodeMarker (absent_exclamation_enumBody hg.kinds hfs)
  have hopnames (body content : Text) (ns : NameSet)
      (hrule : opcodeRule layout g opnames body content ns) : ¬ enumMarker <:+: content :=
    absent_of_part exclamation_infix_enumMarker
      (absent_exclamation_opcodeContent (fun i hi _ => hg.opnames i hi) hrule.2)
  simp only [refreshEnums_eq_ok_iff, refreshOpcodes_eq_ok_iff]
  constructor
  · exact h.refreshes_comm framed_enumMarker framed_opcodeMarker parts_markers hkinds hopnames
  · exact h.symm.refreshes_comm framed_opcodeMarker framed_enumMarker parts_markers.symm hopnames
      hkinds

def blankSections : Text := blankOpcodes ++ "\n" ++ blankEnums

theorem refreshEnums_refreshOpcodes_comm_barren :
    barrenGrammar.Worded ∧ Apart enumMarker opcodeMarker blankSections ∧ ∃ t' enums opcodes,
      (∃ u, refreshEnums {} barrenGrammar [[]] blankSections = .ok (u, enums) ∧
        refreshOpcodes {} barrenGrammar ["_"] u = .ok (t', opcodes)) ∧
      ∃ u, refreshOpcodes {} barrenGrammar ["_"] blankSections = .ok (u, opcodes) ∧
        refreshEnums {} barrenGrammar [[]] u = .ok (t', enums) := by
  have hg : barrenGrammar.Worded := by decide +kernel
  have hapart : Apart enumMarker opcodeMarker blankSections := by decide +kernel
  have hok : (refreshEnums {} barrenGrammar [[]] blankSections >>= fun r =>
      refreshOpcodes {} barrenGrammar ["_"] r.1).isOk := by decide +kernel
  cases h : (refreshEnums {} barrenGrammar [[]] blankSections >>= fun r =>
      refreshOpcodes {} barrenGrammar ["_"] r.1) with
  | error f =>
    rw [h] at hok
    cases hok
  | ok r =>
    obtain ⟨⟨u, enums⟩, henums, hopcodes⟩ := bind_eq_ok.1 h
    exact ⟨hg, hapart, r.1, enums, r.2, ⟨u, henums, hopcodes⟩,
      (refreshEnums_refreshOpcodes_comm hg {} _ _ hapart _ _ _).1 ⟨u, henums, hopcodes⟩⟩

end SpirvTables
