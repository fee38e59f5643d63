import SpirvTables.Proofs.Section.Defined
import SpirvTables.Proofs.Text.Split
import SpirvTables.Section

/-!
A file has a marked section if and only if the marker stands in it twice. The section is cut from
its file where it was set into it: reading a file that was rendered with new content finds the same
surroundings and that content.
-/

namespace SpirvTables.MarkedSection

open Text

variable {m t content : Text} {s : MarkedSection}

theorem ofText_eq_ok_iff (hm : m ≠ []) :
    ofText m t = .ok s ↔
      s.marker = m ∧ t = s.before ++ (m ++ (s.body ++ (m ++ s.after))) ∧
        ¬ m <:+: s.before ++ m.dropLast ∧ ¬ m <:+: s.body ++ m.dropLast ∧ ¬ m <:+: s.after := by
  have hpieces : splitOn m t = [s.before, s.body, s.after] ↔
      t = s.before ++ (m ++ (s.body ++ (m ++ s.after))) ∧
        ¬ m <:+: s.before ++ m.dropLast ∧ ¬ m <:+: s.body ++ m.dropLast ∧ ¬ m <:+: s.after := by
    have h : splitOn m t = [s.before, s.body] ++ [s.after] ↔ _ := splitOn_eq_concat_iff hm
    simpa [List.intercalate_cons_cons, and_assoc] using h
  rw [← hpieces, ofText]
  split
  · next before body after h =>
    rw [h]
    constructor
    · intro hs
      obtain rfl := Except.ok.inj hs
      simp
    · rintro ⟨rfl, hs⟩
      obtain ⟨rfl, rfl, rfl⟩ : before = s.before ∧ body = s.body ∧ after = s.after := by
        simpa using hs
      rfl
  · next h =>
    constructor
    · intro hs
      dsimp only at hs
      split at hs <;> cases hs
    · rintro ⟨-, hs⟩
      exact absurd hs (h _ _ _)

/-- A marker that can be told apart from the blank lines that frame the content of its section. -/
structure Framed (m : Text) : Prop where
  ne_nil : m ≠ []
  borderless : Borderless m
  opening : Parts m "\n\n"
  closing : Parts m "\n\n// End "

instance (m : Text) : Decidable (Framed m) :=
  decidable_of_iff (m ≠ [] ∧ Borderless m ∧ Parts m "\n\n" ∧ Parts m "\n\n// End ")
    ⟨fun ⟨n, b, o, c⟩ => ⟨n, b, o, c⟩, fun h => ⟨h.ne_nil, h.borderless, h.opening, h.closing⟩⟩

theorem framed_ofList {l : List Char} (h : Framed l) : Framed (String.ofList l).toList := by
  rwa [String.toList_ofList]

theorem framed_enumMarker : Framed enumMarker := framed_ofList (by decide +kernel)

theorem framed_opcodeMarker : Framed opcodeMarker := framed_ofList (by decide +kernel)

theorem Framed.length_splitOn (hm : Framed m) (t : Text) :
    (splitOn m t).length = occurrences m t + 1 := hm.borderless.length_splitOn hm.ne_nil t

theorem ofText_eq_error (hm : Framed m) (h : occurrences m t ≠ 2) :
    ofText m t = .error (if occurrences m t < 2 then .markerMissing m (occurrences m t)
      else .markerAmbiguous m (occurrences m t)) := by
  have hlength := hm.length_splitOn t
  unfold ofText
  split
  · next hpieces =>
    rw [hpieces] at hlength
    exact absurd (Nat.succ.inj hlength).symm h
  · dsimp only
    rw [hlength, Nat.add_sub_cancel]
    split <;> rfl

theorem exists_ofText_eq_ok (hm : Framed m) (h : occurrences m t = 2) :
    ∃ s, ofText m t = .ok s := by
  have hlength := hm.length_splitOn t
  rw [h, List.length_eq_three] at hlength
  obtain ⟨before, body, after, hpieces⟩ := hlength
  rw [ofText, hpieces]
  exact ⟨_, rfl⟩

theorem occurrences_of_ofText (hm : Framed m) (h : ofText m t = .ok s) : occurrences m t = 2 := by
  by_contra hne
  rw [ofText_eq_error hm hne] at h
  cases h

def framedBody (content : Text) : Text := "\n\n" ++ (content ++ "\n\n// End ")

theorem wordsAfter_framedBody {lead : Text} (hl : lead ≠ []) (hopen : Parts lead "\n\n")
    (hclose : Parts lead "\n\n// End ") (content : Text) :
    wordsAfter lead (framedBody content) = wordsAfter lead content := by
  have hnil : wordsAfter lead [] = [] := wordsAfter_of_absent (absent_nil hl)
  have hstart := hopen.wordsAfter_append (stopsWord_ofList (by decide)) hl []
    (content ++ "\n\n// End ")
  have hend := hclose.wordsAfter_append (stopsWord_ofList (by decide)) hl content []
  rw [List.nil_append, hnil, List.nil_append] at hstart
  rw [List.append_nil, hnil, List.append_nil] at hend
  rw [framedBody, hstart, hend]

theorem ofText_render (hm : Framed m) (h : ofText m t = .ok s) (hc : ¬ m <:+: content) :
    ofText m (s.render content) = .ok { s with body := framedBody content } := by
  obtain ⟨rfl, -, hbefore, -, hafter⟩ := (ofText_eq_ok_iff hm.ne_nil).1 h
  refine (ofText_eq_ok_iff hm.ne_nil).2 ⟨rfl, by simp [render, framedBody], hbefore, ?_, hafter⟩
  exact hm.borderless.absent hm.ne_nil
    (hm.opening.absent_left (hm.closing.absent_right hc))

/-- Reading a text finds the section of a marker that stands in it twice, and counts the marker
otherwise; what is set into the section is found there again. -/
structure Codec (m : Text) : Prop where
  missing (t : Text) : occurrences m t < 2 →
    ofText m t = .error (.markerMissing m (occurrences m t))
  ambiguous (t : Text) : 2 < occurrences m t →
    ofText m t = .error (.markerAmbiguous m (occurrences m t))
  cut (t : Text) : occurrences m t = 2 →
    ∃ s, ofText m t = .ok s ∧ s.marker = m ∧ t = s.before ++ (m ++ (s.body ++ (m ++ s.after)))
  reread (t content : Text) (s : MarkedSection) : ofText m t = .ok s → ¬ m <:+: content →
    ofText m (s.render content) = .ok { s with body := framedBody content }

theorem Framed.codec (hm : Framed m) : Codec m where
  missing t h := by rw [ofText_eq_error hm (by omega), if_pos h]
  ambiguous t h := by rw [ofText_eq_error hm (by omega), if_neg (by omega)]
  cut t h := by
    obtain ⟨s, hs⟩ := exists_ofText_eq_ok hm h
    obtain ⟨hmarker, ht, -⟩ := (ofText_eq_ok_iff hm.ne_nil).1 hs
    exact ⟨s, hs, hmarker, ht⟩
  reread _ _ _ := ofText_render hm

/-- Nothing differs but what stands between the two occurrences of a marker. -/
structure Reframed (m t t' : Text) : Prop where
  outside : ∃ before body body' after, t = before ++ (m ++ (body ++ (m ++ after))) ∧
    t' = before ++ (m ++ (body' ++ (m ++ after)))
  count : occurrences m t = 2
  count' : occurrences m t' = 2

theorem reframed_render (hm : Framed m) (h : ofText m t = .ok s) (hc : ¬ m <:+: content) :
    Reframed m t (s.render content) := by
  have hrender := ofText_render hm h hc
  obtain ⟨-, ht, -⟩ := (ofText_eq_ok_iff hm.ne_nil).1 h
  obtain ⟨-, ht', -⟩ := (ofText_eq_ok_iff hm.ne_nil).1 hrender
  exact ⟨⟨s.before, s.body, framedBody content, s.after, ht, ht'⟩, occurrences_of_ofText hm h,
    occurrences_of_ofText hm hrender⟩

theorem render_inj {content' : Text} :
    s.render content = s.render content' ↔ content = content' := by
  constructor
  · intro h
    simpa [render] using h
  · rintro rfl
    rfl

@[simp] theorem render_body (body : Text) :
    render { s with body } content = s.render content := rfl

variable {m' t' c content' : Text} {s' : MarkedSection}

structure Precedes (s s' : MarkedSection) (c : Text) : Prop where
  after : s.after = c ++ (s'.marker ++ (s'.body ++ (s'.marker ++ s'.after)))
  before : s'.before = s.before ++ (s.marker ++ (s.body ++ (s.marker ++ c)))

theorem precedes_of_append_eq {u : Text} (hp : Parts s.marker s'.marker)
    (hb : ¬ s'.marker <:+: s.body) (hu : s'.before = s.before ++ (s.marker ++ u))
    (he : s.body ++ (s.marker ++ s.after) =
      u ++ (s'.marker ++ (s'.body ++ (s'.marker ++ s'.after)))) : ∃ c, Precedes s s' c := by
  rcases hp.before_or_before he with ⟨c, rfl, hafter⟩ | ⟨v, hbody, -⟩
  · exact ⟨c, hafter, hu⟩
  · refine absurd ?_ hb
    rw [hbody]
    exact (List.prefix_append _ v).isInfix.trans (List.suffix_append u _).isInfix

theorem precedes_or_precedes (hp : Parts m m') (hs : ofText m t = .ok s)
    (hs' : ofText m' t = .ok s') (hb : ¬ m' <:+: s.body) (hb' : ¬ m <:+: s'.body) :
    (∃ c, Precedes s s' c) ∨ ∃ c, Precedes s' s c := by
  obtain ⟨rfl, ht, -⟩ := (ofText_eq_ok_iff hp.ne_nil).1 hs
  obtain ⟨rfl, ht', -⟩ := (ofText_eq_ok_iff hp.lit_ne_nil).1 hs'
  rcases hp.before_or_before (ht.symm.trans ht') with ⟨u, hu, he⟩ | ⟨u, hu, he⟩
  · exact .inl (precedes_of_append_eq hp hb hu he)
  · exact .inr (precedes_of_append_eq hp.symm hb' hu he)

theorem absent_framedBody (hm : Framed m) (hc : ¬ m <:+: content) : ¬ m <:+: framedBody content :=
  hm.opening.absent_left (hm.closing.absent_right hc)

theorem Precedes.ofText_render (h : Precedes s s' c) (hm' : Framed m') (hp : Parts m m')
    (hs : ofText m t = .ok s) (hs' : ofText m' t = .ok s') (hc : ¬ m' <:+: content) :
    ofText m' (s.render content) =
      .ok { s' with before := s.before ++ (m ++ (framedBody content ++ (m ++ c))) } := by
  obtain ⟨rfl, -⟩ := (ofText_eq_ok_iff hp.ne_nil).1 hs
  obtain ⟨rfl, -, hbefore, hbody, hafter⟩ := (ofText_eq_ok_iff hm'.ne_nil).1 hs'
  refine (ofText_eq_ok_iff hm'.ne_nil).2 ⟨rfl, ?_, ?_, hbody, hafter⟩
  · simp [render, framedBody, h.after]
  · rw [h.before] at hbefore
    simp only [List.append_assoc, hp.symm.infix_append_iff, not_or] at hbefore ⊢
    exact ⟨hbefore.1, absent_framedBody hm' hc, hbefore.2.2⟩

theorem Precedes.ofText_render' (h : Precedes s s' c) (hm : Framed m) (hp : Parts m m')
    (hs : ofText m t = .ok s) (hs' : ofText m' t = .ok s') (hc : ¬ m <:+: content) :
    ofText m (s'.render content) =
      .ok { s with after := c ++ (m' ++ (framedBody content ++ (m' ++ s'.after))) } := by
  obtain ⟨rfl, -, hbefore, hbody, hafter⟩ := (ofText_eq_ok_iff hm.ne_nil).1 hs
  obtain ⟨rfl, -⟩ := (ofText_eq_ok_iff hp.lit_ne_nil).1 hs'
  refine (ofText_eq_ok_iff hm.ne_nil).2 ⟨rfl, ?_, hbefore, hbody, ?_⟩
  · simp [render, framedBody, h.before]
  · rw [h.after] at hafter
    simp only [hp.infix_append_iff, not_or] at hafter ⊢
    exact ⟨hafter.1, absent_framedBody hm hc, hafter.2.2⟩

theorem exists_ofText_render (hm : Framed m) (hm' : Framed m') (hp : Parts m m')
    (hs : ofText m t = .ok s) (hs' : ofText m' t = .ok s')
    (hb : ¬ m' <:+: s.body) (hb' : ¬ m <:+: s'.body)
    (hc : ¬ m' <:+: content) (hc' : ¬ m <:+: content') :
    ∃ u u', ofText m' (s.render content) = .ok u' ∧ u'.body = s'.body ∧
      ofText m (s'.render content') = .ok u ∧ u.body = s.body ∧
      u'.render content' = u.render content := by
  rcases precedes_or_precedes hp hs hs' hb hb' with ⟨c, h⟩ | ⟨c, h⟩
  · refine ⟨_, _, h.ofText_render hm' hp hs hs' hc, rfl, h.ofText_render' hm hp hs hs' hc', rfl, ?_⟩
    obtain ⟨rfl, -⟩ := (ofText_eq_ok_iff hm.ne_nil).1 hs
    obtain ⟨rfl, -⟩ := (ofText_eq_ok_iff hm'.ne_nil).1 hs'
    simp [render, framedBody]
  · refine ⟨_, _, h.ofText_render' hm' hp.symm hs' hs hc, rfl,
      h.ofText_render hm hp.symm hs' hs hc', rfl, ?_⟩
    obtain ⟨rfl, -⟩ := (ofText_eq_ok_iff hm.ne_nil).1 hs
    obtain ⟨rfl, -⟩ := (ofText_eq_ok_iff hm'.ne_nil).1 hs'
    simp [render, framedBody]

end SpirvTables.MarkedSection
