import SpirvTables.Proofs.Fault
import SpirvTables.Proofs.OpRecord.Separate
import SpirvTables.Proofs.Text.Group
import SpirvTables.Proofs.Text.Lower

namespace SpirvTables

open Text Record

variable {block rest stem t : Text}

theorem opOf?_eq_some {found d : Text × Text} (h : opOf? found = some d) :
    found = (d.1 ++ "Op", d.2) ∧ d.1 ≠ [] := by
  obtain ⟨stem, hstem, rfl⟩ := Option.map_eq_some_iff.1 h
  obtain ⟨hword, hne⟩ := stem?_eq_some_iff.1 hstem
  exact ⟨Prod.ext hword rfl, hne⟩

theorem eq_of_filterMap_opOf? (t : Text)
    (h : (identifiersAfter definitionLead t).filterMap opOf? = [(stem, rest)]) :
    IsWord stem ∧ (∃ u, t = u ++ (definitionLead ++ rest)) ∧ definedOps rest = [] := by
  induction t using cut?_induction definitionLead_ne_nil with
  | absent t ht =>
    rw [identifiersAfter_of_absent ht] at h
    cases h
  | found t a b hcut ih =>
    have htab := eq_append_of_cut? hcut
    rw [identifiersAfter_of_cut? definitionLead_ne_nil hcut, List.filterMap_append] at h
    cases hw : ((startingWord b).map (·, b)).filterMap opOf? with
    | nil =>
      rw [hw, List.nil_append] at h
      obtain ⟨hs, ⟨u, hu⟩, hr⟩ := ih h
      exact ⟨hs, ⟨a ++ definitionLead ++ u, by rw [htab, hu]; simp only [List.append_assoc]⟩, hr⟩
    | cons d ds =>
      rw [hw] at h
      obtain ⟨rfl, htail⟩ := List.cons.inj h
      obtain ⟨wr, hwr, hd⟩ := List.mem_filterMap.1 (hw ▸ List.mem_cons_self)
      obtain ⟨w, hmem, rfl⟩ := List.mem_map.1 hwr
      obtain ⟨hfound, hne⟩ := opOf?_eq_some hd
      obtain ⟨rfl, rfl⟩ := Prod.mk.inj hfound
      have hlead : stem ++ "Op" = leadingWord b := List.mem_singleton.1 (List.mem_filter.1 hmem).1
      have hword : (stem ++ "Op").all Character.isWord := by
        rw [hlead]
        exact List.all_takeWhile ..
      have hall := List.all_eq_true.1 hword
      exact ⟨⟨hne, fun c hc => hall c (List.mem_append_left _ hc)⟩,
        ⟨a, by rw [htab, List.append_assoc]⟩,
        definedOps_eq_nil_iff.2 (List.append_eq_nil_iff.1 htail).2⟩

structure HeadParts (t args traits : Text) : Prop where
  args_infix : args <:+: t
  traits_infix : traits <:+: t
  closed : ∀ y, upToClose 0 (traits ++ ']' :: y) = some traits
  ops : definedOps t = [] → definedOps args = [] ∧ definedOps traits = []

theorem beforeLast_eq_of_mem {c : Char} (h : c ∈ t) : ∃ y, t = beforeLast c t ++ ([c] ++ y) := by
  have hrev := (List.takeWhile_append_dropWhile (p := (· != c)) (l := t.reverse)).symm
  rw [beforeLast, if_pos h]
  cases hd : t.reverse.dropWhile (· != c) with
  | nil =>
    have hall := List.dropWhile_eq_nil_iff.1 hd c (List.mem_reverse.2 h)
    simp at hall
  | cons d ds =>
    have hdc : d = c := by
      have := List.head?_dropWhile_not (· != c) t.reverse
      rw [hd] at this
      simpa using this
    rw [hd, hdc] at hrev
    refine ⟨(t.reverse.takeWhile (· != c)).reverse, ?_⟩
    simpa using congrArg List.reverse hrev

theorem headParts_eq {args traits : Text} (h : Kept.headParts t = (args, traits)) :
    HeadParts t args traits := by
  unfold Kept.headParts bracketed? at h
  have hopen : Neutral ['['] := neutral_cons (by decide)
  have hclose : Neutral [']'] := neutral_cons (by decide)
  have hangle : Neutral ['>'] := neutral_cons (by decide)
  -- Without a list of traits, the arguments are all that stands before the last angle bracket.
  have hplain (h : (beforeLast '>' t, ([] : Text)) = (args, traits)) : HeadParts t args traits := by
    obtain ⟨rfl, rfl⟩ := Prod.mk.inj h
    by_cases hm : '>' ∈ t
    · obtain ⟨y, hy⟩ := beforeLast_eq_of_mem hm
      refine ⟨⟨[], _, hy.symm⟩, List.nil_infix, fun y => rfl, fun ht => ⟨?_, definedOps_nil⟩⟩
      rw [hy, hangle.definedOps_append] at ht
      exact (List.append_eq_nil_iff.1 ht).1
    · rw [beforeLast, if_neg hm]
      exact ⟨List.infix_rfl, List.nil_infix, fun y => rfl, fun ht => ⟨ht, definedOps_nil⟩⟩
  cases hcut : cut? ['['] t with
  | none =>
    rw [hcut] at h
    exact hplain h
  | some br =>
    obtain ⟨before, rest⟩ := br
    rw [hcut] at h
    simp only [Option.bind_eq_bind, Option.bind_some] at h
    cases hup : upToClose 0 rest with
    | none =>
      rw [hup] at h
      exact hplain h
    | some inner =>
      rw [hup] at h
      obtain ⟨rfl, rfl⟩ := Prod.mk.inj h
      obtain ⟨y, rfl⟩ := upToClose_eq_some hup
      have ht : t = before ++ (['['] ++ (inner ++ ([']'] ++ y))) := by
        rw [eq_append_of_cut? hcut]
        simp
      refine ⟨⟨[], _, ht.symm⟩, ⟨before ++ ['['], [']'] ++ y, by rw [ht]; simp⟩,
        upToClose_append hup, fun hops => ?_⟩
      rw [ht, hopen.definedOps_append, hclose.definedOps_append] at hops
      obtain ⟨hbefore, hrest⟩ := List.append_eq_nil_iff.1 hops
      exact ⟨hbefore, (List.append_eq_nil_iff.1 hrest).1⟩

theorem exists_of_append_eq {c : Char} {lead x y : Text} (hc : c ∉ lead)
    (h : lead ++ rest = x ++ (c :: y)) : ∃ u, rest = u ++ (c :: y) := by
  rcases List.append_eq_append_iff.1 h with ⟨u, -, hu⟩ | ⟨u, hlead, hu⟩
  · exact ⟨u, hu⟩
  · cases u with
    | nil => exact ⟨[], hu.symm⟩
    | cons d u =>
      obtain rfl : c = d := (List.cons.inj hu).1
      refine absurd ?_ hc
      rw [hlead]
      exact List.mem_append_right _ List.mem_cons_self

theorem exists_headParts_of_readHead {args traits : Text}
    (h : Kept.readHead stem rest = .ok (args, traits)) :
    ∃ head after pre params name afterName,
      cut? "\x7b\n" (definitionLead ++ rest) = some (head, after) ∧
      cut? "<" head = some (pre, params) ∧ delimited "\"" "\"" params = .ok (name, afterName) ∧
      Kept.headParts afterName = (args, traits) := by
  unfold Kept.readHead at h
  dsimp only at h
  split at h
  · next head after hhead =>
    split at h
    · next pre params hangle =>
      obtain ⟨⟨name, afterName⟩, hname, h⟩ := bind_eq_ok.1 h
      exact ⟨head, after, pre, params, name, afterName, hhead, hangle, hname, Except.ok.inj h⟩
    · cases h
  · cases h

theorem readHead_eq_ok {args traits : Text} (h : Kept.readHead stem rest = .ok (args, traits)) :
    ∃ u params after, rest = u ++ ("<" ++ (params ++ ("\x7b\n" ++ after))) ∧
      ¬ ("\x7b\n" : Text) <:+: params ∧ HeadParts params args traits := by
  have hquote : Neutral "\"" := neutral_ofList (by decide)
  obtain ⟨head, after, pre, params, name, afterName, hhead, hangle, hname, hgive⟩ :=
    exists_headParts_of_readHead h
  have hparts := headParts_eq hgive
  have hhead' := eq_append_of_cut? hhead
  have hangle' := eq_append_of_cut? hangle
  have hrest : definitionLead ++ rest = pre ++ ("<" ++ (params ++ ("\x7b\n" ++ after))) := by
    rw [hhead', hangle']
    simp only [List.append_assoc]
  obtain ⟨u, hu⟩ := exists_of_append_eq (notMem_ofList (by decide)) hrest
  refine ⟨u, params, after, hu, ?_, ?_⟩
  · intro hp
    apply absent_of_cut? ne_nil_ofList hhead
    apply hp.trans
    rw [hangle']
    exact (List.suffix_append _ params).isInfix.trans (List.prefix_append _ _).isInfix
  · rcases delimited_eq_ok ne_nil_ofList ne_nil_ofList hname with
      ⟨-, rfl⟩ | ⟨x, inner, -, hx, -⟩
    · exact hparts
    · have hin : afterName <:+: params :=
        ⟨x ++ ("\"" ++ (inner ++ "\"")), [], by
          rw [hx]
          simp only [List.append_assoc, List.append_nil]⟩
      refine ⟨hparts.args_infix.trans hin, hparts.traits_infix.trans hin, hparts.closed,
        fun hops => hparts.ops ?_⟩
      rw [hx, hquote.definedOps_append, hquote.definedOps_append] at hops
      exact (List.append_eq_nil_iff.1 (List.append_eq_nil_iff.1 hops).2).2

structure Kept.IsRead (k : Kept) : Prop where
  opname : IsOpname k.opname
  ops : ∀ field ∈ [k.categoryArgs, k.traits], ∀ t ∈ field, definedOps t = []
  brace : ∀ field ∈ [k.categoryArgs, k.traits], ∀ t ∈ field, ¬ ("\x7b\n" : Text) <:+: t
  closed : ∀ t ∈ k.traits, ∀ y, upToClose 0 (t ++ ']' :: y) = some t
  assembly : ∀ t ∈ k.assembly, ¬ assemblyStop <:+: t
  arguments : ∃ a, k.arguments = some a ∧ ¬ listStop <:+: a ∧ ¬ BlockSection.separator <:+: a
  results : ∀ t ∈ k.results, ¬ listStop <:+: t
  extras : ∀ t ∈ k.extras, IsExtras t
  whole : k.Whole

theorem delimited_getD {start stop : Text} {found : Option Text} (hs : start ≠ []) (he : stop ≠ [])
    (h : delimited start stop t = .ok (found, rest)) :
    ¬ stop <:+: found.getD [] ∧ found.getD [] <:+: t ∧ rest <:+: t := by
  rcases delimited_eq_ok hs he h with ⟨rfl, rfl⟩ | ⟨x, inner, rfl, ht, -, hi⟩
  · exact ⟨absent_nil he, List.nil_infix, List.infix_rfl⟩
  · refine ⟨fun hstop => hi (hstop.trans (List.prefix_append _ _).isInfix), ?_, ?_⟩
    · exact ⟨x ++ start, stop ++ rest, by rw [ht]; simp⟩
    · exact ⟨x ++ (start ++ (inner ++ stop)), [], by rw [ht]; simp⟩

theorem isRead_of_ofBlock {k : Kept} (h : Kept.ofBlock block = .ok k)
    (hb : ¬ BlockSection.separator <:+: block) : k.IsRead := by
  have hin {x : Text} (hx : x <:+: block) : ¬ BlockSection.separator <:+: x :=
    fun hs => hb (hs.trans hx)
  obtain ⟨stem, definition, args, traits, assembly, rest₁, arguments, rest₂, results, rest₃,
    hdefinition, hhead, hassembly, harguments, hresults, rfl⟩ := ofBlock_eq_ok h
  obtain ⟨hstem, ⟨u, hu⟩, hops⟩ :=
    eq_of_filterMap_opOf? block (definitionOf_eq_ok_iff.1 hdefinition)
  obtain ⟨v, params, after, hv, hbrace, hparts⟩ := readHead_eq_ok hhead
  have hparams : params <:+: block :=
    ⟨u ++ (definitionLead ++ (v ++ "<")), "\x7b\n" ++ after, by
      rw [hu, hv]
      simp only [List.append_assoc]⟩
  have hangle : Neutral "<" := neutral_ofList (by decide)
  have hopen : Neutral "\x7b\n" := neutral_ofList (by decide)
  rw [hv, hangle.definedOps_append, hopen.definedOps_append] at hops
  obtain ⟨hargs, htraits⟩ :=
    hparts.ops (List.append_eq_nil_iff.1 (List.append_eq_nil_iff.1 hops).2).1
  have hmarks := marks_ne_nil
  simp only [marks, List.forall_mem_cons] at hmarks
  obtain ⟨hform, hformStop, hargumentsStart, hresultsStart, hlistStop, -⟩ := hmarks
  obtain ⟨hastop, -, hrest₁⟩ := delimited_getD hform hformStop hassembly
  obtain ⟨histop, hiin, hrest₂⟩ := delimited_getD hargumentsStart hlistStop harguments
  obtain ⟨hostop, hoin, hrest₃⟩ := delimited_getD hresultsStart hlistStop hresults
  -- The newline before an assembly form is the end of the line that announces it.
  have hanewline : ¬ BlockSection.separator <:+: '\n' :: assembly.getD [] := by
    rcases delimited_eq_ok hform hformStop hassembly with
      ⟨rfl, -⟩ | ⟨x, inner, rfl, hx, -⟩
    · decide +kernel
    · apply hin
      have hstart : assemblyStart = "### Custom assembly form" ++ ['\n'] := by decide +kernel
      exact ⟨x ++ "### Custom assembly form", assemblyStop ++ rest₁, by
        rw [hx, hstart]
        simp⟩
  constructor
  · exact ⟨stem, hstem, rfl⟩
  · simp only [List.forall_mem_cons, Kept.forall_mem_some]
    exact ⟨hargs, htraits, by simp⟩
  · simp only [List.forall_mem_cons, Kept.forall_mem_some]
    exact ⟨fun hx => hbrace (hx.trans hparts.args_infix),
      fun hx => hbrace (hx.trans hparts.traits_infix), by simp⟩
  · exact Kept.forall_mem_some.2 hparts.closed
  · exact Kept.forall_mem_some.2 hastop
  · exact ⟨_, rfl, histop, hin (hiin.trans hrest₁)⟩
  · exact Kept.forall_mem_some.2 hostop
  · exact Kept.forall_mem_some.2 (isExtras_extrasOf _)
  · constructor
    · exact Kept.forall_mem_some.2 (hin (hparts.args_infix.trans hparams))
    · exact Kept.forall_mem_some.2 (hin (hparts.traits_infix.trans hparams))
    · exact Kept.forall_mem_some.2 hanewline
    · exact Kept.forall_mem_some.2 (hin (hoin.trans (hrest₂.trans hrest₁)))
    · exact Kept.forall_mem_some.2
        (absent_newline_extrasOf (hin (hrest₃.trans (hrest₂.trans hrest₁))))

/-- The parts behind the head of a record define no op. -/
structure Kept.DefinesNone (k : Kept) : Prop where
  assembly : ∀ t ∈ k.assembly, definedOps t = []
  arguments : ∀ t ∈ k.arguments, definedOps t = []
  results : ∀ t ∈ k.results, definedOps t = []
  extras : ∀ t ∈ k.extras, definedOps t = []

instance (k : Kept) : Decidable k.DefinesNone :=
  decidable_of_iff (_ ∧ _ ∧ _ ∧ _) ⟨fun ⟨a, i, o, e⟩ => ⟨a, i, o, e⟩,
    fun h => ⟨h.assembly, h.arguments, h.results, h.extras⟩⟩

theorem exists_definedOps_of_ofBlock {k : Kept} (h : Kept.ofBlock block = .ok k) :
    ∃ stem, definedOps block = [stem] := by
  rw [ofBlock_eq] at h
  obtain ⟨d, hd, -⟩ := bind_eq_ok.1 h
  exact ⟨d.1, by rw [definedOps_eq_map, definitionOf_eq_ok_iff.1 hd, List.map_singleton]⟩

theorem delimited_of_absent {start stop : Text} (h : ¬ start <:+: t) :
    delimited start stop t = .ok (none, t) := by
  rw [delimited, cut?_eq_none_iff.2 h]
  rfl

theorem Kept.not_definesNone_of_bare {k : Kept} (h : Kept.ofBlock block = .ok k)
    (hassembly : ¬ assemblyStart <:+: block) (harguments : ¬ argumentsStart <:+: block)
    (hresults : ¬ resultsStart <:+: block) : ¬ k.DefinesNone := by
  obtain ⟨op, hop⟩ := exists_definedOps_of_ofBlock h
  rw [ofBlock_eq] at h
  obtain ⟨⟨stem, definition⟩, -, h⟩ := bind_eq_ok.1 h
  obtain ⟨⟨args, traits⟩, -, h⟩ := bind_eq_ok.1 h
  simp only [delimited_of_absent hassembly, delimited_of_absent harguments,
    delimited_of_absent hresults, bind, Except.bind] at h
  obtain rfl := Except.ok.inj h
  intro hnone
  have hextras := hnone.extras _ rfl
  rw [definedOps_extrasOf, hop] at hextras
  cases hextras

theorem definedOps_of_delimited {start stop : Text} {found : Option Text}
    (hs : Neutral start) (he : Neutral stop)
    (h : delimited start stop t = .ok (found, rest)) (ht : definedOps t = []) :
    definedOps (found.getD []) = [] ∧ definedOps rest = [] := by
  rcases delimited_eq_ok hs.parts.lit_ne_nil he.parts.lit_ne_nil h with
    ⟨rfl, rfl⟩ | ⟨x, inner, rfl, rfl, -⟩
  · exact ⟨definedOps_nil, ht⟩
  · rw [hs.definedOps_append, he.definedOps_append] at ht
    exact List.append_eq_nil_iff.1 (List.append_eq_nil_iff.1 ht).2

theorem Kept.definesNone_of_assembly {k : Kept} {x y : Text}
    (h : Kept.ofBlock (x ++ (assemblyStart ++ y)) = .ok k) (hx : ¬ assemblyStart <:+: x)
    (hops : definedOps x ≠ []) : k.DefinesNone := by
  have hy : definedOps y = [] := by
    obtain ⟨op, hop⟩ := exists_definedOps_of_ofBlock h
    have hform : Neutral assemblyStart := neutral_marks _ (by simp [marks])
    rw [hform.definedOps_append, List.append_eq_singleton_iff] at hop
    rcases hop with ⟨hnone, -⟩ | ⟨-, hnone⟩
    · exact absurd hnone hops
    · exact hnone
  have hcut : cut? assemblyStart (x ++ (assemblyStart ++ y)) = some (x, y) :=
    Borderless.cut?_append (by decide +kernel) ne_nil_ofList hx
  obtain ⟨stem, definition, args, traits, assembly, rest₁, arguments, rest₂, results, rest₃, -, -,
    hassembly, harguments, hresults, rfl⟩ := ofBlock_eq_ok h
  have hmarks := neutral_marks
  simp only [marks, List.forall_mem_cons] at hmarks
  obtain ⟨-, hformStop, hargumentsStart, hresultsStart, hlistStop, -⟩ := hmarks
  have hassembly' : definedOps (assembly.getD []) = [] ∧ definedOps rest₁ = [] := by
    rw [delimited, hcut] at hassembly
    dsimp only at hassembly
    split at hassembly
    · cases hassembly
    · next inner after hinner =>
      obtain ⟨rfl, rfl⟩ := Prod.mk.inj (Except.ok.inj hassembly)
      rw [eq_append_of_cut? hinner, List.append_assoc,
        hformStop.definedOps_append] at hy
      exact List.append_eq_nil_iff.1 hy
  have harguments' := definedOps_of_delimited hargumentsStart hlistStop harguments
    hassembly'.2
  have hresults' := definedOps_of_delimited hresultsStart hlistStop hresults
    harguments'.2
  constructor
  · exact Kept.forall_mem_some.2 hassembly'.1
  · exact Kept.forall_mem_some.2 harguments'.1
  · exact Kept.forall_mem_some.2 hresults'.1
  · exact Kept.forall_mem_some.2 ((definedOps_extrasOf _).trans hresults'.2)

variable {k : Kept}

/-- The text behind the name, in the head of the record that a block defines. -/
inductive BehindName (block : Text) : Text → Prop
  | head {stem definition head body lead params t : Text} {name : Option Text} :
    Kept.definitionOf block = .ok (stem, definition) →
    cut? "\x7b\n" (definitionLead ++ definition) = some (head, body) →
    cut? "<" head = some (lead, params) → delimited "\"" "\"" params = .ok (name, t) →
    BehindName block t

theorem exists_behindName (h : Kept.ofBlock block = .ok k) :
    ∃ t args traits, BehindName block t ∧ Kept.headParts t = (args, traits) ∧
      k.categoryArgs = some args ∧ k.traits = some traits := by
  obtain ⟨stem, definition, args, traits, -, -, -, -, -, -, hdefinition, hhead, -, -, -, rfl⟩ :=
    Record.ofBlock_eq_ok h
  obtain ⟨head, body, lead, params, name, t, hbrace, hangle, hname, hparts⟩ :=
    exists_headParts_of_readHead hhead
  exact ⟨t, args, traits, .head hdefinition hbrace hangle hname, hparts, rfl, rfl⟩

/-- A search gives the first group in brackets and nothing else, and what is read from a block are
traits whose brackets balance: those in the first group behind the name of the record, if there is
one, and then no bracket opens in the arguments of its category. -/
theorem ofBlock_reads_group :
    (∀ t, FindsGroup t (bracketed? t)) ∧
      ∀ block k, Kept.ofBlock block = .ok k →
        ∃ t args traits, BehindName block t ∧ k.categoryArgs = some args ∧
          k.traits = some traits ∧ BracketBalanced traits ∧
          ∀ found, bracketed? t = some found → found = (args, traits) ∧ '[' ∉ args := by
  refine ⟨findsGroup_bracketed?, fun block k h => ?_⟩
  obtain ⟨t, args, traits, ht, hparts, hargs, htraits⟩ := exists_behindName h
  refine ⟨t, args, traits, ht, hargs, htraits, ?_, ?_⟩
  · exact bracketBalanced_of_upToClose ((headParts_eq hparts).closed [])
  · rintro ⟨b, inside⟩ hfound
    rw [Kept.headParts, hfound] at hparts
    obtain ⟨rfl, rfl⟩ := Prod.mk.inj hparts
    exact ⟨rfl, notMem_of_bracketed? hfound⟩

def nestedArgs : Text := ", A, "

def nestedTraits : Text := "Same<[\"a\"]>"

def nestedParams : Text := ", A, [Same<[\"a\"]>]>]> "

def nestedBlock : Text :=
  "def SPV_AddOp : SPV_Op<\"Add\", A, [Same<[\"a\"]>]>]> \x7b\n  let results = (outs);\n\x7d\n"

def nestedKept : Kept :=
  ⟨"OpAdd", some nestedArgs, some nestedTraits, some [], some [], some [], some []⟩

theorem ofBlock_reads_group_nested :
    bracketed? nestedParams = some (nestedArgs, nestedTraits) ∧
      (∃ opening closing, FirstGroup nestedParams opening closing ∧
        nestedArgs = nestedParams.take opening ∧
        nestedTraits = nestedParams.extract (opening + 1) closing) ∧
      Kept.ofBlock nestedBlock = .ok nestedKept ∧
      (∃ t, BehindName nestedBlock t) ∧ BracketBalanced nestedTraits := by
  obtain ⟨hsearch, hread⟩ := ofBlock_reads_group
  have hfound : bracketed? nestedParams = some (nestedArgs, nestedTraits) := by decide +kernel
  have hblock : Kept.ofBlock nestedBlock = .ok nestedKept :=
    toOption_eq_some_iff.1 (by decide +kernel)
  obtain ⟨t, args, traits, ht, -, htraits, hbalanced, -⟩ := hread _ _ hblock
  obtain rfl := Option.some.inj htraits
  exact ⟨hfound, ((hsearch _).eq_some_iff _ _).1 hfound, hblock, ⟨t, ht⟩, hbalanced⟩

end SpirvTables
