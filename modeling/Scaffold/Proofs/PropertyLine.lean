import Scaffold.Declaration.Lookup
import Scaffold.Proofs.ClassReading
import Scaffold.Template.Accessor
/-!
A property line that is written plainly is read as it is written: its name, its types in order, and
whether they may be missing. Accessors spell the same types again.
-/
namespace Scaffold

open Php Text

/-! Blanks around a line, and its semicolon -/

theorem isBlank_of_namePart {c : Char} (hc : c.isAlphanum = true ∨ c = '_') : isBlank c = false := by
  rcases hc with hc | rfl
  · have hval : c.val.toNat = c.toNat := rfl
    have hrange : (48 ≤ c.toNat ∧ c.toNat ≤ 57) ∨ (65 ≤ c.toNat ∧ c.toNat ≤ 90) ∨
        (97 ≤ c.toNat ∧ c.toNat ≤ 122) := by
      unfold Char.isAlphanum Char.isAlpha Char.isUpper Char.isLower Char.isDigit at hc
      simp [UInt32.le_iff_toNat_le] at hc
      omega
    simp [isBlank]
    omega
  · decide

theorem trim_eq {s body : String} {before after : List Char}
    (hs : s.toList = before ++ (body.toList ++ after)) (hbefore : ∀ c ∈ before, isBlank c = true)
    (hafter : ∀ c ∈ after, isBlank c = true) (hfirst : ∀ c ∈ body.toList.head?, isBlank c = false)
    (hlast : ∀ c ∈ body.toList.getLast?, isBlank c = false) : trim s = body := by
  have hdrop {a b : List Char} (ha : ∀ c ∈ a, isBlank c = true)
      (hb : ∀ c ∈ b.head?, isBlank c = false) : (a ++ b).dropWhile isBlank = b :=
    (takeWhile_append_of_stop ha hb).2
  have hend : dropBlanksEnd (body.toList ++ after) = body.toList := by
    rw [dropBlanksEnd, List.reverse_append, hdrop, List.reverse_reverse]
    · exact fun c hc => hafter c (List.mem_reverse.mp hc)
    · simpa using hlast
  apply String.toList_inj.mp
  rw [trim, String.toList_ofList, hs, dropBlanks]
  by_cases hbody : body.toList = []
  · have hblanks : ∀ c ∈ before ++ after, isBlank c = true := by
      intro c hc
      exact (List.mem_append.mp hc).elim (hbefore c) (hafter c)
    have hnil := hdrop hblanks (b := []) (by simp)
    rw [List.append_nil] at hnil
    rw [hbody, List.nil_append, hnil]
    rfl
  · rw [hdrop hbefore, hend]
    intro c hc
    obtain ⟨d, ds, hcons⟩ := List.exists_cons_of_ne_nil hbody
    rw [hcons] at hc hfirst
    exact hfirst c hc

theorem trim_append {blanks body : String} (hblanks : ∀ c ∈ blanks.toList, isBlank c = true)
    (hfirst : ∀ c ∈ body.toList.head?, isBlank c = false)
    (hlast : ∀ c ∈ body.toList.getLast?, isBlank c = false) : trim (blanks ++ body) = body :=
  trim_eq (by simp) hblanks (List.forall_mem_nil _) hfirst hlast

theorem completeMember_content {s : Site} {indent member ending : String} {first last : Char}
    (htext : s.text = indent ++ (member ++ ending))
    (hindent : ∀ c ∈ indent.toList, c = ' ' ∨ c = '\t')
    (hfirst : member.toList.head? = some first) (hblank : isBlank first = false)
    (hlast : member.toList.getLast? = some last) (hpart : last.isAlphanum = true ∨ last = '_')
    (hsemicolon : ';' ∉ member.toList) (hending : ending = ";" ∨ ending = "") :
    completeMember s.content = member ++ ";" := by
  have hblanks : ∀ c ∈ indent.toList, isBlank c = true := by
    intro c hc
    rcases hindent c hc with rfl | rfl <;> decide
  have hhead : ∀ c ∈ (member ++ ending).toList.head?, isBlank c = false := by
    intro c hc
    rw [String.toList_append, List.head?_append, hfirst] at hc
    cases hc
    exact hblank
  have hend : ∀ c ∈ (member ++ ending).toList.getLast?, isBlank c = false := by
    intro c hc
    rcases hending with rfl | rfl
    · simp at hc
      subst hc
      decide
    · rw [String.append_empty, hlast] at hc
      cases hc
      exact isBlank_of_namePart hpart
  have hcontent : s.content = member ++ ending := by
    rw [Site.content, htext]
    exact trim_append hblanks hhead hend
  have htrim : trim (member ++ ending) = member ++ ending := by
    rw [← String.empty_append (s := member ++ ending)]
    exact trim_append (by simp) (by simpa using hhead) (by simpa using hend)
  unfold completeMember
  rw [hcontent, htrim]
  rcases hending with rfl | rfl
  · simp
  · have hcontains : (member ++ "").toList.contains ';' = false := by simpa using hsemicolon
    simp only [hcontains]
    rw [if_neg Bool.false_ne_true, String.append_empty, hlast]
    split
    · next heq =>
        cases heq
        exact absurd hpart (by decide)
    · next heq =>
        cases heq
        exact absurd hpart (by decide)
    · next heq =>
        cases heq
        exact absurd hpart (by decide)
    · rfl

/-! The class around a member -/

theorem statements_memberSource {member : String} {w : Word} {ws : List Word} {m : Member}
    (hw : w.1 ≠ .mark .closeBrace)
    (hscans : ∀ {cs ws'}, Scans cs ws' → Scans (member.toList ++ cs) (w :: ws ++ ws'))
    (htakes : ∀ n, Reader.Takes 0 (Grammar.member (Rules.upTo (n + 2))) (w :: ws)
      (some (.mark .closeBrace)) (· = m)) :
    ∃ start stop, (Program.parse (memberSource member)).statements =
      [.other, .classLike (.mk .plain "Foo" [m] start stop)] := by
  have hsource : (memberSource member).toList = '<' :: '?' :: 'p' :: 'h' :: 'p' :: ([' ', '\n', ' '] ++
      ("class".toList ++ ' ' :: ("Foo".toList ++ ' ' :: '\x7b' :: ([' ', '\n', ' '] ++
        (member.toList ++ ([' ', '\n', ' '] ++ '\x7d' :: [' ', '\n'])))))) := by
    unfold memberSource
    simp
  exact statements_class hsource (by decide) (.inl rfl) (by decide) (by decide) hw hscans htakes

/-! Properties -/

structure VisibilityWord (visibility : String) (v : Keyword) : Prop where
  identifier : IsIdentifier visibility.toList
  kind : wordKind visibility.toList = .keyword v
  visible : isVisibility v = true

theorem exists_visibilityWord {visibility : String} (h : visibility ∈ Line.visibilities) :
    ∃ v, VisibilityWord visibility v := by
  simp only [Line.visibilities, List.mem_cons, List.not_mem_nil, or_false] at h
  rcases h with rfl | rfl | rfl
  · exact ⟨.public_, by decide, by decide, rfl⟩
  · exact ⟨.protected_, by decide, by decide, rfl⟩
  · exact ⟨.private_, by decide, by decide, rfl⟩

theorem PropertySignature.ofSite_member {s : Site} {member x : String} {h? : Option Hint} {w : Word}
    {ws : List Word} (hcomplete : completeMember s.content = member)
    (hw : w.1 ≠ .mark .closeBrace)
    (hscans : ∀ {cs ws'}, Scans cs ws' → Scans (member.toList ++ cs) (w :: ws ++ ws'))
    (htakes : ∀ n, Reader.Takes 0 (Grammar.member (Rules.upTo (n + 2))) (w :: ws)
      (some (.mark .closeBrace)) (· = .property x h?)) :
    PropertySignature.ofSite s = .ok ⟨x, UnionType.ofHint? h?⟩ := by
  obtain ⟨start, stop, hstatements⟩ := statements_memberSource hw hscans htakes
  unfold PropertySignature.ofSite Program.locate
  dsimp only
  rw [hcomplete, hstatements]
  rfl

theorem VisibilityWord.scans {visibility tail : String} {v : Keyword} (hv : VisibilityWord visibility v)
    {cs : List Char} {ws : List Word} (h : Scans (tail.toList ++ cs) ws) :
    Scans ((visibility ++ " " ++ tail).toList ++ cs) ((.keyword v, visibility) :: ws) := by
  have hhalt : Kind.keyword v ≠ .keyword .haltCompiler := by
    intro hk
    cases hk
    exact absurd hv.visible (by decide)
  have hline := scans_word hv.identifier hv.kind hhalt (by decide) (.inr (by decide))
    (scans_blank (c := ' ') rfl h)
  simpa using hline

theorem PropertySignature.ofSite_property {s : Site} {visibility tail x : String} {h? : Option Hint}
    {ks : List (Keyword × String)} {ws : List Word} (hvisibility : visibility ∈ Line.visibilities)
    (hcomplete : completeMember s.content = visibility ++ " " ++ tail)
    (hw : ∀ h ∈ h?, h.Written)
    (hstatic : ∀ h ∈ h?, firstKind h.words none ≠ some (.keyword .static))
    (hks : ∀ k ∈ ks, k.1.isModifier = true)
    (hscans : ∀ {cs ws'}, Scans cs ws' → Scans (tail.toList ++ cs)
      (modifierWords ks ++ (wordsOf h? ++ variableWord x :: ws) ++ ws'))
    (hproperty : ∀ n, Reader.Takes 0 (Grammar.property (Rules.upTo (n + 2)))
      (wordsOf h? ++ variableWord x :: ws) (some (.mark .closeBrace)) (· = .property x h?)) :
    PropertySignature.ofSite s = .ok ⟨x, UnionType.ofHint? h?⟩ := by
  obtain ⟨v, hv⟩ := exists_visibilityWord hvisibility
  refine PropertySignature.ofSite_member hcomplete (by simp) (fun hws => hv.scans (hscans hws)) ?_
  intro n
  exact takes_member_property _ hw hstatic hv.visible hks (hproperty n) visibility

section

variable {s : Site} {indent visibility x ending : String}
  (hindent : ∀ c ∈ indent.toList, c = ' ' ∨ c = '\t') (hvisibility : visibility ∈ Line.visibilities)
  (hx : IsIdentifier x.toList) (hending : ending = ";" ∨ ending = "")

include hindent hvisibility hx hending

theorem completeMember_line {type : String} (htype : ';' ∉ type.toList)
    (htext : s.text = indent ++ (visibility ++ " " ++ type ++ "$" ++ x ++ ending)) :
    completeMember s.content = visibility ++ " " ++ type ++ "$" ++ x ++ ";" := by
  obtain ⟨v, hv⟩ := exists_visibilityWord hvisibility
  obtain ⟨first, more, hmore⟩ := List.exists_cons_of_ne_nil hv.identifier.2.1
  have hfirst : first ∈ visibility.toList := by simp [hmore]
  obtain ⟨last, hlast⟩ := Option.ne_none_iff_exists'.1
    (fun hnone => hx.2.1 (List.getLast?_eq_none_iff.1 hnone))
  have hpart : last ∈ x.toList := List.mem_of_getLast? hlast
  have hsemicolon := hx.not_mem (d := ';') (by decide)
  have hsemicolon' := hv.identifier.not_mem (d := ';') (by decide)
  refine completeMember_content htext hindent ?_ (isBlank_of_namePart (hv.identifier.2.2 _ hfirst))
    ?_ (hx.2.2 _ hpart) ?_ hending
  · simp [hmore]
  · rw [String.toList_append, List.getLast?_append, hlast]
    rfl
  · simp [hsemicolon, hsemicolon', htype]

theorem PropertySignature.ofSite_modified {h? : Option Hint} (hw : ∀ h ∈ h?, h.Written)
    (hstatic : ∀ h ∈ h?, firstKind h.words none ≠ some (.keyword .static)) {type : String}
    (htype : ';' ∉ type.toList) {ks : List (Keyword × String)}
    (hks : ∀ k ∈ ks, k.1.isModifier = true)
    (hscans : ∀ {cs ws}, Scans cs ws → Scans (type.toList ++ '$' :: (x.toList ++ ';' :: cs))
      (modifierWords ks ++ (wordsOf h? ++ variableWord x :: semicolonWord :: ws)))
    (htext : s.text = indent ++ (visibility ++ " " ++ type ++ "$" ++ x ++ ending)) :
    PropertySignature.ofSite s = .ok ⟨x, UnionType.ofHint? h?⟩ := by
  have hcomplete := completeMember_line hindent hvisibility hx hending htype htext
  have hmember : visibility ++ " " ++ type ++ "$" ++ x ++ ";" =
      visibility ++ " " ++ (type ++ "$" ++ x ++ ";") := by
    simp only [String.append_assoc]
  have hproperty (n : Nat) : Reader.Takes 0 (Grammar.property (Rules.upTo (n + 2)))
      (wordsOf h? ++ [variableWord x, semicolonWord]) (some (.mark .closeBrace))
      (· = .property x h?) :=
    takes_property_plain _ hw x
  refine ofSite_property hvisibility (hcomplete.trans hmember) hw hstatic hks ?_ hproperty
  intro cs ws hws
  simpa using hscans hws

theorem PropertySignature.ofSite_typed {h? : Option Hint} (hw : ∀ h ∈ h?, h.Written)
    (hstatic : ∀ h ∈ h?, firstKind h.words none ≠ some (.keyword .static))
    (htext : s.text = indent ++ (visibility ++ " " ++ typeText h? ++ "$" ++ x ++ ending)) :
    PropertySignature.ofSite s = .ok ⟨x, UnionType.ofHint? h?⟩ := by
  have htype : ';' ∉ (typeText h?).toList := by
    cases h? with
    | none => simp [typeText]
    | some h =>
        have hh := (hw h rfl).not_mem (d := ';') (by decide) (by decide) (by decide)
        simp [typeText, hh]
  refine ofSite_modified hindent hvisibility hx hending hw hstatic htype (List.forall_mem_nil _) ?_
    htext
  intro cs ws hws
  exact scans_typed hw hx (by simp; decide) (scans_mark ofCode_semicolon hws)

/-- The word `static` in front of the name is a modifier and no type. -/
theorem PropertySignature.ofSite_static {t : String} (ht : IsTypeName t)
    (hk : wordKind t.toList = .keyword .static)
    (htext : s.text = indent ++ (visibility ++ " " ++ (t ++ " ") ++ "$" ++ x ++ ending)) :
    PropertySignature.ofSite s = .ok ⟨x, {}⟩ := by
  have hsemicolon := ht.1.not_mem (d := ';') (by decide)
  have hmodifier : ∀ k ∈ [(Keyword.static, t)], k.1.isModifier = true := by simp; decide
  have hnone : ∀ h ∈ (none : Option Hint), h.Written := nofun
  refine ofSite_modified hindent hvisibility hx hending hnone nofun (by simp [hsemicolon]) hmodifier
    ?_ htext
  intro cs ws hws
  have hvariable := scans_variable hx (by simp; decide) (scans_mark ofCode_semicolon hws)
  have hscans := Hint.scans_typeName ht (.inl rfl) (scans_blank (c := ' ') rfl hvariable)
  have hchars : (t ++ " ").toList ++ '$' :: (x.toList ++ ';' :: cs) =
      t.toList ++ ' ' :: '$' :: (x.toList ++ ';' :: cs) := by simp
  rw [hk] at hscans
  rw [hchars]
  exact hscans

end

/-! Accessors -/

namespace Template

structure Spells (p : PropertySignature) (declared documented : String) : Prop where
  getter : ∀ tab settings, ∃ doc body, getter p tab settings =
    doc ++ tab ++ "public function " ++ getterName p ++ "(): " ++ declared ++ "\n" ++ body
  setter : ∀ tab className settings, ∃ doc body, setter p tab className settings =
    doc ++ tab ++ "public function " ++ setterName p ++ "(" ++ declared ++ " $" ++ p.name ++ "): " ++ body
  getterDoc : ∀ tab settings, settings.accessorDoc = true → ∃ before after,
    Template.getter p tab settings =
      before ++ tab ++ " * @return " ++ documented ++ "\n" ++ after
  setterDoc : ∀ tab className settings, settings.accessorDoc = true → ∃ before after,
    Template.setter p tab className settings =
      before ++ tab ++ " * @param " ++ documented ++ " $" ++ p.name ++ "\n" ++ after

theorem exists_docLine {lines : List String} {line : String} (hline : line ∈ lines)
    (hne : line ≠ "") (tab : String) : ∃ before after,
      docBlock lines tab = before ++ tab ++ " * " ++ line ++ "\n" ++ after := by
  obtain ⟨above, below, rfl⟩ := List.append_of_mem hline
  refine ⟨tab ++ "/**\n" ++ String.join (above.map (docLine tab)),
    String.join (below.map (docLine tab)) ++ tab ++ " */\n", ?_⟩
  have hdocLine : docLine tab line = tab ++ " * " ++ line ++ "\n" := if_neg hne
  unfold docBlock
  rw [List.map_append, List.map_cons, hdocLine]
  apply String.toList_inj.mp
  simp

theorem spells_types {p : PropertySignature} (hname : p.name ≠ "") :
    Spells p p.types.declaredText p.types.docText where
  getter tab settings := by
    refine ⟨"\n" ++ (if settings.accessorDoc then Template.getterDoc p tab settings else ""),
      tab ++ "\x7b\n" ++ tab ++ tab ++ "return $this->" ++ p.name ++ ";\n" ++ tab ++ "\x7d\n", ?_⟩
    unfold Template.getter getterCode
    rw [if_neg hname]
    simp only [String.append_assoc]
  setter tab className settings := by
    unfold Template.setter setterCode
    rw [if_neg hname]
    refine ⟨"\n" ++ (if settings.accessorDoc then Template.setterDoc p tab className settings else ""),
      (if settings.fluentSetters then "self" else "void") ++ "\n" ++ tab ++ "\x7b\n"
        ++ tab ++ tab ++ "$this->" ++ p.name ++ " = $" ++ p.name ++ ";\n"
        ++ (if settings.fluentSetters then "\n" ++ tab ++ tab ++ "return $this;\n" else "")
        ++ tab ++ "\x7d\n", ?_⟩
    simp only [String.append_assoc]
  getterDoc tab settings hdoc := by
    have hmem : "@return " ++ p.types.docText ∈
        descriptionIf settings.functionDescription ("Getter for " ++ p.name) settings
          ++ ["@return " ++ p.types.docText] := by simp
    obtain ⟨before, after, hblock⟩ := exists_docLine hmem (by simp) tab
    refine ⟨"\n" ++ before, after ++ getterCode p tab, ?_⟩
    unfold Template.getter
    rw [if_neg hname, if_pos hdoc, Template.getterDoc, hblock]
    apply String.toList_inj.mp
    simp
  setterDoc tab className settings hdoc := by
    have hmem : "@param " ++ p.types.docText ++ " $" ++ p.name ∈
        descriptionIf settings.functionDescription ("Setter for " ++ p.name) settings
          ++ ["@param " ++ p.types.docText ++ " $" ++ p.name] ++ setterReturn className settings := by
      simp
    obtain ⟨before, after, hblock⟩ := exists_docLine hmem (by simp) tab
    refine ⟨"\n" ++ before, after ++ setterCode p tab settings, ?_⟩
    unfold Template.setter
    rw [if_neg hname, if_pos hdoc, Template.setterDoc, hblock]
    apply String.toList_inj.mp
    simp

theorem spells_of_texts {p : PropertySignature} {declared documented : String} (hname : p.name ≠ "")
    (hdeclared : p.types.declaredText = declared) (hdocumented : p.types.docText = documented) :
    Spells p declared documented := by
  subst hdeclared hdocumented
  exact spells_types hname

end Template

/-- A property line is read as it is written, with its semicolon or without. Only `static` in front
of the name is no type, since it is a modifier there. -/
theorem PropertySignature.ofSite_line {indent visibility x ending t : String} {ts : List String}
    (hindent : ∀ c ∈ indent.toList, c = ' ' ∨ c = '\t')
    (hvisibility : visibility ∈ Line.visibilities) (hx : IsIdentifier x.toList)
    (hending : ending = ";" ∨ ending = "") (hnames : ∀ u ∈ t :: ts, IsTypeName u)
    (hdistinct : (t :: ts).Nodup) :
    let union := String.intercalate "|" (t :: ts)
    let line := fun type => indent ++ (visibility ++ " " ++ type ++ "$" ++ x ++ ending)
    (∀ s : Site, s.text = line (union ++ " ") → Keyword.ofWord? t.toList ≠ some .static →
      ofSite s = .ok ⟨x, ⟨t :: ts, false⟩⟩) ∧
    (∀ s : Site, s.text = line ("?" ++ t ++ " ") → ofSite s = .ok ⟨x, ⟨[t], true⟩⟩) ∧
    (∀ s : Site, s.text = line "" → ofSite s = .ok ⟨x, {}⟩) ∧
    (∀ s : Site, s.text = line (t ++ " ") → Keyword.ofWord? t.toList = some .static →
      ofSite s = .ok ⟨x, {}⟩) ∧
    ("null" ∉ t :: ts ∨ ts = [] → Template.Spells ⟨x, ⟨t :: ts, false⟩⟩ union union) ∧
    (t ≠ "null" → Template.Spells ⟨x, ⟨[t], true⟩⟩ ("?" ++ t) (t ++ "|null")) := by
  intro union line
  have ht := hnames t (by simp)
  have hname : x ≠ "" := by
    rintro rfl
    exact hx.2.1 rfl
  refine ⟨?_, ?_, ?_, ?_, ?_, ?_⟩
  · intro s htext hstatic
    have hw : ∀ h ∈ some (Hint.unionOf t ts), h.Written := by
      rintro _ ⟨⟩
      exact .plain (Hint.plain_unionOf hnames)
    have htype : typeText (some (Hint.unionOf t ts)) = union ++ " " :=
      congrArg (· ++ " ") (Hint.text_unionOf t ts)
    rw [← UnionType.ofHint?_unionOf hdistinct]
    refine ofSite_typed hindent hvisibility hx hending hw ?_ (by rw [htype]; exact htext)
    rintro _ ⟨⟩ hk
    exact hstatic (ofWord?_of_firstKind_unionOf hk)
  · intro s htext
    have hw : ∀ h ∈ some (Hint.nullable (.named t)), h.Written := by
      rintro _ ⟨⟩
      exact .nullable ht
    refine ofSite_typed hindent hvisibility hx hending hw ?_ htext
    rintro _ ⟨⟩
    exact nofun
  · intro s htext
    have hnone : ∀ h ∈ (none : Option Hint), h.Written := nofun
    exact ofSite_typed hindent hvisibility hx hending hnone nofun htext
  · intro s htext hstatic
    exact ofSite_static hindent hvisibility hx hending ht (wordKind_eq_keyword.2 hstatic) htext
  · intro hnull
    have htexts : (⟨t :: ts, false⟩ : UnionType).declaredText = union ∧
        (⟨t :: ts, false⟩ : UnionType).docText = union := by
      rcases hnull with hnull | rfl
      · exact UnionType.texts_of_not_mem hnull
      · have hunion : union = t := String.intercalate_singleton
        rw [hunion]
        exact UnionType.texts_singleton t
    exact Template.spells_of_texts hname htexts.1 htexts.2
  · intro hnull
    obtain ⟨hdeclared, hdoc⟩ := UnionType.texts_nullable hnull
    exact Template.spells_of_texts hname hdeclared hdoc

theorem PropertySignature.ofSite_line_sample :
    ofSite ⟨"\tprivate int|Foo_1 $name", "\t", 0, none⟩ = .ok ⟨"name", ⟨["int", "Foo_1"], false⟩⟩ ∧
      ofSite ⟨"\tprivate ?int $name", "\t", 0, none⟩ = .ok ⟨"name", ⟨["int"], true⟩⟩ ∧
      ofSite ⟨"\tprivate $name", "\t", 0, none⟩ = .ok ⟨"name", {}⟩ ∧
      Template.Spells ⟨"name", ⟨["int"], true⟩⟩ "?int" "int|null" := by
  obtain ⟨hunion, hnullable, huntyped, -, -, hspells⟩ :=
    @ofSite_line "\t" "private" "name" "" "int" ["Foo_1"] (by simp) (by decide) (by decide)
      (.inr rfl) (by decide) (by decide)
  exact ⟨hunion _ (by decide) (by decide), hnullable _ (by decide), huntyped _ (by decide),
    hspells (by decide)⟩

/-- A lone `static` is lost, and an absent `null` is not spelled twice. -/
theorem PropertySignature.ofSite_line_static :
    IsTypeName "static" ∧ IsTypeName "null" ∧
      ofSite ⟨"private static $x;", "", 0, none⟩ ≠ .ok ⟨"x", ⟨["static"], false⟩⟩ ∧
      (⟨["null"], true⟩ : UnionType).declaredText = "null" ∧
      (⟨["null"], true⟩ : UnionType).docText = "null" := by
  have hread : ofSite ⟨"private static $x;", "", 0, none⟩ = .ok ⟨"x", {}⟩ :=
    @ofSite_static _ "" "private" "x" ";" (by simp) (by decide) (by decide) (.inl rfl) "static"
      (by decide) (by decide) (by decide)
  refine ⟨by decide, by decide, ?_, by decide, by decide⟩
  rw [hread]
  intro heq
  cases heq

end Scaffold
