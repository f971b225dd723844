import Scaffold.Declaration.Lookup
import Scaffold.Proofs.ClassReading
import Scaffold.Proofs.Template
import Scaffold.Template.Class
/-!
The words of a constructor that is written for some properties. Its two layouts differ in blanks
only, so both have the same words: a parameter for each property, and an assignment for each.
-/
namespace Scaffold

open Php Text

/-! Properties that can be read back -/

/-- The word of a union that is `static` alone, which is read as a modifier and not as a type. -/
def UnionType.modifier? (u : UnionType) : Option String :=
  match u.alternatives with
  | [t] => if Keyword.ofWord? t.toList = some .static then some t else none
  | _ => none

def UnionType.opensWithStatic (u : UnionType) : Bool :=
  match u.alternatives.filter (· != "null") with
  | t :: _ :: _ => Keyword.ofWord? t.toList == some .static
  | _ => false

structure PropertySignature.Readable (p : PropertySignature) : Prop where
  name : IsIdentifier p.name.toList
  goesOn : Keyword.ofWord? p.name.toList ≠ some .haltCompiler
  types : ∀ t ∈ p.types.members, IsTypeName t
  distinct : p.types.members.Nodup
  static : p.types.opensWithStatic = false

instance (p : PropertySignature) : Decidable p.Readable :=
  decidable_of_iff (IsIdentifier p.name.toList ∧ Keyword.ofWord? p.name.toList ≠ some .haltCompiler ∧
      (∀ t ∈ p.types.members, IsTypeName t) ∧ p.types.members.Nodup ∧
      p.types.opensWithStatic = false)
    ⟨fun ⟨hname, hgoesOn, htypes, hdistinct, hstatic⟩ => ⟨hname, hgoesOn, htypes, hdistinct, hstatic⟩,
      fun hp => ⟨hp.name, hp.goesOn, hp.types, hp.distinct, hp.static⟩⟩

def PropertySignature.parameter (p : PropertySignature) : Argument :=
  match p.types.modifier? with
  | some t => ⟨[(.static, t)], ⟨p.name, none⟩⟩
  | none => ⟨[], ⟨p.name, some p.types.declaredHint⟩⟩

theorem UnionType.eq_of_modifier? {u : UnionType} {t : String} (h : u.modifier? = some t) :
    u.alternatives = [t] ∧ wordKind t.toList = .keyword .static := by
  unfold modifier? at h
  split at h
  · next t' halternatives =>
      split at h
      · next hstatic =>
          obtain rfl : t' = t := Option.some.inj h
          exact ⟨halternatives, wordKind_eq_keyword.2 hstatic⟩
      · cases h
  · cases h

theorem UnionType.words_of_modifier? {u : UnionType} {t : String} (h : u.modifier? = some t) :
    u.declaredHint.words = [(.keyword .static, t)] := by
  obtain ⟨halternatives, hkind⟩ := eq_of_modifier? h
  have hne : t ≠ "null" := by
    rintro rfl
    exact absurd hkind (by decide)
  have hcontains : u.alternatives.contains "null" ≠ true := by
    rw [halternatives]
    simpa using hne.symm
  have hd := declared u
  generalize u.declaredHint = h at hd
  cases hd with
  | mixed hempty =>
      have hmembers : t ∈ u.alternatives := by simp [halternatives]
      rcases mem_alternatives hmembers with hmem | rfl
      · rw [hempty] at hmem
        exact nomatch hmem
      · exact absurd rfl hne
  | null _ hnull _ => exact absurd hnull hcontains
  | nullable _ hnull _ => exact absurd hnull hcontains
  | nullLast _ hnull _ => exact absurd hnull hcontains
  | plain _ _ hall =>
      obtain ⟨rfl, rfl⟩ := List.cons.inj (hall.symm.trans halternatives)
      rw [Hint.unionOf, Hint.words, hkind]

theorem PropertySignature.words_parameter (p : PropertySignature) :
    p.parameter.words = p.types.declaredHint.words ++ [variableWord p.name] := by
  unfold parameter
  split
  · next t h =>
      rw [UnionType.words_of_modifier? h]
      rfl
  · rfl

theorem UnionType.Declared.firstKind_ne_static {u : UnionType} {h : Hint} (hd : Declared u h)
    (hmodifier : u.modifier? = none) (hstatic : u.opensWithStatic = false) :
    firstKind h.words none ≠ some (.keyword .static) := by
  cases hd with
  | mixed _ => decide
  | null _ _ _ => decide
  | nullable _ _ _ => exact nofun
  | nullLast hne hnull hothers =>
      intro hk
      have hword := ofWord?_of_firstKind_unionOf hk
      simp [opensWithStatic, hothers, hword] at hstatic
  | @plain t ts hne hnull hall =>
      intro hk
      have hword := ofWord?_of_firstKind_unionOf hk
      cases ts with
      | nil => simp [modifier?, hall, hword] at hmodifier
      | cons t' ts =>
          have hothers := (filter_of_not_contains hnull).trans hall
          simp [opensWithStatic, hothers, hword] at hstatic

theorem PropertySignature.Readable.written {p : PropertySignature} (hp : p.Readable) :
    p.parameter.Written := by
  unfold parameter
  split
  · refine ⟨?_, nofun, nofun⟩
    intro k hk
    rw [List.mem_singleton.1 hk]
    rfl
  · next hmodifier =>
      refine ⟨nofun, ?_, ?_⟩
      · rintro _ ⟨⟩
        exact (UnionType.declared p.types).written hp.types
      · rintro _ ⟨⟩
        exact (UnionType.declared p.types).firstKind_ne_static hmodifier hp.static

/-! The two layouts -/

namespace Template

def IsBlankText (s : String) : Prop :=
  ∀ c ∈ s.toList, isSpace c = true

structure Layout where
  lead : String
  sep : String
  trail : String
  after : String
  gap : String

structure Layout.IsBlank (l : Layout) : Prop where
  lead : IsBlankText l.lead
  sep : IsBlankText l.sep
  trail : IsBlankText l.trail
  after : IsBlankText l.after
  gap : IsBlankText l.gap

def Layout.rest (l : Layout) (tab : String) (ps : List PropertySignature) : String :=
  l.trail ++ ")" ++ l.after ++ "\x7b\n" ++ String.intercalate "\n" (ps.map (assignment tab)) ++ l.gap
    ++ tab ++ "\x7d\n"

def Layout.tail (l : Layout) (tab : String) (ps : List PropertySignature) : String :=
  l.lead ++ String.intercalate l.sep (arguments ps) ++ l.rest tab ps

def Layout.text (l : Layout) (tab doc : String) (ps : List PropertySignature) : String :=
  "\n" ++ doc ++ (tab ++ "public function __construct(") ++ l.tail tab ps

theorem exists_layout {tab : String} (htab : IsBlankText tab) (ps : List PropertySignature)
    (className : Option String) (s : Settings) :
    ∃ (l : Layout) (doc : String), constructor ps tab className s = l.text tab doc ps ∧ l.IsBlank ∧
      (ps = [] → l.lead = "" ∧ l.trail = "") ∧
      (doc = "" ∨ doc = constructorDoc ps tab className s) := by
  have hempty : IsBlankText "" := by simp [IsBlankText]
  have hblank : IsBlankText " " := by simp [IsBlankText]; decide
  have hfeed : IsBlankText "\n" := by simp [IsBlankText]; decide
  have happend : ∀ {a b}, IsBlankText a → IsBlankText b → IsBlankText (a ++ b) := by
    intro a b ha hb c hc
    rw [String.toList_append, List.mem_append] at hc
    exact hc.elim (ha c) (hb c)
  cases ps with
  | nil =>
      refine ⟨⟨"", "", "", "\n" ++ tab, ""⟩, "", ?_,
        ⟨hempty, hempty, hempty, happend hfeed htab, hempty⟩, fun _ => ⟨rfl, rfl⟩, .inl rfl⟩
      apply String.toList_inj.mp
      simp [constructor, Layout.text, Layout.tail, Layout.rest, arguments]
  | cons p ps =>
      unfold constructor constructorHead
      dsimp only
      split
      · refine ⟨⟨"", " ", "", "\n" ++ tab, "\n"⟩, constructorDoc (p :: ps) tab className s, ?_,
          ⟨hempty, hblank, hempty, happend hfeed htab, hfeed⟩, nofun, .inr rfl⟩
        apply String.toList_inj.mp
        simp [constructorOneLine, Layout.text, Layout.tail, Layout.rest]
      · refine ⟨⟨"\n" ++ tab ++ tab, "\n" ++ tab ++ tab, "\n" ++ tab, " ", "\n"⟩,
          constructorDoc (p :: ps) tab className s, ?_,
          ⟨happend (happend hfeed htab) htab, happend (happend hfeed htab) htab, happend hfeed htab,
            hblank, hfeed⟩, nofun, .inr rfl⟩
        apply String.toList_inj.mp
        simp [Layout.text, Layout.tail, Layout.rest]

/-! Characters that stand in no name, type or blank -/

def IsOutside (d : Char) : Prop :=
  d = '/' ∨ d = '(' ∨ d = ')'

section

variable {d : Char} {tab : String}

theorem IsOutside.not_namePart (hd : IsOutside d) : ¬(d.isAlphanum = true ∨ d = '_') := by
  rcases hd with rfl | rfl | rfl <;> decide

theorem IsOutside.lacks_name (hd : IsOutside d) {name : String} (hname : IsIdentifier name.toList) :
    Lacks d name :=
  hname.not_mem hd.not_namePart

theorem IsOutside.lacks_blank (hd : IsOutside d) {s : String} (hs : IsBlankText s) : Lacks d s := by
  intro hmem
  have hspace := hs d hmem
  revert hspace
  rcases hd with rfl | rfl | rfl <;> decide

theorem IsOutside.lacks_text (hd : IsOutside d) {s : String}
    (hs : Lacks '/' s ∧ Lacks '(' s ∧ Lacks ')' s) : Lacks d s := by
  rcases hd with rfl | rfl | rfl
  · exact hs.1
  · exact hs.2.1
  · exact hs.2.2

theorem lacks_docLines (hd : IsOutside d) (htab : IsBlankText tab) {lines : List String}
    (h : ∀ l ∈ lines, Lacks d l) : Lacks d (String.join (lines.map (docLine tab))) := by
  refine Lacks.join fun t ht => ?_
  obtain ⟨l, hl, rfl⟩ := List.mem_map.1 ht
  unfold docLine
  split
  · exact (hd.lacks_blank htab).append (hd.lacks_text (by decide))
  · exact (((hd.lacks_blank htab).append (hd.lacks_text (by decide))).append (h l hl)).append
      (hd.lacks_text (by decide))

variable {p : PropertySignature} {ps : List PropertySignature}

theorem lacks_docText (hd : IsOutside d) (hp : p.Readable) : Lacks d p.types.docText := by
  unfold UnionType.docText
  split
  · exact hd.lacks_text (by decide)
  · refine Lacks.intercalate (hd.lacks_text (by decide)) fun t ht => ?_
    rcases UnionType.mem_alternatives ht with hmember | rfl
    · exact hd.lacks_name (hp.types t hmember).1
    · exact hd.lacks_text (by decide)

theorem lacks_declaredText (hd : IsOutside d) (hp : p.Readable) :
    Lacks d p.types.declaredText := by
  rw [← (UnionType.declared p.types).text]
  refine ((UnionType.declared p.types).written hp.types).not_mem hd.not_namePart ?_ ?_ <;>
    rcases hd with rfl | rfl | rfl <;> decide

theorem lacks_arguments (hd : IsOutside d) (hps : ∀ p ∈ ps, p.Readable) :
    ∀ t ∈ arguments ps, Lacks d t := by
  have hargument : ∀ p ∈ ps, Lacks d (argument p) := fun p hp =>
    ((lacks_declaredText hd (hps p hp)).append (hd.lacks_text (by decide))).append
      (hd.lacks_name (hps p hp).name)
  clear hps
  fun_induction arguments ps with
  | case1 => exact nofun
  | case2 p => simpa using hargument
  | case3 p ps hne ih =>
      intro t ht
      rcases List.mem_cons.1 ht with rfl | ht
      · exact (hargument p (by simp)).append (hd.lacks_text (by decide))
      · exact ih (fun q hq => hargument q (List.mem_cons_of_mem p hq)) t ht

theorem lacks_assignments (hd : IsOutside d) (htab : IsBlankText tab)
    (hps : ∀ p ∈ ps, p.Readable) : ∀ t ∈ ps.map (assignment tab), Lacks d t := by
  intro t ht
  obtain ⟨p, hp, rfl⟩ := List.mem_map.1 ht
  have hblank := hd.lacks_blank htab
  have hname := hd.lacks_name (hps p hp).name
  have hthis := (hblank.append hblank).append (hd.lacks_text (s := "$this->") (by decide))
  have hvalue := (hthis.append hname).append (hd.lacks_text (s := " = $") (by decide))
  exact (hvalue.append hname).append (hd.lacks_text (by decide))

theorem lacks_tail {l : Layout} (hl : l.IsBlank) (htab : IsBlankText tab)
    (hps : ∀ p ∈ ps, p.Readable) : Lacks '(' (l.tail tab ps) := by
  have hparen : IsOutside '(' := .inr (.inl rfl)
  have harguments := Lacks.intercalate (hparen.lacks_blank hl.sep) (lacks_arguments hparen hps)
  have hassignments := Lacks.intercalate (by decide : Lacks '(' "\n")
    (lacks_assignments hparen htab hps)
  have hclose := ((hparen.lacks_blank hl.trail).append (by decide : Lacks '(' ")")).append
    (hparen.lacks_blank hl.after)
  have hbody := (hclose.append (by decide : Lacks '(' "\x7b\n")).append hassignments
  have hrest := ((hbody.append (hparen.lacks_blank hl.gap)).append (hparen.lacks_blank htab)).append
    (by decide : Lacks '(' "\x7d\n")
  exact ((hparen.lacks_blank hl.lead).append harguments).append hrest

theorem lacks_constructorLines (hd : IsOutside d) (hps : ∀ p ∈ ps, p.Readable)
    {className : Option String} (hclass : ∀ c ∈ className, IsIdentifier c.toList) (s : Settings) :
    ∀ l ∈ constructorDescription className s
      ++ ps.map fun p => "@param " ++ p.types.docText ++ " $" ++ p.name, Lacks d l := by
  intro l hl
  rcases List.mem_append.1 hl with hl | hl
  · unfold constructorDescription descriptionIf blankLines at hl
    cases className with
    | none => exact nomatch hl
    | some c =>
        dsimp only at hl
        split at hl
        · rcases List.mem_cons.1 hl with rfl | hl
          · exact (hd.lacks_name (hclass c rfl)).append (hd.lacks_text (by decide))
          · rw [(List.mem_replicate.1 hl).2]
            exact hd.lacks_text (by decide)
        · exact nomatch hl
  · obtain ⟨p, hp, rfl⟩ := List.mem_map.1 hl
    have hhead := (hd.lacks_text (s := "@param ") (by decide)).append (lacks_docText hd (hps p hp))
    exact (hhead.append (hd.lacks_text (by decide))).append (hd.lacks_name (hps p hp).name)

theorem lacks_constructorDoc (htab : IsBlankText tab) (hps : ∀ p ∈ ps, p.Readable)
    {className : Option String} (hclass : ∀ c ∈ className, IsIdentifier c.toList) (s : Settings) :
    Lacks '(' (constructorDoc ps tab className s) := by
  have hparen : IsOutside '(' := .inr (.inl rfl)
  have hlines := lacks_docLines hparen htab (lacks_constructorLines hparen hps hclass s)
  have hblank := hparen.lacks_blank htab
  exact (((hblank.append (by decide)).append hlines).append hblank).append (by decide)

end

/-! The words of a constructor -/

theorem intercalate_arguments (sep : String) (p q : PropertySignature) (qs : List PropertySignature) :
    String.intercalate sep (arguments (p :: q :: qs)) =
      argument p ++ ("," ++ sep ++ String.intercalate sep (arguments (q :: qs))) := by
  obtain ⟨t, ts, hts⟩ : ∃ t ts, arguments (q :: qs) = t :: ts := by
    cases qs <;> exact ⟨_, _, rfl⟩
  rw [arguments, hts, String.intercalate_cons_cons]
  · simp only [String.append_assoc]
  · exact nofun

section

variable {tab sep : String} {p : PropertySignature} {ps : List PropertySignature} {cs : List Char}
  {ws : List Word}

theorem scans_argument (hp : p.Readable) (hcs : ∀ c ∈ cs.head?, isNameChar c = false)
    (h : Scans cs ws) : Scans ((argument p).toList ++ cs) (p.parameter.words ++ ws) := by
  have hhint : ∀ h ∈ some p.types.declaredHint, h.Written := by
    rintro _ ⟨⟩
    exact (UnionType.declared p.types).written hp.types
  have htyped := scans_typed hhint hp.name hcs h
  have htext : (argument p).toList ++ cs =
      (typeText (some p.types.declaredHint)).toList ++ '$' :: (p.name.toList ++ cs) := by
    simp [argument, typeText, (UnionType.declared p.types).text]
  rw [htext, PropertySignature.words_parameter, List.append_assoc]
  exact htyped

theorem scans_arguments (hps : ∀ p ∈ ps, p.Readable) (hsep : IsBlankText sep)
    (hcs : ∀ c ∈ cs.head?, isNameChar c = false) (h : Scans cs ws) :
    Scans ((String.intercalate sep (arguments ps)).toList ++ cs)
      (Argument.wordsOfAll (ps.map PropertySignature.parameter) ++ ws) := by
  induction ps with
  | nil => simpa [arguments, Argument.wordsOfAll] using h
  | cons p ps ih =>
      have hp := hps p (by simp)
      cases ps with
      | nil => simpa [arguments, Argument.wordsOfAll] using scans_argument hp hcs h
      | cons q qs =>
          have hrest := scans_blanks hsep (ih fun p' hp' => hps p' (List.mem_cons_of_mem p hp'))
          have hfirst := scans_argument hp (by rintro _ ⟨⟩; decide)
            (scans_mark ofCode_comma hrest)
          have htext : (String.intercalate sep (arguments (p :: q :: qs))).toList ++ cs =
              (argument p).toList ++ ',' :: (sep.toList ++
                ((String.intercalate sep (arguments (q :: qs))).toList ++ cs)) := by
            simp [intercalate_arguments]
          rw [htext, List.map_cons, List.map_cons, Argument.wordsOfAll, List.append_assoc]
          · exact hfirst
          · simp

theorem scans_assignment (htab : IsBlankText tab) (hp : p.Readable) (h : Scans cs ws) :
    Scans ((assignment tab p).toList ++ cs) (assignmentWords p.name ++ ws) := by
  have htext : (assignment tab p).toList ++ cs = tab.toList ++ (tab.toList ++ '$' ::
      ("this".toList ++ '-' :: '>' :: (p.name.toList ++ ' ' :: '=' :: ' ' :: '$' ::
        (p.name.toList ++ ';' :: cs)))) := by
    simp [assignment]
  have hhalt : wordKind p.name.toList ≠ .keyword .haltCompiler :=
    fun hk => hp.goesOn (wordKind_eq_keyword.1 hk)
  have hvalue := scans_variable hp.name (by rintro _ ⟨⟩; decide) (scans_mark ofCode_semicolon h)
  have hassign := scans_blank (c := ' ') rfl (scans_mark ofCode_assign
    (scans_blank (c := ' ') rfl hvalue))
  have hproperty := scans_word hp.name rfl hhalt (by decide) (.inr (by decide)) hassign
  have harrow := scans_take ['>'] ofCode_arrow hproperty
  have hthis := scans_variable (w := "this".toList) (by decide) (by rintro _ ⟨⟩; decide) harrow
  rw [htext]
  exact scans_blanks htab (scans_blanks htab hthis)

theorem scans_assignments (htab : IsBlankText tab) (hps : ∀ p ∈ ps, p.Readable)
    (h : Scans cs ws) :
    Scans ((String.intercalate "\n" (ps.map (assignment tab))).toList ++ cs)
      ((ps.map PropertySignature.name).flatMap assignmentWords ++ ws) := by
  induction ps with
  | nil => simpa using h
  | cons p ps ih =>
      have hp := hps p (by simp)
      cases ps with
      | nil => simpa using scans_assignment htab hp h
      | cons q qs =>
          have hrest := ih fun p' hp' => hps p' (List.mem_cons_of_mem p hp')
          have hfirst := scans_assignment htab hp (scans_blank (c := '\n') rfl hrest)
          simpa [String.intercalate_cons_cons] using hfirst

theorem scans_docBlock {lines : List String} (htab : IsBlankText tab)
    (hlines : ∀ l ∈ lines, Lacks '/' l) (h : Scans cs ws) :
    Scans ((docBlock lines tab).toList ++ cs) ws := by
  have htext : (docBlock lines tab).toList ++ cs = tab.toList ++ '/' :: '*' :: '*' ::
      (("\n" ++ String.join (lines.map (docLine tab)) ++ tab ++ " ").toList ++
        '*' :: '/' :: '\n' :: cs) := by
    simp [docBlock]
  have hslash : IsOutside '/' := .inl rfl
  have hbody : Lacks '/' ("\n" ++ String.join (lines.map (docLine tab)) ++ tab ++ " ") :=
    (((hslash.lacks_text (by decide)).append (lacks_docLines hslash htab hlines)).append
      (hslash.lacks_blank htab)).append (hslash.lacks_text (by decide))
  rw [htext]
  exact scans_blanks htab (scans_comment hbody (scans_blank rfl h))

variable {l : Layout}

theorem castSize?_tail (hl : l.IsBlank) (hps : ∀ p ∈ ps, p.Readable)
    (hempty : ps = [] → l.lead = "" ∧ l.trail = "") :
    castSize? ((l.tail tab ps).toList ++ cs) = none := by
  cases ps with
  | nil =>
      obtain ⟨hlead, htrail⟩ := hempty rfl
      have htext : (l.tail tab []).toList ++ cs =
          ')' :: ((l.after ++ "\x7b\n" ++ l.gap ++ tab ++ "\x7d\n").toList ++ cs) := by
        simp [Layout.tail, Layout.rest, arguments, hlead, htrail]
      rw [htext]
      rfl
  | cons p ps =>
      -- Before the first closing parenthesis stands the dollar sign of the first parameter.
      obtain ⟨more, hmore⟩ : ∃ more,
          String.intercalate l.sep (arguments (p :: ps)) = argument p ++ more := by
        cases ps with
        | nil => exact ⟨"", by simp [arguments]⟩
        | cons q qs => exact ⟨_, intercalate_arguments l.sep p q qs⟩
      have htext : (l.tail tab (p :: ps)).toList ++ cs =
          (l.lead ++ p.types.declaredText ++ " ").toList ++ '$' :: ((p.name ++ more ++ l.rest tab (p :: ps)).toList ++ cs) := by
        rw [Layout.tail, hmore]
        simp [argument]
      have hparen : IsOutside ')' := .inr (.inr rfl)
      have hhead : Lacks ')' (l.lead ++ p.types.declaredText ++ " ") :=
        ((hparen.lacks_blank hl.lead).append (lacks_declaredText hparen (hps p (by simp)))).append
          (hparen.lacks_text (by decide))
      rw [htext]
      exact castSize?_eq_none hhead (by decide) (by decide)

theorem head?_rest (hl : l.IsBlank) :
    ∀ c ∈ ((l.rest tab ps).toList ++ cs).head?, isNameChar c = false := by
  have htext : (l.rest tab ps).toList ++ cs = l.trail.toList ++ ')' :: ((l.after ++ "\x7b\n" ++
      String.intercalate "\n" (ps.map (assignment tab)) ++ l.gap ++ tab ++ "\x7d\n").toList ++ cs) := by
    simp [Layout.rest]
  intro c hc
  rw [htext] at hc
  cases htrail : l.trail.toList with
  | nil =>
      obtain rfl : ')' = c := by simpa [htrail] using hc
      decide
  | cons d ds =>
      obtain rfl : d = c := by simpa [htrail] using hc
      have hspace := hl.trail d (by simp [htrail])
      rw [← Bool.not_eq_true]
      intro hname
      rw [isSpace_of_isNameChar hname] at hspace
      exact Bool.false_ne_true hspace

theorem scans_rest (htab : IsBlankText tab) (hl : l.IsBlank) (hps : ∀ p ∈ ps, p.Readable)
    (h : Scans cs ws) :
    Scans ((l.rest tab ps).toList ++ cs) ((.mark .closeParen, ")") :: (.mark .openBrace, "\x7b") ::
      ((ps.map PropertySignature.name).flatMap assignmentWords ++
        (.mark .closeBrace, "\x7d") :: ws)) := by
  have hend : Scans ('\x7d' :: '\n' :: cs) ((.mark .closeBrace, "\x7d") :: ws) :=
    scans_mark ofCode_closeBrace (scans_blank rfl h)
  have hassignments := scans_assignments htab hps (scans_blanks hl.gap (scans_blanks htab hend))
  have hbody := scans_blanks hl.after (scans_mark ofCode_openBrace
    (scans_blank (c := '\n') rfl hassignments))
  have hclose := scans_blanks hl.trail (scans_mark ofCode_closeParen hbody)
  simpa [Layout.rest] using hclose

theorem scans_header (htab : IsBlankText tab) (hl : l.IsBlank) (hps : ∀ p ∈ ps, p.Readable)
    (hempty : ps = [] → l.lead = "" ∧ l.trail = "") (h : Scans cs ws) :
    Scans ("public function __construct(".toList ++ ((l.tail tab ps).toList ++ cs))
      (methodWords "__construct" (ps.map PropertySignature.parameter)
        (ps.map PropertySignature.name) ++ ws) := by
  have harguments := scans_blanks hl.lead
    (scans_arguments hps hl.sep (head?_rest hl) (scans_rest htab hl hps h))
  have htail : (l.tail tab ps).toList ++ cs = l.lead.toList ++
      ((String.intercalate l.sep (arguments ps)).toList ++ ((l.rest tab ps).toList ++ cs)) := by
    simp [Layout.tail]
  rw [← htail] at harguments
  have hopen := scans_mark (ofCode_openParen (castSize?_tail hl hps hempty)) harguments
  have hname : Scans ("__construct".toList ++ _) ((.name, "__construct") :: _) :=
    scans_word (by decide) (by decide) (by decide) (by decide) (.inl rfl) hopen
  have hfunction : Scans ("function".toList ++ _) ((.keyword .function, "function") :: _) :=
    scans_word (by decide) (by decide) (by decide) (by decide) (.inr (by decide))
      (scans_blank (c := ' ') rfl hname)
  have hpublic : Scans ("public".toList ++ _) ((.keyword .public_, "public") :: _) :=
    scans_word (by decide) (by decide) (by decide) (by decide) (.inr (by decide))
      (scans_blank (c := ' ') rfl hfunction)
  have hkind : wordKind "__construct".toList = .name := by decide
  have htext : "public function __construct(".toList ++ ((l.tail tab ps).toList ++ cs) =
      "public".toList ++ ' ' :: ("function".toList ++ ' ' :: ("__construct".toList ++ '(' ::
        ((l.tail tab ps).toList ++ cs))) := by
    simp
  rw [htext, methodWords, hkind]
  simpa using hpublic

end

end Template

end Scaffold
