import Scaffold.Proofs.Named
import Scaffold.Proofs.OpenBracket
import Scaffold.Proofs.Outline
import Scaffold.Proofs.SurroundingBlanks
/-!
A member without its semicolon is read as if it had one, unless its last character is one that
opens something. Blanks in front of the semicolon make no difference where they make none to the
words of the line. A quote at the end is taken for the start of a string, also where it closes one;
then the added quote opens a string that never ends, and nothing is declared. A bracket at the end
is closed at once, and the member is the one that the bracket and a semicolon make.
-/
namespace Scaffold

open Php Text

/-! Readers of a line, with a semicolon at its end -/

namespace Text

section

variable {d : Char}

theorem takeWhile_dropWhile_append {p : Char → Bool} (hd : p d = false) (cs : List Char) :
    (cs ++ [d]).takeWhile p = cs.takeWhile p ∧
      (cs ++ [d]).dropWhile p = cs.dropWhile p ++ [d] := by
  induction cs with
  | nil => simp [hd]
  | cons c cs ih =>
      by_cases hc : p c = true
      · simp [hc, ih]
      · simp [hc]

theorem isPrefixOf?_append {ds : List Char} (hd : d ∉ ds) (cs : List Char) :
    List.isPrefixOf? ds (cs ++ [d]) = (List.isPrefixOf? ds cs).map (· ++ [d]) := by
  induction ds generalizing cs with
  | nil => rfl
  | cons e ds ih =>
      obtain ⟨hne, hds⟩ : d ≠ e ∧ d ∉ ds := by simpa using hd
      cases cs with
      | nil => simp [isPrefixOf?_cons_nil, isPrefixOf?_cons_cons, Ne.symm hne]
      | cons c cs =>
          by_cases hc : e = c
          · simpa [isPrefixOf?_cons_cons, hc] using ih hds cs
          · simp [isPrefixOf?_cons_cons, hc]

theorem run?_append {p : Char → Bool} (hd : p d = false) (cs : List Char) :
    run? p (cs ++ [d]) = (run? p cs).map (Prod.map id (· ++ [d])) := by
  obtain ⟨htake, hdrop⟩ := takeWhile_dropWhile_append hd cs
  unfold run?
  rw [htake, hdrop]
  split <;> rfl

variable (hd : isBlank d = false)
include hd

theorem dropBlanks_append (cs : List Char) : dropBlanks (cs ++ [d]) = dropBlanks cs ++ [d] :=
  (takeWhile_dropWhile_append hd cs).2

theorem blanks?_append (cs : List Char) : blanks? (cs ++ [d]) = (blanks? cs).map (· ++ [d]) := by
  cases cs with
  | nil => simp [blanks?, hd]
  | cons c cs =>
      rw [List.cons_append, blanks?, blanks?, dropBlanks_append hd]
      split <;> rfl

theorem spaced?_append {words : List String} (hwords : ∀ w ∈ words, d ∉ w.toList)
    (cs : List Char) :
    spaced? words (cs ++ [d]) = (spaced? words cs).map (Prod.map id (· ++ [d])) := by
  induction words with
  | nil => rfl
  | cons w words ih =>
      obtain ⟨hw, hwords⟩ := List.forall_mem_cons.mp hwords
      have ih := ih hwords
      unfold spaced? at ih ⊢
      rw [List.findSome?_cons, List.findSome?_cons, isPrefixOf?_append hw, ih]
      cases hstrip : List.isPrefixOf? w.toList cs with
      | none => rfl
      | some rest =>
          simp only [Option.map_some, Option.bind_eq_bind, Option.bind_some, blanks?_append hd]
          cases blanks? rest <;> rfl

theorem skipSpaced_append {words : List String} (hwords : ∀ w ∈ words, d ∉ w.toList)
    (cs : List Char) : skipSpaced words (cs ++ [d]) = skipSpaced words cs ++ [d] := by
  unfold skipSpaced
  rw [spaced?_append hd hwords]
  cases spaced? words cs <;> rfl

end

end Text

namespace Line

def Spares {α : Type} (d : Char) (f : List Char → Option (α × List Char)) : Prop :=
  ∀ cs, f (cs ++ [d]) = (f cs).map (Prod.map id (· ++ [d]))

theorem Spares.bind {α β : Type} {d : Char} {f : List Char → Option (α × List Char)}
    {g : α × List Char → Option (β × List Char)} (hf : Spares d f)
    (hg : ∀ a, Spares d fun cs => g (a, cs)) : Spares d fun cs => (f cs).bind g := by
  intro cs
  dsimp only
  rw [hf cs]
  cases f cs with
  | none => rfl
  | some p => exact hg p.1 p.2

theorem spares_typeAfter? (mark : List Char) : Spares ';' (typeAfter? mark) := by
  refine Spares.bind (run?_append (by decide)) fun taken rest => ?_
  dsimp only
  rw [blanks?_append (by decide)]
  cases blanks? rest <;> rfl

theorem spares_typeToken? : Spares ';' typeToken? := by
  intro cs
  cases cs with
  | nil => decide
  | cons c cs =>
      by_cases hc : c = '?'
      · subst hc
        exact spares_typeAfter? ['?'] cs
      · rw [List.cons_append, typeToken?_plain (by simpa using hc),
          typeToken?_plain (by simpa using hc)]
        exact spares_typeAfter? [] (c :: cs)

theorem spares_assigned? : Spares ';' assigned? := by
  refine Spares.bind (run?_append (by decide)) fun name rest => ?_
  dsimp only
  rw [dropBlanks_append (by decide), isPrefixOf?_append (by decide)]
  cases List.isPrefixOf? ['='] (dropBlanks rest) <;> rfl

theorem typedAssigned?_append (cs : List Char) :
    typedAssigned? (cs ++ [';']) =
      (typedAssigned? cs).map (Prod.map id (Prod.map id (· ++ [';']))) := by
  unfold typedAssigned?
  simp only [Option.bind_eq_bind, spares_typeToken? cs, spares_assigned? cs]
  cases typeToken? cs with
  | none => cases assigned? cs <;> rfl
  | some p =>
      simp only [Option.map_some, Option.bind_some, Prod.map, spares_assigned? p.2]
      cases assigned? p.2 with
      | none => cases assigned? cs <;> rfl
      | some q => rfl

theorem constant?_append (cs : List Char) : constant? (cs ++ [';']) = constant? cs := by
  have hfinal : ∀ w ∈ ["final"], ';' ∉ w.toList := by decide
  have hvisibility : ∀ w ∈ visibilities, ';' ∉ w.toList := by decide
  have hconst : ∀ w ∈ ["const"], ';' ∉ w.toList := by decide
  have hblank : isBlank ';' = false := by decide
  unfold constant?
  simp only [dropBlanks_append hblank, skipSpaced_append hblank hfinal,
    skipSpaced_append hblank hvisibility, spaced?_append hblank hconst]
  generalize skipSpaced ["final"] (skipSpaced visibilities (skipSpaced ["final"] (dropBlanks cs))) =
    rest
  cases spaced? ["const"] rest with
  | none => rfl
  | some p =>
      simp only [Option.map_some, Option.bind_eq_bind, Option.bind_some, Prod.map, id,
        typedAssigned?_append]
      cases typedAssigned? p.2 with
      | none => rfl
      | some q => simp [dropBlanks_append hblank]

end Line

/-! Blanks around a line -/

namespace Text

theorem head?_trim (s : String) : ∀ c ∈ (trim s).toList.head?, isBlank c = false := by
  intro c hc
  have hstart : (trim s).toList <+: dropBlanks s.toList := by
    rw [trim, String.toList_ofList, dropBlanksEnd, ← List.reverse_suffix, List.reverse_reverse]
    exact List.dropWhile_suffix isBlank
  have hfirst : (dropBlanks s.toList).head? = some c := by
    obtain ⟨more, hmore⟩ := hstart
    rw [← hmore, List.head?_append, hc]
    rfl
  exact head?_dropBlanks s.toList c hfirst

theorem getLast?_trim (s : String) : ∀ c ∈ (trim s).toList.getLast?, isBlank c = false := by
  intro c hc
  rw [trim, String.toList_ofList, dropBlanksEnd, List.getLast?_reverse] at hc
  have hnot := List.head?_dropWhile_not isBlank (dropBlanks s.toList).reverse
  rw [hc] at hnot
  simpa using hnot

theorem trim_trim (s : String) : trim (trim s) = trim s := by
  have htrim := @trim_append "" (trim s) (by simp) (head?_trim s) (getLast?_trim s)
  rwa [String.empty_append] at htrim

theorem trim_append_blanks {blanks : String} (hblanks : ∀ c ∈ blanks.toList, isBlank c = true)
    (s : String) : trim (s ++ blanks) = trim s := by
  obtain ⟨before, after, hbefore, hafter, hs⟩ := exists_blanks_trim s
  have hends : ∀ c ∈ after ++ blanks.toList, isBlank c = true := by
    intro c hc
    exact (List.mem_append.mp hc).elim (hafter c) (hblanks c)
  have hchars : (s ++ blanks).toList =
      before ++ ((trim s).toList ++ (after ++ blanks.toList)) := by
    simp [hs]
  exact trim_eq hchars hbefore hends (head?_trim s) (getLast?_trim s)

section

variable {s : String} (hlast : ∀ c ∈ s.toList.getLast?, isBlank c = false)
include hlast

theorem exists_append_trim :
    ∃ before, (∀ c ∈ before, isBlank c = true) ∧ s.toList = before ++ (trim s).toList := by
  obtain ⟨before, after, hbefore, hafter, hs⟩ := exists_blanks_trim s
  have hnone : after = [] := by
    refine List.getLast?_eq_none_iff.mp (Option.eq_none_iff_forall_ne_some.mpr fun c hc => ?_)
    have hend : s.toList.getLast? = some c := by simp [hs, List.getLast?_append, hc]
    have hblank := hafter c (List.mem_of_getLast? hc)
    rw [hlast c hend] at hblank
    exact absurd hblank Bool.false_ne_true
  rw [hnone, List.append_nil] at hs
  exact ⟨before, hbefore, hs⟩

theorem exists_trim_semicolon {gap : String} (hgap : ∀ c ∈ gap.toList, isBlank c = true) :
    ∃ gap', (gap' = "" ∨ gap' = gap) ∧ trim (s ++ gap ++ ";") = trim s ++ gap' ++ ";" := by
  obtain ⟨before, hbefore, hs⟩ := exists_append_trim hlast
  have hend {body : String} : ∀ c ∈ (body ++ ";").toList.getLast?, isBlank c = false := by
    intro c hc
    rw [String.toList_append, List.getLast?_append] at hc
    cases hc
    decide
  by_cases hempty : trim s = ""
  · have hblanks : ∀ c ∈ before ++ gap.toList, isBlank c = true := by
      intro c hc
      exact (List.mem_append.mp hc).elim (hbefore c) (hgap c)
    rw [hempty] at hs ⊢
    refine ⟨"", .inl rfl, trim_eq ?_ hblanks (List.forall_mem_nil _) ?_ hend⟩
    · simp [hs]
    · rintro c ⟨⟩
      decide
  · refine ⟨gap, .inr rfl, trim_eq ?_ hbefore (List.forall_mem_nil _) (fun c hc => ?_) hend⟩
    · simp [hs]
    · obtain ⟨d, ds, hcons⟩ := List.exists_cons_of_ne_nil (mt String.toList_eq_nil_iff.mp hempty)
      refine head?_trim s c ?_
      simpa [hcons] using hc

end

end Text

/-! A semicolon after the last character -/

def opensEnding (c : Char) : Bool :=
  c == '[' || c == '\x27' || c == '\x22'

theorem completeMember_finished {s : String} (hsemicolon : ';' ∈ (trim s).toList) :
    completeMember (trim s) = trim s := by
  unfold completeMember
  rw [trim_trim]
  simp [hsemicolon]

section

variable {s : String} (hsemicolon : ';' ∉ (trim s).toList)
include hsemicolon

theorem completeMember_plain (hlast : ∀ c ∈ (trim s).toList.getLast?, opensEnding c = false) :
    completeMember (trim s) = trim s ++ ";" := by
  have hcontains : (trim s).toList.contains ';' = false := by simpa using hsemicolon
  unfold completeMember
  rw [trim_trim]
  simp only [hcontains, if_neg Bool.false_ne_true]
  split
  · next hc => exact absurd (hlast _ hc) (by decide)
  · next hc => exact absurd (hlast _ hc) (by decide)
  · next hc => exact absurd (hlast _ hc) (by decide)
  · rfl

theorem completeMember_closing {c : Char} {closing : String}
    (hc : (c, closing) ∈ [('[', "];"), ('\x27', "';"), ('\x22', "\";")])
    (hlast : (trim s).toList.getLast? = some c) : completeMember (trim s) = trim s ++ closing := by
  have hcontains : (trim s).toList.contains ';' = false := by simpa using hsemicolon
  unfold completeMember
  rw [trim_trim]
  simp only [hcontains, if_neg Bool.false_ne_true, hlast]
  simp only [List.mem_cons, List.not_mem_nil, or_false, Prod.mk.injEq] at hc
  rcases hc with ⟨rfl, rfl⟩ | ⟨rfl, rfl⟩ | ⟨rfl, rfl⟩ <;> rfl

end

theorem getLast?_bracket (visibility middle : String) :
    (visibility ++ " " ++ (middle ++ " = [")).toList.getLast? = some '[' := by
  rw [← String.append_assoc, String.toList_append, List.getLast?_append]
  rfl

def memberEnd : List Char := [';', ' ', '\n', ' ', '\x7d', ' ', '\n']

theorem Php.exists_scans_memberSource {body : String} {ws : List Word}
    (h : Scans (body.toList ++ memberEnd) ws) :
    ∃ rest, (memberSource (body ++ ";")).toList = '<' :: '?' :: 'p' :: 'h' :: 'p' :: rest ∧
      Scans rest ((.keyword .class_, "class") :: (.name, "Foo") :: (.mark .openBrace, "\x7b") ::
        ws) := by
  have hblanks : ∀ c ∈ [' ', '\n', ' '], isSpace c = true :=
    List.all_eq_true.mp (by decide)
  refine ⟨_, ?_, scans_classOpening hblanks (.inl rfl) hblanks
    (by decide : IsIdentifier "Foo".toList) (by decide) h⟩
  unfold memberSource memberEnd
  simp

/-! Signatures are told by the outline of a program -/

section

variable {α : Type} {pick : Member → Option α} (hpick : ∀ m, pick m.outline = pick m)
include hpick

theorem memberOfFirst_eq_outline (p : Program) :
    memberOfFirst pick p.statements = p.outline.head?.bind fun c => c.2.2.findSome? pick := by
  unfold memberOfFirst Program.outline
  rw [List.head?_map]
  cases (declaredClasses p.statements).head? with
  | none => rfl
  | some c => simp [ClassLike.outline, List.findSome?_map, Function.comp_def, hpick]

theorem Php.Program.locate_eq {p p' : Program} (h : p.outline = p'.outline ∧ p.faulty = p'.faulty)
    (what : String) :
    p.locate what (memberOfFirst pick) = p'.locate what (memberOfFirst pick) := by
  unfold Program.locate
  rw [memberOfFirst_eq_outline hpick, memberOfFirst_eq_outline hpick, h.1, h.2]

end

section

variable {s s' : Site} {gap : String} (hcontent : s'.content = s.content ++ gap ++ ";")
include hcontent

theorem completeMember_gap : completeMember s'.content = s.content ++ gap ++ ";" := by
  have hmem : ';' ∈ s'.content.toList := by simp [hcontent]
  exact (completeMember_finished hmem).trans hcontent

theorem constant?_gap (hgap : IsPadding gap.toList) :
    DeclarationLine.constant? s'.content = DeclarationLine.constant? s.content := by
  have hchars : s'.content.toList = s.content.toList ++ gap.toList ++ [';'] := by simp [hcontent]
  rw [DeclarationLine.constant?, DeclarationLine.constant?, hchars, Line.constant?_append]
  exact Line.overlooks_constant?.eq (.of_append hgap _)

variable (hsemicolon : ';' ∉ s.content.toList)
include hsemicolon

section

variable (hlast : ∀ c ∈ s.content.toList.getLast?, opensEnding c = false)
  (hwords : gap = "" ∨ ∃ ws, Scans (s.content.toList ++ memberEnd) ws ∧
    Scans (s.content.toList ++ (gap.toList ++ memberEnd)) ws)
include hlast hwords

theorem outline_eq_of_gap :
    (Program.parse (memberSource (completeMember s.content))).outline =
        (Program.parse (memberSource (completeMember s'.content))).outline ∧
      (Program.parse (memberSource (completeMember s.content))).faulty =
        (Program.parse (memberSource (completeMember s'.content))).faulty := by
  have hcomplete : completeMember s.content = s.content ++ ";" :=
    completeMember_plain hsemicolon hlast
  rw [hcomplete, completeMember_gap hcontent]
  rcases hwords with rfl | ⟨ws, hscans, hscans'⟩
  · rw [String.append_empty]
    exact ⟨rfl, rfl⟩
  · rw [← List.append_assoc, ← String.toList_append] at hscans'
    obtain ⟨rest, hsource, hrest⟩ := exists_scans_memberSource hscans
    obtain ⟨rest', hsource', hrest'⟩ := exists_scans_memberSource hscans'
    exact Program.outline_eq_of_scans hsource hsource' hrest hrest'

theorem PropertySignature.ofSite_eq : PropertySignature.ofSite s = PropertySignature.ofSite s' := by
  have houtline := outline_eq_of_gap hcontent hsemicolon hlast hwords
  unfold PropertySignature.ofSite
  exact Program.locate_eq (fun m => by cases m <;> rfl) houtline _

theorem ConstantSignature.ofSite_eq (hgap : IsPadding gap.toList) :
    ConstantSignature.ofSite s = ConstantSignature.ofSite s' := by
  have houtline := outline_eq_of_gap hcontent hsemicolon hlast hwords
  unfold ConstantSignature.ofSite
  dsimp only
  rw [constant?_gap hcontent hgap, Program.locate_eq (fun m => by cases m <;> rfl) houtline]

end

/-! A bracket that is closed at once -/

theorem completeMember_bracket {visibility middle : String}
    (hbody : s.content = visibility ++ " " ++ (middle ++ " = [")) :
    completeMember s.content = visibility ++ " " ++ (middle ++ (" = [" ++ "];")) ∧
      completeMember s'.content = visibility ++ " " ++ (middle ++ (" = [" ++ (gap ++ ";"))) := by
  have hlast : s.content.toList.getLast? = some '[' := by rw [hbody, getLast?_bracket]
  have hclosed : completeMember s.content = s.content ++ "];" :=
    completeMember_closing hsemicolon (by simp) hlast
  rw [hclosed, completeMember_gap hcontent, hbody]
  simp only [String.append_assoc, and_self]

section

variable {visibility x : String} (hvisibility : visibility ∈ Line.visibilities)
  (hx : IsIdentifier x.toList) (hspace : ∀ c ∈ gap.toList, isSpace c = true)
include hvisibility hx hspace

theorem PropertySignature.ofSite_bracket {h? : Option Hint} (hw : ∀ h ∈ h?, h.Written)
    (hstatic : ∀ h ∈ h?, firstKind h.words none ≠ some (.keyword .static))
    (hbody : s.content = visibility ++ " " ++ (typeText h? ++ "$" ++ x ++ " = [")) :
    PropertySignature.ofSite s = .ok ⟨x, UnionType.ofHint? h?⟩ ∧
      PropertySignature.ofSite s' = .ok ⟨x, UnionType.ofHint? h?⟩ := by
  obtain ⟨hclosed, hopen⟩ := completeMember_bracket hcontent hsemicolon hbody
  exact ⟨PropertySignature.ofSite_array hx endsArray_closed hvisibility hw hstatic hclosed,
    PropertySignature.ofSite_array hx (endsArray_open hspace) hvisibility hw hstatic hopen⟩

theorem ConstantSignature.ofSite_bracket (hgap : IsPadding gap.toList)
    (hhalt : wordKind x.toList ≠ .keyword .haltCompiler)
    (hbody : s.content = visibility ++ " " ++ ("const " ++ x ++ " = [")) :
    ∃ hint, ConstantSignature.ofSite s = .ok ⟨x, hint⟩ ∧
      ConstantSignature.ofSite s' = .ok ⟨x, hint⟩ := by
  obtain ⟨hclosed, hopen⟩ := completeMember_bracket hcontent hsemicolon hbody
  refine ⟨_, ConstantSignature.ofSite_array hx endsArray_closed hvisibility hhalt hclosed, ?_⟩
  rw [← constant?_gap hcontent hgap]
  exact ConstantSignature.ofSite_array hx (endsArray_open hspace) hvisibility hhalt hopen

end

end

/-! A quote after the one that closes a string -/

section

variable {q : Char} (hq : q = '\x27' ∨ q = '\x22')
include hq

theorem Php.scans_unclosed :
    Scans (q :: memberEnd) [(.unclosed, String.ofList (q :: memberEnd))] := by
  have hlexeme : Lexeme.ofCode q (memberEnd ++ []) =
      Lexeme.plain .unclosed (memberEnd.length + 1) := by
    rcases hq with rfl | rfl <;> rfl
  exact scans_take memberEnd hlexeme scans_nil

theorem Php.declaredClasses_of_unclosed {member : String} {ws : List Word}
    (hopen : ∀ w ∈ ws, w.1 ≠ .mark .closeBrace)
    (hreads : Reads (member.toList ++ q :: memberEnd) ws (q :: memberEnd)) :
    declaredClasses
      (Program.parse (memberSource (member ++ String.ofList [q] ++ ";"))).statements = [] := by
  have hchars : member.toList ++ q :: memberEnd =
      (member ++ String.ofList [q]).toList ++ memberEnd := by simp
  have hmember := hreads.scans (scans_unclosed hq)
  rw [hchars] at hmember
  obtain ⟨rest, hsource, hscans⟩ := exists_scans_memberSource hmember
  refine Program.declaredClasses_eq_nil fun t ht hk => ?_
  have hkind := kind_mem_words hsource hscans ht
  rw [hk] at hkind
  simp only [List.map_cons, List.map_append, List.map_nil, List.mem_cons, List.mem_append,
    List.not_mem_nil, or_false, Kind.mark.injEq, reduceCtorEq, false_or, List.mem_map] at hkind
  obtain ⟨w, hw, hclose⟩ := hkind
  exact hopen w hw hclose

end

theorem memberOfFirst_eq_none {α : Type} {pick : Member → Option α} {ss : List Statement}
    (h : declaredClasses ss = []) : memberOfFirst pick ss = none := by
  unfold memberOfFirst
  rw [h]
  rfl

section

variable {s : Site}
  (h : declaredClasses (Program.parse (memberSource (completeMember s.content))).statements = [])
include h

theorem PropertySignature.ofSite_ne_ok (p : PropertySignature) :
    PropertySignature.ofSite s ≠ .ok p := by
  intro hok
  unfold PropertySignature.ofSite at hok
  dsimp only at hok
  have hfound := Program.find_of_locate hok
  rw [memberOfFirst_eq_none h] at hfound
  cases hfound

theorem ConstantSignature.ofSite_ne_ok (c : ConstantSignature) :
    ConstantSignature.ofSite s ≠ .ok c := by
  intro hok
  unfold ConstantSignature.ofSite at hok
  dsimp only [bind, Except.bind] at hok
  split at hok
  · cases hok
  · next found hlocate =>
      have hfound := Program.find_of_locate hlocate
      rw [memberOfFirst_eq_none h] at hfound
      cases hfound

end

theorem content_bracket {s : Site} {line blanks indent visibility middle : String}
    (hblanks : ∀ c ∈ blanks.toList, isBlank c = true) (htext : s.text = line ++ blanks)
    (hindent : ∀ c ∈ indent.toList, c = ' ' ∨ c = '\t')
    (hvisibility : visibility ∈ Line.visibilities)
    (hline : line = indent ++ (visibility ++ " " ++ (middle ++ " = ["))) :
    s.content = visibility ++ " " ++ (middle ++ " = [") := by
  obtain ⟨v, hv⟩ := exists_visibilityWord hvisibility
  obtain ⟨first, more, hmore⟩ := List.exists_cons_of_ne_nil hv.identifier.2.1
  rw [Site.content, htext, trim_append_blanks hblanks, hline]
  refine trim_append (fun c hc => ?_) (fun c hc => ?_) (fun c hc => ?_)
  · rcases hindent c hc with rfl | rfl <;> decide
  · have hfirst : first ∈ visibility.toList := by simp [hmore]
    obtain rfl : first = c := by simpa [hmore] using hc
    exact isBlank_of_namePart (hv.identifier.2.2 _ hfirst)
  · rw [getLast?_bracket] at hc
    cases hc
    decide

theorem ofSite_unfinished {s s' : Site} {line gap blanks : String}
    (hblanks : ∀ c ∈ blanks.toList, isBlank c = true) (hgap : IsPadding gap.toList)
    (htext : s.text = line ++ gap ++ blanks) (htext' : s'.text = line ++ gap ++ ";" ++ blanks)
    (hsemicolon : ';' ∉ line.toList) (hlast : ∀ c ∈ line.toList.getLast?, isBlank c = false) :
    ((∀ c ∈ line.toList.getLast?, opensEnding c = false) →
      (gap = "" ∨ ∃ ws, Scans (s.content.toList ++ memberEnd) ws ∧
        Scans (s.content.toList ++ (gap.toList ++ memberEnd)) ws) →
      PropertySignature.ofSite s = PropertySignature.ofSite s' ∧
        ConstantSignature.ofSite s = ConstantSignature.ofSite s') ∧
    (∀ (q : Char) (ws : List Word), q = '\x27' ∨ q = '\x22' → line.toList.getLast? = some q →
      Reads (s.content.toList ++ q :: memberEnd) ws (q :: memberEnd) →
      (∀ w ∈ ws, w.1 ≠ .mark .closeBrace) →
      (∀ p, PropertySignature.ofSite s ≠ .ok p) ∧ ∀ c, ConstantSignature.ofSite s ≠ .ok c) ∧
    ∀ indent visibility x : String, (∀ c ∈ indent.toList, c = ' ' ∨ c = '\t') →
      visibility ∈ Line.visibilities → IsIdentifier x.toList →
      (∀ c ∈ gap.toList, isSpace c = true) →
      (∀ h? : Option Hint, (∀ h ∈ h?, h.Written) →
        (∀ h ∈ h?, firstKind h.words none ≠ some (.keyword .static)) →
        line = indent ++ (visibility ++ " " ++ (typeText h? ++ "$" ++ x ++ " = [")) →
        PropertySignature.ofSite s = .ok ⟨x, UnionType.ofHint? h?⟩ ∧
          PropertySignature.ofSite s' = .ok ⟨x, UnionType.ofHint? h?⟩) ∧
      (wordKind x.toList ≠ .keyword .haltCompiler →
        line = indent ++ (visibility ++ " " ++ ("const " ++ x ++ " = [")) →
        ∃ hint, ConstantSignature.ofSite s = .ok ⟨x, hint⟩ ∧
          ConstantSignature.ofSite s' = .ok ⟨x, hint⟩) := by
  have hends : ∀ c ∈ (gap ++ blanks).toList, isBlank c = true := by
    intro c hc
    rw [String.toList_append] at hc
    exact (List.mem_append.mp hc).elim (fun hc => (hgap c hc).1) (hblanks c)
  rw [String.append_assoc] at htext
  have hcontent : s.content = trim line := by
    rw [Site.content, htext, trim_append_blanks hends]
  obtain ⟨before, hbefore, hline⟩ := exists_append_trim hlast
  rw [← hcontent] at hline
  have hnone : ';' ∉ s.content.toList := by
    intro hm
    exact hsemicolon (hline ▸ List.mem_append_right before hm)
  -- blanks in front of a semicolon that stands alone are trimmed with the indentation
  obtain ⟨gap', hgap', hcontent'⟩ := exists_trim_semicolon hlast fun c hc => (hgap c hc).1
  rw [← trim_append_blanks hblanks, ← htext', ← hcontent] at hcontent'
  have hpadding : IsPadding gap'.toList := by
    rcases hgap' with rfl | rfl
    · exact isPadding_nil
    · exact hgap
  refine ⟨?_, ?_, ?_⟩
  · intro hplain hwords
    have hends : ∀ c ∈ s.content.toList.getLast?, opensEnding c = false := by
      intro c hc
      refine hplain c ?_
      rw [hline, List.getLast?_append, hc]
      rfl
    have hwords' : gap' = "" ∨ ∃ ws, Scans (s.content.toList ++ memberEnd) ws ∧
        Scans (s.content.toList ++ (gap'.toList ++ memberEnd)) ws := by
      rcases hgap' with rfl | rfl
      · exact .inl rfl
      · exact hwords
    exact ⟨PropertySignature.ofSite_eq hcontent' hnone hends hwords',
      ConstantSignature.ofSite_eq hcontent' hnone hends hwords' hpadding⟩
  · intro q ws hq hend hreads hopen
    have hquote : s.content.toList.getLast? = some q := by
      rw [hline, List.getLast?_append, Option.or_eq_some_iff] at hend
      rcases hend with hend | ⟨-, hend⟩
      · exact hend
      · -- a quote is no blank, so it is not in front of the content
        have hblank := hbefore q (List.mem_of_getLast? hend)
        rcases hq with rfl | rfl <;> exact absurd hblank (by decide)
    have hcomplete : completeMember s.content = s.content ++ (String.ofList [q] ++ ";") := by
      refine completeMember_closing hnone ?_ hquote
      rcases hq with rfl | rfl <;> decide
    have hundeclared : declaredClasses
        (Program.parse (memberSource (completeMember s.content))).statements = [] := by
      rw [hcomplete, ← String.append_assoc]
      exact declaredClasses_of_unclosed hq hopen hreads
    exact ⟨PropertySignature.ofSite_ne_ok hundeclared, ConstantSignature.ofSite_ne_ok hundeclared⟩
  · intro indent visibility x hindent hvisibility hx hspace
    have hspace' : ∀ c ∈ gap'.toList, isSpace c = true := by
      rcases hgap' with rfl | rfl
      · simp
      · exact hspace
    constructor
    · intro h? hw hstatic hbracket
      have hbody := content_bracket hends htext hindent hvisibility hbracket
      exact PropertySignature.ofSite_bracket hcontent' hnone hvisibility hx hspace' hw hstatic hbody
    · intro hhalt hbracket
      have hbody := content_bracket hends htext hindent hvisibility hbracket
      exact ConstantSignature.ofSite_bracket hcontent' hnone hvisibility hx hspace' hpadding hhalt
        hbody

def sampleClosedString : Site := ⟨"\tprivate $a = 'x'", "\t", 0, none⟩

theorem reads_closedString :
    Reads (sampleClosedString.content.toList ++ '\x27' :: memberEnd)
      [(.keyword .private_, "private"), (.variable, "$a"), (.mark .assign, "="),
        (.literal, "'x'")] ('\x27' :: memberEnd) := by
  have hchars : sampleClosedString.content.toList = "private $a = 'x'".toList := by decide
  rw [hchars]
  refine @Reads.take 'p' "rivate".toList _ _ _ _ rfl ?_
  refine @Reads.skip ' ' [] _ _ _ rfl ?_
  refine @Reads.take '$' ['a'] _ _ _ _ rfl ?_
  refine @Reads.skip ' ' [] _ _ _ rfl ?_
  refine @Reads.take '=' [] _ _ _ _ rfl ?_
  refine @Reads.skip ' ' [] _ _ _ rfl ?_
  exact @Reads.take '\x27' ['x', '\x27'] _ _ _ _ rfl (.done _)

theorem scans_assignedOne {gap : List Char} (hgap : gap = [] ∨ gap = [' ']) :
    Scans ("private $a = 1".toList ++ (gap ++ memberEnd))
      [(.keyword .private_, "private"), (.variable, "$a"), (.mark .assign, "="), (.literal, "1"),
        semicolonWord, (.mark .closeBrace, "\x7d")] := by
  have hblanks {bs : List Char} (hbs : bs = [' ', '\n', ' '] ∨ bs = [' ', '\n'] ∨ bs = gap) :
      ∀ c ∈ bs, isSpace c = true := by
    refine List.all_eq_true.mp ?_
    rcases hbs with rfl | rfl | rfl
    · decide
    · decide
    · rcases hgap with rfl | rfl <;> decide
  have hclass := scans_mark ofCode_closeBrace (scans_blanks (hblanks (.inr (.inl rfl))) scans_nil)
  have hend := scans_blanks (hblanks (.inr (.inr rfl)))
    (scans_mark ofCode_semicolon (scans_blanks (hblanks (.inl rfl)) hclass))
  have hreads : Reads ("private $a = 1".toList ++ (gap ++ memberEnd))
      [(.keyword .private_, "private"), (.variable, "$a"), (.mark .assign, "="), (.literal, "1")]
      (gap ++ memberEnd) := by
    refine @Reads.take 'p' "rivate".toList _ _ _ _ rfl ?_
    refine @Reads.skip ' ' [] _ _ _ rfl ?_
    refine @Reads.take '$' ['a'] _ _ _ _ rfl ?_
    refine @Reads.skip ' ' [] _ _ _ rfl ?_
    refine @Reads.take '=' [] _ _ _ _ rfl ?_
    refine @Reads.skip ' ' [] _ _ _ rfl ?_
    refine @Reads.take '1' [] _ _ _ _ ?_ (.done _)
    rcases hgap with rfl | rfl <;> rfl
  exact hreads.scans hend

theorem ofSite_unfinished_sample :
    PropertySignature.ofSite ⟨"private $a = 1 ", "", 0, none⟩ =
        PropertySignature.ofSite ⟨"private $a = 1; ", "", 0, none⟩ ∧
      PropertySignature.ofSite ⟨"private $a = 1 ", "", 0, none⟩ =
        PropertySignature.ofSite ⟨"private $a = 1 ;", "", 0, none⟩ ∧
      (∀ p, PropertySignature.ofSite sampleClosedString ≠ .ok p) ∧
      PropertySignature.ofSite ⟨"\tprivate $a = [", "\t", 0, none⟩ = .ok ⟨"a", {}⟩ ∧
      PropertySignature.ofSite ⟨"\tprivate $a = [;", "\t", 0, none⟩ = .ok ⟨"a", {}⟩ := by
  have hone : ∀ c ∈ "private $a = 1".toList.getLast?,
      isBlank c = false ∧ opensEnding c = false := by
    rintro c ⟨⟩
    decide
  refine ⟨?_, ?_, ?_, ?_⟩
  · exact ((@ofSite_unfinished _ _ "private $a = 1" "" " " (List.all_eq_true.mp (by decide))
      isPadding_nil rfl rfl (by decide) fun c hc => (hone c hc).1).1 (fun c hc => (hone c hc).2)
      (.inl rfl)).1
  · have hgap : IsPadding [' '] := by simp [IsPadding, isBlank]
    have hcontent : (⟨"private $a = 1 ", "", 0, none⟩ : Site).content.toList =
        "private $a = 1".toList := by decide
    refine ((@ofSite_unfinished _ _ "private $a = 1" " " "" (by simp) hgap rfl rfl (by decide)
      fun c hc => (hone c hc).1).1 (fun c hc => (hone c hc).2) (.inr ?_)).1
    rw [hcontent]
    exact ⟨_, scans_assignedOne (.inl rfl), scans_assignedOne (.inr rfl)⟩
  · refine ((@ofSite_unfinished sampleClosedString ⟨sampleClosedString.text ++ ";", "\t", 0, none⟩
      sampleClosedString.text "" "" ?_ isPadding_nil ?_ ?_ ?_ ?_).2.1 '\x27' _ (.inl rfl) ?_
      reads_closedString ?_).1
    · simp
    · simp
    · simp
    · decide
    · rintro c ⟨⟩
      decide
    · decide
    · simp
  · refine ((@ofSite_unfinished _ _ "\tprivate $a = [" "" "" ?_ isPadding_nil rfl rfl ?_ ?_).2.2
      "\t" "private" "a" ?_ ?_ ?_ ?_).1 none ?_ ?_ rfl
    · simp
    · decide
    · rintro c ⟨⟩
      decide
    · simp
    · decide
    · decide
    · simp
    · simp
    · simp

/-- A name goes on through a blank that stands in front of a semicolon, if it is none to the
grammar. -/
theorem ofSite_misread :
    (PropertySignature.ofSite ⟨sampleClosedString.text ++ ";", "\t", 0, none⟩).toOption =
        some ⟨"a", {}⟩ ∧
      (PropertySignature.ofSite sampleClosedString).toOption = none ∧
      (PropertySignature.ofSite ⟨"private $a\u00a0;", "", 0, none⟩).toOption =
        some ⟨"a\u00a0", {}⟩ ∧
      (PropertySignature.ofSite ⟨"private $a\u00a0", "", 0, none⟩).toOption =
        some ⟨"a", {}⟩ := by
  decide +kernel

end Scaffold
