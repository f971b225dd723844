import Scaffold.Proofs.Site
import Scaffold.Proofs.TrailingBlanks
import Scaffold.Proofs.Occurrences
/-!
Blanks around a line do not count. Every recogniser drops the blanks before a line and overlooks those
after it, because no declaration ends with a word that must have blanks after it. So a line as it
stands in its document and the same line without the blanks around it are told apart by none of them.
-/
namespace Scaffold

open Text

namespace Line

theorem overlooks_name : Overlooks SameRest (run? isWordChar) :=
  overlooks_run? fun _ => isBlank_of_isWordChar

theorem overlooks_named {β : Type} (f : List Char → β) :
    Overlooks Eq fun rest => (run? isWordChar rest).bind fun name => some (f name.1) :=
  Overlooks.bind overlooks_name fun taken => overlooks_some (f taken)

theorem overlooks_classLike? : Overlooks Eq classLike? := by
  have hkeywords : ∀ w ∈ classKeywords, NoBlanks w.toList := by decide
  have hkeyword := (overlooksInside_spaced? hkeywords).bind (fun w => overlooks_named fun name =>
    DeclarationLine.classLike w (String.ofList name)) fun _ => rfl
  have hword : ∀ w ∈ classModifiers, spaced? classKeywords w.toList = none := by decide
  refine (Overlooks.spacedRun (by decide) (fun _ => hkeyword) (fun _ => rfl) ?_).dropBlanks
  intro _ w hw
  rw [hword w hw]
  rfl

def afterAmpersand : List Char → List Char
  | '&' :: cs => cs
  | cs => cs

theorem afterAmpersand_sameButEnd {cs cs' : List Char} (h : SameButEnd cs cs') :
    SameButEnd (afterAmpersand cs) (afterAmpersand cs') := by
  have hplain {cs : List Char} (hcs : '&' ∉ cs.head?) : afterAmpersand cs = cs := by
    unfold afterAmpersand
    split
    · exact absurd rfl hcs
    · rfl
  cases h with
  | padding hbs hbs' =>
      have hnot {bs : List Char} (hbs : IsPadding bs) : '&' ∉ bs.head? := fun hmem =>
        absurd (hbs _ (List.mem_of_head? hmem)).1 (by decide)
      rw [hplain (hnot hbs), hplain (hnot hbs')]
      exact .padding hbs hbs'
  | cons c h =>
      by_cases hc : c = '&'
      · subst hc
        exact h
      · have hnot (cs : List Char) : '&' ∉ (c :: cs).head? := by simpa using hc
        rw [hplain (hnot _), hplain (hnot _)]
        exact h.cons c

theorem overlooks_function? : Overlooks Eq function? := by
  have hkeywords : ∀ w ∈ ["function"], NoBlanks w.toList := by decide
  have hname (ws : List String) : Overlooks Eq fun rest =>
      (run? isWordChar (afterAmpersand rest)).bind fun name =>
        some (DeclarationLine.function (String.ofList name.1) (ws.contains "static")) := by
    intro cs cs' h
    exact overlooks_named (fun name => DeclarationLine.function (String.ofList name)
      (ws.contains "static")) (afterAmpersand_sameButEnd h)
  have hkeyword (ws : List String) :=
    (overlooksInside_spaced? hkeywords).bind (fun _ => hname ws) fun _ => rfl
  have hword : ∀ w ∈ functionModifiers, spaced? ["function"] w.toList = none := by decide
  refine (Overlooks.spacedRun (by decide) hkeyword (fun _ => rfl) ?_).dropBlanks
  intro _ w hw
  rw [hword w hw]
  rfl

theorem overlooks_assigned? : Overlooks SameRest assigned? := by
  have hequals (name : List Char) : Overlooks SameRest fun rest =>
      (List.isPrefixOf? ['='] (dropBlanks rest)).bind fun value => some (String.ofList name, value) := by
    intro cs cs' h found hfound
    obtain ⟨rest, hstrip, hfound⟩ := Option.bind_eq_some_iff.mp hfound
    obtain ⟨rest', hstrip', hrest⟩ := overlooks_isPrefixOf? (by decide) h.dropBlanks hstrip
    obtain ⟨found', hfound', hsame⟩ := overlooks_rest _ hrest hfound
    exact ⟨found', Option.bind_eq_some_iff.mpr ⟨rest', hstrip', hfound'⟩, hsame⟩
  exact Overlooks.bind overlooks_name hequals

theorem overlooksInside_typeAfter? (mark : List Char) : OverlooksInside (typeAfter? mark) := by
  intro cs cs' h token rest htype
  obtain ⟨taken, left, hrun, hblanks, rfl⟩ := typeAfter?_eq_some htype
  obtain ⟨⟨_, left'⟩, hrun', rfl, hleft⟩ := overlooks_run? (fun _ => isBlank_of_isTypeChar) h hrun
  rcases hleft.blanks? hblanks with hrest | ⟨rest', hblanks', hrest⟩
  · exact .inl hrest
  · exact .inr ⟨rest', by simp [typeAfter?, hrun', hblanks'], hrest⟩

theorem overlooksInside_typeToken? : OverlooksInside typeToken? := by
  intro cs cs' h token rest htype
  have hmark {cs cs' : List Char} (h : SameButEnd cs cs') (hcs : cs.head? = some '?') :
      ∃ body body', cs = '?' :: body ∧ cs' = '?' :: body' ∧ SameButEnd body body' := by
    obtain ⟨body, rfl⟩ := List.head?_eq_some_iff.mp hcs
    obtain ⟨body', rfl, hbody⟩ := h.append_inv (w := ['?']) (by decide)
    exact ⟨body, body', rfl, rfl, hbody⟩
  by_cases hcs : cs.head? = some '?'
  · obtain ⟨body, body', rfl, rfl, hbody⟩ := hmark h hcs
    exact overlooksInside_typeAfter? ['?'] hbody htype
  · have hcs' : cs'.head? ≠ some '?' := by
      intro hcs'
      obtain ⟨body', body, rfl, rfl, -⟩ := hmark h.symm hcs'
      exact hcs rfl
    rw [typeToken?_plain hcs] at htype
    rw [typeToken?_plain hcs']
    exact overlooksInside_typeAfter? [] h htype

def SameHead (x y : Option String × String × List Char) : Prop :=
  x.1 = y.1 ∧ SameRest x.2 y.2

theorem overlooks_head (type? : Option String) (name : String) :
    Overlooks SameHead fun rest => some (type?, name, rest) := by
  intro cs cs' h found hfound
  cases hfound
  exact ⟨_, rfl, rfl, rfl, h⟩

theorem overlooks_typedAssigned? : Overlooks SameHead typedAssigned? := by
  have hassigned (type? : Option String) :=
    Overlooks.bind overlooks_assigned? (overlooks_head type?)
  have htyped := overlooksInside_typeToken?.bind (fun type => hassigned (some type)) fun _ => rfl
  exact htyped.or (hassigned none)

theorem overlooks_constant? : Overlooks Eq constant? := by
  have hvalue (_ : String) : Overlooks Eq fun rest => (typedAssigned? rest).bind fun found =>
      if (dropBlanks found.2.2).contains '\n' then none
      else some (DeclarationLine.constant found.1 found.2.1) := by
    intro cs cs' h d hd
    obtain ⟨⟨type?, name, value⟩, hfound, hd⟩ := Option.bind_eq_some_iff.mp hd
    obtain ⟨⟨_, _, value'⟩, hfound', rfl, rfl, hsame⟩ := overlooks_typedAssigned? h hfound
    refine ⟨d, Option.bind_eq_some_iff.mpr ⟨_, hfound', ?_⟩, rfl⟩
    rw [hsame.dropBlanks.contains_eq (.inr rfl)] at hd
    exact hd
  have hconst : ∀ w ∈ ["const"], NoBlanks w.toList := by decide
  have hfinal : ∀ w ∈ ["final"], NoBlanks w.toList := by decide
  have hvisible : ∀ w ∈ visibilities, NoBlanks w.toList := by decide
  have hkeyword := (overlooksInside_spaced? hconst).bind hvalue fun _ => rfl
  have hlast := hkeyword.skipSpaced hfinal rfl (by decide)
  have hmiddle := hlast.skipSpaced hvisible rfl (by decide)
  exact (hmiddle.skipSpaced hfinal rfl (by decide)).dropBlanks

def typedDollar? (cs : List Char) : Option (Option String × List Char) :=
  match typeToken? cs with
  | some (type, '$' :: rest) => some (some type, rest)
  | _ => (List.isPrefixOf? ['$'] cs).map (none, ·)

theorem propertyHead?_eq (cs : List Char) :
    propertyHead? cs = (spaced? visibilities (skipSpaced ["readonly"] (dropBlanks cs))).bind
      fun found => (typedDollar? (spacedRun ["static", "readonly"] found.2).2).bind fun found =>
        (run? isWordChar found.2).bind fun name =>
          some (found.1, String.ofList name.1, name.2) := by
  unfold propertyHead?
  refine Option.bind_congr fun found _ => ?_
  dsimp only
  generalize (spacedRun ["static", "readonly"] found.2).2 = rest
  split
  · next htype =>
      rw [typedDollar?, htype]
      rfl
  · next hother =>
      rw [typedDollar?]
      split
      · next htype => exact (hother _ _ htype).elim
      · rfl

theorem overlooks_typedDollar? : Overlooks SameRest typedDollar? := by
  intro cs cs' h found hfound
  unfold typedDollar? at hfound
  split at hfound
  · next type rest htype =>
      cases hfound
      rcases overlooksInside_typeToken? h htype with hnil | ⟨_, htype', hsame⟩
      · cases hnil
      · obtain ⟨rest', rfl, hrest⟩ := hsame.append_inv (w := ['$']) (by decide)
        refine ⟨(some type, rest'), ?_, rfl, hrest⟩
        rw [typedDollar?, htype']
        rfl
  · obtain ⟨rest, hstrip, rfl⟩ := Option.map_eq_some_iff.mp hfound
    obtain ⟨rest', hstrip', hrest⟩ := overlooks_isPrefixOf? (by decide) h hstrip
    refine ⟨(none, rest'), ?_, rfl, hrest⟩
    have htype : typeToken? cs' = none := by
      cases htype : typeToken? cs' with
      | none => rfl
      | some found =>
          obtain rfl := eq_append_of_isPrefixOf? hstrip'
          exact absurd rfl (typeToken?_eq_some htype).2
    rw [typedDollar?, htype]
    exact Option.map_eq_some_iff.mpr ⟨rest', hstrip', rfl⟩

theorem overlooks_propertyHead? : Overlooks SameHead propertyHead? := by
  have hname (type? : Option String) := Overlooks.bind overlooks_name fun name =>
    overlooks_head type? (String.ofList name)
  have hdollar := Overlooks.bind overlooks_typedDollar? hname
  have hmore : ∀ w ∈ ["static", "readonly"], NoBlanks w.toList := by decide
  have hword : ∀ w ∈ ["static", "readonly"], typedDollar? w.toList = none := by decide
  have hmodifiers := Overlooks.spacedRun hmore (fun _ => hdollar) (fun _ => rfl) fun _ w hw => by
    rw [hword w hw]
    rfl
  have hvisibilities : ∀ w ∈ visibilities, NoBlanks w.toList := by decide
  have hvisible := (overlooksInside_spaced? hvisibilities).bind (fun _ => hmodifiers) fun _ => by
    rw [spacedRun_nil (spaced?_nil hmore)]
    rfl
  have hreadonly : ∀ w ∈ ["readonly"], NoBlanks w.toList := by decide
  rw [funext propertyHead?_eq]
  exact (hvisible.skipSpaced hreadonly rfl (by decide)).dropBlanks

theorem overlooks_property? : Overlooks Eq property? := by
  intro cs cs' h d hd
  unfold property? at hd ⊢
  obtain ⟨⟨type?, name, rest⟩, hhead, hd⟩ := Option.bind_eq_some_iff.mp hd
  obtain ⟨⟨_, _, rest'⟩, hhead', rfl, rfl, hsame⟩ := overlooks_propertyHead? h hhead
  refine ⟨d, Option.bind_eq_some_iff.mpr ⟨_, hhead', ?_⟩, rfl⟩
  have hrest := hsame.dropBlanks
  dsimp only at hd hrest ⊢
  split at hd
  · next more heq =>
      rw [heq] at hrest
      obtain ⟨more', heq', -⟩ := hrest.append_inv (w := [';']) (by decide)
      rw [heq']
      exact hd
  · next value heq =>
      rw [heq] at hrest
      obtain ⟨value', heq', hvalue⟩ := hrest.append_inv (w := ['=']) (by decide)
      rw [hvalue.contains_eq (.inl (by decide))] at hd
      rw [heq']
      exact hd
  · cases hd

def ofKind? : DeclarationKind → List Char → Option DeclarationLine
  | .classLike => classLike?
  | .constant => constant?
  | .property => property?
  | .function => function?

theorem overlooks_ofKind? (k : DeclarationKind) : Overlooks Eq (ofKind? k) := by
  cases k with
  | classLike => exact overlooks_classLike?
  | constant => exact overlooks_constant?
  | property => exact overlooks_property?
  | function => exact overlooks_function?

section

variable {bs : List Char} (hbs : ∀ c ∈ bs, isBlank c = true)
include hbs

theorem propertyHead?_blanks (cs : List Char) : propertyHead? (bs ++ cs) = propertyHead? cs := by
  rw [propertyHead?, dropBlanks_append_of_blank hbs]
  rfl

theorem ofKind?_blanks (k : DeclarationKind) (cs : List Char) :
    ofKind? k (bs ++ cs) = ofKind? k cs := by
  cases k with
  | classLike =>
      rw [ofKind?, classLike?, dropBlanks_append_of_blank hbs]
      rfl
  | constant =>
      rw [ofKind?, constant?, dropBlanks_append_of_blank hbs]
      rfl
  | property =>
      rw [ofKind?, property?, propertyHead?_blanks hbs]
      rfl
  | function =>
      rw [ofKind?, function?, dropBlanks_append_of_blank hbs]
      rfl

end

end Line

/-! Lines -/

namespace DeclarationLine

structure SameReading (line line' : String) : Prop where
  parsed : parse? line = parse? line'
  kinds : ∀ k, ofKind? k line = ofKind? k line'
  starts : startsProperty line = startsProperty line'

theorem sameReading_of_blanks {line core : String} {before after : List Char}
    (hline : line.toList = before ++ (core.toList ++ after))
    (hbefore : ∀ c ∈ before, isBlank c = true) (hafter : IsPadding after) :
    SameReading line core := by
  have hend := SameButEnd.of_append hafter core.toList
  have hchars (k : DeclarationKind) (line : String) :
      ofKind? k line = Line.ofKind? k line.toList := by
    cases k <;> rfl
  have hkind (k : DeclarationKind) : ofKind? k line = ofKind? k core := by
    rw [hchars, hchars, hline, Line.ofKind?_blanks hbefore, (Line.overlooks_ofKind? k).eq hend]
  refine ⟨?_, hkind, ?_⟩
  · rw [parse?_eq_findSome?, parse?_eq_findSome?, funext hkind]
  · rw [startsProperty, hline, Line.propertyHead?_blanks hbefore,
      Line.overlooks_propertyHead?.isSome_eq hend]
    rfl

theorem sameReading_trim {line : String} (hline : Lacks '\n' line) :
    SameReading line (trim line) := by
  obtain ⟨before, after, hbefore, hafter, hchars⟩ := exists_blanks_trim line
  refine sameReading_of_blanks hchars hbefore fun c hc => ⟨hafter c hc, ?_⟩
  rintro rfl
  exact hline (by simp [hchars, hc])

theorem lacks_feed_of_ofLine? {document : String} {k : Nat} {s : Site}
    (h : Site.ofLine? document k = some s) : Lacks '\n' s.text := by
  obtain ⟨l, hl, hs⟩ := List.mem_map.mp (List.mem_of_getElem? (Site.text_of_ofLine? h))
  obtain ⟨p, hp, hsub⟩ := subset_of_mem_lineChars hl
  intro hmem
  rw [← hs, String.toList_ofList] at hmem
  exact feed_not_mem_splitChars hp (hsub _ hmem)

theorem sameReading_padded {line : String} (hline : Lacks '\n' line) :
    SameReading line (trim line) ∧
      (∀ before after : String, IsPadding before.toList → IsPadding after.toList →
        SameReading (before ++ line ++ after) line) ∧
      ∀ document k s, Site.ofLine? document k = some s → SameReading s.text s.content := by
  refine ⟨sameReading_trim hline, fun before after hbefore hafter => ?_, fun document k s h => ?_⟩
  · exact sameReading_of_blanks (by simp) (fun c hc => (hbefore c hc).1) hafter
  · exact sameReading_trim (lacks_feed_of_ofLine? h)

/-- A constant with nothing after its equals sign but blanks of several kinds. -/
theorem sameReading_padded_constant :
    let line := "\u00a0final\tconst\u3000A =\u2003\u0085"
    Lacks '\n' line ∧ trim line = "final\tconst\u3000A =" ∧
      constant? (trim line) = some (.constant none "A") ∧
      constant? line = some (.constant none "A") ∧ parse? line = parse? (trim line) := by
  intro line
  have hline : Lacks '\n' line := by decide
  have hsame := (sameReading_padded hline).1
  have htrim : trim line = "final\tconst\u3000A =" := by decide
  have hconstant : constant? (trim line) = some (.constant none "A") := by decide +kernel
  exact ⟨hline, htrim, hconstant, (hsame.kinds .constant).trans hconstant, hsame.parsed⟩

-- A line feed is a blank that counts: a constant's value does not run over it.
example : constant? "const A = 1\n" = none ∧
    constant? (trim "const A = 1\n") = some (.constant none "A") := by
  decide +kernel

end DeclarationLine

end Scaffold
