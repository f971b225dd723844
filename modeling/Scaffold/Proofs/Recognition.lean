import Scaffold.Proofs.OneLine
/-!
What a recognised line is known to hold: a keyword of its kind and a name. A line without a keyword,
such as one of a file that only opens with its tag, declares nothing.
-/
namespace Scaffold

open Php Text

namespace Line

theorem kind_of_classLike? {cs : List Char} {d : DeclarationLine} (h : classLike? cs = some d) :
    d.kind = .classLike := by
  unfold classLike? at h
  simp only [Option.bind_eq_bind, Option.bind_eq_some_iff] at h
  obtain ⟨_, -, _, -, h⟩ := h
  cases h
  rfl

theorem kind_of_constant? {cs : List Char} {d : DeclarationLine} (h : constant? cs = some d) :
    d.kind = .constant := by
  unfold constant? at h
  simp only [Option.bind_eq_bind, Option.bind_eq_some_iff] at h
  obtain ⟨_, -, _, -, h⟩ := h
  split at h
  · exact nomatch h
  · cases h
    rfl

theorem kind_of_property? {cs : List Char} {d : DeclarationLine} (h : property? cs = some d) :
    d.kind = .property := by
  unfold property? at h
  simp only [Option.bind_eq_bind, Option.bind_eq_some_iff] at h
  obtain ⟨_, -, h⟩ := h
  split at h
  · cases h
    rfl
  · split at h
    · cases h
      rfl
    · exact nomatch h
  · exact nomatch h

theorem kind_of_function? {cs : List Char} {d : DeclarationLine} (h : function? cs = some d) :
    d.kind = .function := by
  unfold function? at h
  simp only [Option.bind_eq_bind, Option.bind_eq_some_iff] at h
  obtain ⟨_, -, _, -, h⟩ := h
  cases h
  rfl

end Line

namespace DeclarationLine

def ofKind? : DeclarationKind → String → Option DeclarationLine
  | .classLike => classLike?
  | .constant => constant?
  | .property => property?
  | .function => function?

theorem ofKind?_of_parse? {text : String} {d : DeclarationLine} (h : parse? text = some d) :
    ofKind? d.kind text = some d := by
  unfold parse? at h
  rw [Option.or_eq_some_iff, Option.or_eq_some_iff, Option.or_eq_some_iff] at h
  rcases h with (h | ⟨-, h⟩) | ⟨-, h | ⟨-, h⟩⟩
  · rw [Line.kind_of_classLike? h]
    exact h
  · rw [Line.kind_of_constant? h]
    exact h
  · rw [Line.kind_of_property? h]
    exact h
  · rw [Line.kind_of_function? h]
    exact h

theorem property?_of_parse? {text : String} {d : DeclarationLine}
    (h : parse? text = some d) (hk : d.kind = .property) : property? text = some d := by
  have hd := ofKind?_of_parse? h
  rwa [hk] at hd

end DeclarationLine

namespace Line

theorem isSpace_of_isTypeChar {c : Char} (h : isTypeChar c = true) : isSpace c = false := by
  simp only [isTypeChar, Bool.or_eq_true, beq_iff_eq] at h
  rcases h with (h | rfl) | rfl
  · exact isSpace_of_isWordChar h
  · decide
  · decide

def typeAfter? (mark body : List Char) : Option (String × List Char) :=
  (run? isTypeChar body).bind fun found =>
    (blanks? found.2).bind fun rest => some (String.ofList (mark ++ found.1), rest)

theorem typeToken?_plain {cs : List Char} (h : cs.head? ≠ some '?') :
    typeToken? cs = typeAfter? [] cs := by
  unfold typeToken?
  split
  · next heq =>
      split at heq
      · exact absurd rfl h
      · cases heq
        rfl

theorem typeAfter?_eq_some {mark body rest : List Char} {token : String}
    (h : typeAfter? mark body = some (token, rest)) :
    ∃ taken left, run? isTypeChar body = some (taken, left) ∧ blanks? left = some rest ∧
      token = String.ofList (mark ++ taken) := by
  simp only [typeAfter?, Option.bind_eq_some_iff] at h
  obtain ⟨⟨taken, left⟩, hrun, rest', hblanks, hpure⟩ := h
  cases hpure
  exact ⟨taken, left, hrun, hblanks, rfl⟩

theorem onOneLine_of_typeToken? {cs rest : List Char} {token : String}
    (h : typeToken? cs = some (token, rest)) : Lacks '\n' token := by
  have hafter {mark body : List Char} (hmark : Lacks '\n' (String.ofList mark))
      (h : typeAfter? mark body = some (token, rest)) : Lacks '\n' token := by
    obtain ⟨taken, left, hrun, -, rfl⟩ := typeAfter?_eq_some h
    have htaken : Lacks '\n' (String.ofList taken) := onOneLine_of_isSolid (by
      rw [String.toList_ofList]
      exact isSolid_of_run? (fun _ => isSpace_of_isTypeChar) hrun)
    rw [String.ofList_append]
    exact hmark.append htaken
  by_cases hcs : cs.head? = some '?'
  · obtain ⟨body, rfl⟩ := List.head?_eq_some_iff.mp hcs
    exact hafter (by simp [Lacks]) h
  · rw [typeToken?_plain hcs] at h
    exact hafter (by simp [Lacks]) h

theorem isSolid_of_assigned? {cs rest : List Char} {name : String}
    (h : assigned? cs = some (name, rest)) : IsSolid name.toList := by
  unfold assigned? at h
  simp only [Option.bind_eq_bind, Option.bind_eq_some_iff] at h
  obtain ⟨⟨taken, left⟩, hrun, _, -, hpure⟩ := h
  cases hpure
  rw [String.toList_ofList]
  exact isSolid_of_run? (fun _ => isSpace_of_isWordChar) hrun

theorem isSolid_of_typedAssigned? {cs rest : List Char} {type? : Option String} {name : String}
    (h : typedAssigned? cs = some (type?, name, rest)) : IsSolid name.toList := by
  unfold typedAssigned? at h
  simp only [Option.bind_eq_bind, Option.or_eq_some_iff, Option.bind_eq_some_iff] at h
  rcases h with ⟨_, -, ⟨name', rest'⟩, hassigned, hpure⟩ | ⟨-, ⟨name', rest'⟩, hassigned, hpure⟩
  · cases hpure
    exact isSolid_of_assigned? hassigned
  · cases hpure
    exact isSolid_of_assigned? hassigned

theorem onOneLine_of_typedAssigned? {cs rest : List Char} {token name : String}
    (h : typedAssigned? cs = some (some token, name, rest)) : Lacks '\n' token := by
  unfold typedAssigned? at h
  simp only [Option.bind_eq_bind, Option.or_eq_some_iff, Option.bind_eq_some_iff] at h
  rcases h with ⟨⟨token', _⟩, htoken, _, -, hpure⟩ | ⟨-, _, -, hpure⟩
  · cases hpure
    exact onOneLine_of_typeToken? htoken
  · exact nomatch hpure

theorem onOneLine_of_constant? {cs : List Char} {token name : String}
    (h : constant? cs = some (.constant (some token) name)) : Lacks '\n' token := by
  unfold constant? at h
  simp only [Option.bind_eq_bind, Option.bind_eq_some_iff] at h
  obtain ⟨_, -, ⟨type', name', value⟩, htyped, h⟩ := h
  split at h
  · exact nomatch h
  · cases h
    exact onOneLine_of_typedAssigned? htyped

theorem isSolid_of_constant? {cs : List Char} {type? : Option String} {name : String}
    (h : constant? cs = some (.constant type? name)) : IsSolid name.toList := by
  unfold constant? at h
  simp only [Option.bind_eq_bind, Option.bind_eq_some_iff] at h
  obtain ⟨_, -, ⟨type', name', value⟩, htyped, h⟩ := h
  have hname := isSolid_of_typedAssigned? htyped
  split at h
  · exact nomatch h
  · cases h
    exact hname

theorem isSolid_of_function? {cs : List Char} {name : String} {isStatic : Bool}
    (h : function? cs = some (.function name isStatic)) : IsSolid name.toList := by
  unfold function? at h
  simp only [Option.bind_eq_bind, Option.bind_eq_some_iff] at h
  obtain ⟨_, -, ⟨taken, left⟩, hrun, hpure⟩ := h
  cases hpure
  rw [String.toList_ofList]
  exact isSolid_of_run? (fun _ => isSpace_of_isWordChar) hrun

end Line

theorem DeclarationLine.isSolid_of_parse? {text : String} {d : DeclarationLine}
    (h : parse? text = some d) : IsSolid d.signature.name.toList := by
  have hd := ofKind?_of_parse? h
  cases d with
  | classLike keyword name => exact Line.isSolid_of_classLike? hd
  | constant type? name => exact Line.isSolid_of_constant? hd
  | property type? name => exact Line.isSolid_of_property? hd
  | function name isStatic => exact Line.isSolid_of_function? hd

namespace Text

theorem dropBlanks_suffix (cs : List Char) : dropBlanks cs <:+ cs :=
  List.dropWhile_suffix isBlank

theorem blanks?_suffix {cs rest : List Char} (h : blanks? cs = some rest) : rest <:+ cs := by
  cases cs with
  | nil => simp [blanks?] at h
  | cons c cs =>
      simp only [blanks?] at h
      split at h
      · cases h
        exact (dropBlanks_suffix cs).trans (List.suffix_cons c cs)
      · simp at h

theorem spaced?_eq_some {words : List String} {cs rest : List Char} {w : String}
    (h : spaced? words cs = some (w, rest)) : w ∈ words ∧ w.toList ⊆ cs ∧ rest <:+ cs := by
  obtain ⟨w', hw, h⟩ := List.exists_of_findSome?_eq_some h
  simp only [Option.bind_eq_bind, Option.bind_eq_some_iff] at h
  obtain ⟨after, hstrip, rest', hblanks, hpure⟩ := h
  cases hpure
  have hcs := eq_append_of_isPrefixOf? hstrip
  refine ⟨hw, ?_, ?_⟩
  · rw [hcs]
    exact List.subset_append_left _ _
  · rw [hcs]
    exact (blanks?_suffix hblanks).trans (List.suffix_append _ _)

theorem spacedRun_suffix (words : List String) (cs : List Char) :
    (spacedRun words cs).2 <:+ cs := by
  fun_induction spacedRun words cs with
  | case1 cs h => exact List.suffix_refl cs
  | case2 cs w rest h hlt ws rest' hrun ih =>
      rw [hrun] at ih
      exact ih.trans (spaced?_eq_some h).2.2
  | case3 cs w rest h hlt => exact List.suffix_refl cs

theorem skipSpaced_suffix (words : List String) (cs : List Char) : skipSpaced words cs <:+ cs := by
  unfold skipSpaced
  split
  · next h => exact (spaced?_eq_some h).2.2
  · exact List.suffix_refl cs

end Text

namespace Line

def keywords : List String :=
  ["class", "interface", "trait", "enum", "const", "public", "protected", "private", "function"]

def HoldsKeyword (cs : List Char) : Prop :=
  ∃ w ∈ keywords, w.toList ⊆ cs

theorem holdsKeyword_of_spaced? {words : List String} {cs rest : List Char}
    {found : String × List Char} (h : spaced? words rest = some found)
    (hwords : words ⊆ keywords) (hrest : rest <:+ cs) : HoldsKeyword cs := by
  obtain ⟨w, after⟩ := found
  obtain ⟨hw, hsub, -⟩ := spaced?_eq_some h
  exact ⟨w, hwords hw, fun c hc => hrest.subset (hsub hc)⟩

theorem holdsKeyword_of_classLike? {cs : List Char} {d : DeclarationLine}
    (h : classLike? cs = some d) : HoldsKeyword cs := by
  unfold classLike? at h
  simp only [Option.bind_eq_bind, Option.bind_eq_some_iff] at h
  obtain ⟨_, hspaced, -⟩ := h
  exact holdsKeyword_of_spaced? hspaced (by decide)
    ((spacedRun_suffix _ _).trans (dropBlanks_suffix cs))

theorem holdsKeyword_of_constant? {cs : List Char} {d : DeclarationLine}
    (h : constant? cs = some d) : HoldsKeyword cs := by
  unfold constant? at h
  simp only [Option.bind_eq_bind, Option.bind_eq_some_iff] at h
  obtain ⟨_, hspaced, -⟩ := h
  have hfirst := (skipSpaced_suffix ["final"] (dropBlanks cs)).trans (dropBlanks_suffix cs)
  exact holdsKeyword_of_spaced? hspaced (by decide)
    ((skipSpaced_suffix _ _).trans ((skipSpaced_suffix _ _).trans hfirst))

theorem holdsKeyword_of_property? {cs : List Char} {d : DeclarationLine}
    (h : property? cs = some d) : HoldsKeyword cs := by
  unfold property? propertyHead? at h
  simp only [Option.bind_eq_bind, Option.bind_eq_some_iff] at h
  obtain ⟨_, ⟨_, hspaced, -⟩, -⟩ := h
  exact holdsKeyword_of_spaced? hspaced (by decide)
    ((skipSpaced_suffix _ _).trans (dropBlanks_suffix cs))

theorem holdsKeyword_of_function? {cs : List Char} {d : DeclarationLine}
    (h : function? cs = some d) : HoldsKeyword cs := by
  unfold function? at h
  simp only [Option.bind_eq_bind, Option.bind_eq_some_iff] at h
  obtain ⟨_, hspaced, -⟩ := h
  exact holdsKeyword_of_spaced? hspaced (by decide)
    ((spacedRun_suffix _ _).trans (dropBlanks_suffix cs))

end Line

theorem DeclarationLine.holdsKeyword_of_parse? {text : String} {d : DeclarationLine}
    (h : parse? text = some d) : Line.HoldsKeyword text.toList := by
  have hd := ofKind?_of_parse? h
  cases hk : d.kind with
  | classLike =>
      rw [hk] at hd
      exact Line.holdsKeyword_of_classLike? hd
  | constant =>
      rw [hk] at hd
      exact Line.holdsKeyword_of_constant? hd
  | property =>
      rw [hk] at hd
      exact Line.holdsKeyword_of_property? hd
  | function =>
      rw [hk] at hd
      exact Line.holdsKeyword_of_function? hd

end Scaffold
