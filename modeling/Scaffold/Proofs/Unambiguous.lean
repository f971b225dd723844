import Scaffold.Proofs.Recognition
/-!
A line declares one thing at most. Every recogniser reads words with blanks after them up to one
that tells the kind, or up to the dollar sign of a property. The words at the start of a line are
fixed by the line, and no two kinds agree on them, so the order in which the recognisers are tried
does not matter.
-/
namespace Scaffold

open Text

/-! Words at the start of a text -/

namespace Text

def blankCodes : List Nat :=
  List.range' 9 5 ++ [32, 0x85, 0xA0, 0x1680] ++ List.range' 0x2000 11 ++
    [0x2028, 0x2029, 0x202F, 0x205F, 0x3000]

theorem mem_blankCodes {c : Char} (h : isBlank c = true) : c.toNat ∈ blankCodes := by
  simp only [isBlank, Bool.or_eq_true, Bool.and_eq_true, decide_eq_true_eq, beq_iff_eq] at h
  simp only [blankCodes, List.mem_append, List.mem_range'_1, List.mem_cons, List.not_mem_nil,
    or_false]
  omega

theorem isBlank_of_isWordChar {c : Char} (h : isWordChar c = true) : isBlank c = false := by
  have hcodes : ∀ n ∈ blankCodes, isWordChar (Char.ofNat n) = false := by decide +kernel
  rw [← Bool.not_eq_true]
  intro hblank
  have hc := hcodes c.toNat (mem_blankCodes hblank)
  rw [Char.ofNat_toNat, h] at hc
  exact Bool.noConfusion hc

def NoBlanks (w : List Char) : Prop :=
  ∀ c ∈ w, isBlank c = false

instance (w : List Char) : Decidable (NoBlanks w) :=
  decidable_of_iff (w.all (fun c => !isBlank c) = true) (by simp [NoBlanks])

theorem word_unique {w w' more more' : List Char} {b b' : Char} (hw : NoBlanks w)
    (hw' : NoBlanks w') (hb : isBlank b = true) (hb' : isBlank b' = true)
    (h : w ++ b :: more = w' ++ b' :: more') : w = w' ∧ more = more' := by
  induction w generalizing w' with
  | nil =>
      cases w' with
      | nil =>
          obtain ⟨-, hmore⟩ := List.cons.inj h
          exact ⟨rfl, hmore⟩
      | cons c w' =>
          obtain ⟨rfl, -⟩ := List.cons.inj h
          rw [hw' b (by simp)] at hb
          exact Bool.noConfusion hb
  | cons c w ih =>
      cases w' with
      | nil =>
          obtain ⟨rfl, -⟩ := List.cons.inj h
          rw [hw c (by simp)] at hb'
          exact Bool.noConfusion hb'
      | cons c' w' =>
          obtain ⟨rfl, htail⟩ := List.cons.inj h
          obtain ⟨rfl, hmore⟩ := ih (fun d hd => hw d (List.mem_cons_of_mem c hd))
            (fun d hd => hw' d (List.mem_cons_of_mem c hd)) htail
          exact ⟨rfl, hmore⟩

inductive Opens : List Char → List String → List Char → Prop
  | done (rest : List Char) : Opens rest [] rest
  | word {w : String} {b : Char} {more rest : List Char} {ws : List String} :
      NoBlanks w.toList → isBlank b = true → Opens (dropBlanks more) ws rest →
      Opens (w.toList ++ b :: more) (w :: ws) rest

variable {cs mid rest rest' : List Char} {ws ws' : List String}

theorem Opens.append (h : Opens cs ws mid) (h' : Opens mid ws' rest) :
    Opens cs (ws ++ ws') rest := by
  induction h with
  | done mid => exact h'
  | word hw hb _ ih => exact .word hw hb (ih h')

/-- Of two ways to open a text, one goes on where the other ends. -/
theorem Opens.compare (h : Opens cs ws rest) (h' : Opens cs ws' rest') :
    (∃ us, ws' = ws ++ us ∧ Opens rest us rest') ∨ ∃ us, ws = ws' ++ us ∧ Opens rest' us rest := by
  induction h generalizing ws' with
  | done rest => exact .inl ⟨ws', rfl, h'⟩
  | @word w b more rest ws hw hb hopens ih =>
      generalize hcs : w.toList ++ b :: more = cs at h'
      cases h' with
      | done => exact .inr ⟨w :: ws, rfl, hcs ▸ .word hw hb hopens⟩
      | @word w' b' more' _ ws' hw' hb' h' =>
          obtain ⟨heq, rfl⟩ := word_unique hw hw' hb hb' hcs
          obtain rfl := String.toList_inj.mp heq
          rcases ih h' with ⟨us, rfl, hus⟩ | ⟨us, rfl, hus⟩
          · exact .inl ⟨us, rfl, hus⟩
          · exact .inr ⟨us, rfl, hus⟩

theorem Opens.eq_of_nil (h : Opens cs [] rest) : cs = rest := by
  cases h
  rfl

theorem Opens.head?_of_dollar {w : String} (h : Opens ('$' :: cs) (w :: ws) rest) :
    w.toList.head? = some '$' := by
  generalize hdollar : '$' :: cs = text at h
  cases h with
  | @word _ b _ _ _ _ hb _ =>
      cases hw : w.toList with
      | nil =>
          rw [hw, List.nil_append] at hdollar
          obtain ⟨rfl, -⟩ := List.cons.inj hdollar
          exact absurd hb (by decide)
      | cons c more =>
          rw [hw, List.cons_append] at hdollar
          obtain ⟨rfl, -⟩ := List.cons.inj hdollar
          rfl

theorem opens_blanks? {w : String} (hw : NoBlanks w.toList) (h : blanks? mid = some rest) :
    Opens (w.toList ++ mid) [w] rest := by
  cases mid with
  | nil => simp [blanks?] at h
  | cons b more =>
      simp only [blanks?] at h
      split at h
      · next hb =>
          cases h
          exact .word hw hb (.done _)
      · simp at h

theorem opens_spaced? {words : List String} {w : String} (hwords : ∀ w ∈ words, NoBlanks w.toList)
    (h : spaced? words cs = some (w, rest)) : w ∈ words ∧ Opens cs [w] rest := by
  obtain ⟨w', hmem, h⟩ := List.exists_of_findSome?_eq_some h
  simp only [Option.bind_eq_bind, Option.bind_eq_some_iff] at h
  obtain ⟨after, hstrip, rest', hblanks, hpure⟩ := h
  cases hpure
  rw [eq_append_of_isPrefixOf? hstrip]
  exact ⟨hmem, opens_blanks? (hwords w hmem) hblanks⟩

theorem opens_spacedRun (words : List String) (hwords : ∀ w ∈ words, NoBlanks w.toList)
    (cs : List Char) :
    (spacedRun words cs).1 ⊆ words ∧ Opens cs (spacedRun words cs).1 (spacedRun words cs).2 := by
  fun_induction spacedRun words cs with
  | case1 cs h => exact ⟨List.nil_subset _, .done cs⟩
  | case2 cs w rest h hlt ws rest' hrun ih =>
      rw [hrun] at ih
      obtain ⟨hmem, hopens⟩ := opens_spaced? hwords h
      exact ⟨List.cons_subset.mpr ⟨hmem, ih.1⟩, hopens.append ih.2⟩
  | case3 cs w rest h hlt => exact ⟨List.nil_subset _, .done cs⟩

theorem opens_skipSpaced (words : List String) (hwords : ∀ w ∈ words, NoBlanks w.toList)
    (cs : List Char) : ∃ ws, ws ⊆ words ∧ Opens cs ws (skipSpaced words cs) := by
  unfold skipSpaced
  split
  · next w rest h =>
      obtain ⟨hmem, hopens⟩ := opens_spaced? hwords h
      exact ⟨[w], by simpa using hmem, hopens⟩
  · exact ⟨[], List.nil_subset _, .done cs⟩

theorem run?_eq_some {p : Char → Bool} {taken : List Char} (h : run? p cs = some (taken, rest)) :
    cs = taken ++ rest ∧ (∀ c ∈ taken, p c = true) ∧ ∃ c, cs.head? = some c ∧ p c = true := by
  cases cs with
  | nil => simp [run?] at h
  | cons c cs =>
      cases hc : p c with
      | false => simp [run?, hc] at h
      | true =>
          obtain ⟨rfl, rfl⟩ : (c :: cs).takeWhile p = taken ∧ (c :: cs).dropWhile p = rest := by
            simpa [run?, hc] using h
          exact ⟨List.takeWhile_append_dropWhile.symm,
            fun d hd => List.all_eq_true.mp List.all_takeWhile d hd, c, rfl, hc⟩

end Text

/-! Words at the start of a declaration -/

namespace Line

def classModifiers : List String := ["abstract", "final", "readonly"]

def classKeywords : List String := ["class", "interface", "trait", "enum"]

def constantModifiers : List String := ["final", "public", "protected", "private"]

def propertyModifiers : List String := ["readonly", "public", "protected", "private", "static"]

def functionModifiers : List String :=
  ["public", "protected", "private", "static", "final", "abstract"]

def Headed (modifiers keywords : List String) (cs : List Char) : Prop :=
  ∃ ms w rest, ms ⊆ modifiers ∧ w ∈ keywords ∧ Opens (dropBlanks cs) (ms ++ [w]) rest ∧
    rest.head? ≠ some '$'

def HeadsProperty (cs : List Char) : Prop :=
  ∃ ms type? rest, ms ⊆ propertyModifiers ∧
    Opens (dropBlanks cs) (ms ++ Option.toList type?) ('$' :: rest)

variable {cs rest : List Char} {d : DeclarationLine}

theorem head?_of_run? {taken : List Char} (h : run? isWordChar cs = some (taken, rest)) :
    cs.head? ≠ some '$' := by
  obtain ⟨-, -, c, hc, hword⟩ := run?_eq_some h
  rw [hc]
  rintro ⟨⟩
  exact absurd hword (by decide)

theorem isBlank_of_isTypeChar {c : Char} (h : isTypeChar c = true) : isBlank c = false := by
  simp only [isTypeChar, Bool.or_eq_true, beq_iff_eq] at h
  rcases h with (h | rfl) | rfl
  · exact isBlank_of_isWordChar h
  · decide
  · decide

theorem opens_typeAfter? {mark body : List Char} {token : String} (hmark : NoBlanks mark)
    (h : typeAfter? mark body = some (token, rest)) :
    Opens (mark ++ body) [token] rest ∧ body.head? ≠ some '$' := by
  obtain ⟨taken, left, hrun, hblanks, rfl⟩ := typeAfter?_eq_some h
  obtain ⟨rfl, htaken, c, hc, htype⟩ := run?_eq_some hrun
  have hsolid : NoBlanks (String.ofList (mark ++ taken)).toList := by
    rw [String.toList_ofList]
    intro d hd
    rcases List.mem_append.mp hd with hd | hd
    · exact hmark d hd
    · exact isBlank_of_isTypeChar (htaken d hd)
  have hopens := opens_blanks? hsolid hblanks
  rw [String.toList_ofList, List.append_assoc] at hopens
  refine ⟨hopens, ?_⟩
  rw [hc]
  rintro ⟨⟩
  exact absurd htype (by decide)

theorem typeToken?_eq_some {token : String} (h : typeToken? cs = some (token, rest)) :
    Opens cs [token] rest ∧ cs.head? ≠ some '$' := by
  by_cases hcs : cs.head? = some '?'
  · obtain ⟨body, rfl⟩ := List.head?_eq_some_iff.mp hcs
    exact ⟨(@opens_typeAfter? _ ['?'] body _ (by decide) h).1, by simp⟩
  · rw [typeToken?_plain hcs] at h
    exact opens_typeAfter? (by decide) h

theorem headed_of_classLike? (h : classLike? cs = some d) :
    Headed classModifiers classKeywords cs := by
  unfold classLike? at h
  simp only [Option.bind_eq_bind, Option.bind_eq_some_iff] at h
  obtain ⟨⟨w, rest⟩, hkeyword, ⟨name, left⟩, hname, -⟩ := h
  obtain ⟨hms, hmodifiers⟩ := opens_spacedRun classModifiers (by decide) (dropBlanks cs)
  obtain ⟨hw, hopens⟩ := opens_spaced? (by decide) hkeyword
  exact ⟨_, w, rest, hms, hw, hmodifiers.append hopens, head?_of_run? hname⟩

theorem head?_of_typedAssigned? {found : Option String × String × List Char}
    (h : typedAssigned? cs = some found) : cs.head? ≠ some '$' := by
  unfold typedAssigned? assigned? at h
  simp only [Option.bind_eq_bind, Option.or_eq_some_iff, Option.bind_eq_some_iff] at h
  rcases h with ⟨⟨token, rest⟩, htoken, -⟩ | ⟨-, _, ⟨⟨taken, left⟩, hrun, -⟩, -⟩
  · exact (typeToken?_eq_some htoken).2
  · exact head?_of_run? hrun

theorem headed_of_constant? (h : constant? cs = some d) :
    Headed constantModifiers ["const"] cs := by
  unfold constant? at h
  simp only [Option.bind_eq_bind, Option.bind_eq_some_iff] at h
  obtain ⟨⟨w, rest⟩, hkeyword, found, htyped, -⟩ := h
  obtain ⟨first, hfirst, hopens⟩ := opens_skipSpaced ["final"] (by decide) (dropBlanks cs)
  obtain ⟨shown, hshown, hopens'⟩ := opens_skipSpaced visibilities (by decide)
    (skipSpaced ["final"] (dropBlanks cs))
  obtain ⟨last, hlast, hopens''⟩ := opens_skipSpaced ["final"] (by decide)
    (skipSpaced visibilities (skipSpaced ["final"] (dropBlanks cs)))
  obtain ⟨hw, hconst⟩ := opens_spaced? (by decide) hkeyword
  refine ⟨first ++ shown ++ last, w, rest, ?_, hw,
    ((hopens.append hopens').append hopens'').append hconst, head?_of_typedAssigned? htyped⟩
  have hfinal : ["final"] ⊆ constantModifiers := by decide
  have hvisible : visibilities ⊆ constantModifiers := by decide
  simp only [List.append_subset]
  exact ⟨⟨List.Subset.trans hfirst hfinal, List.Subset.trans hshown hvisible⟩,
    List.Subset.trans hlast hfinal⟩

theorem headed_of_function? (h : function? cs = some d) :
    Headed functionModifiers ["function"] cs := by
  unfold function? at h
  simp only [Option.bind_eq_bind, Option.bind_eq_some_iff] at h
  obtain ⟨⟨w, rest⟩, hkeyword, ⟨name, left⟩, hname, -⟩ := h
  obtain ⟨hms, hmodifiers⟩ :=
    opens_spacedRun functionModifiers (by decide) (dropBlanks cs)
  obtain ⟨hw, hopens⟩ := opens_spaced? (by decide) hkeyword
  refine ⟨_, w, rest, hms, hw, hmodifiers.append hopens, ?_⟩
  dsimp only at hname
  split at hname
  · simp
  · exact head?_of_run? hname

theorem headsProperty_of_propertyHead? {found : Option String × String × List Char}
    (h : propertyHead? cs = some found) : HeadsProperty cs := by
  unfold propertyHead? at h
  simp only [Option.bind_eq_bind, Option.bind_eq_some_iff] at h
  obtain ⟨⟨w, rest⟩, hvisible, h⟩ := h
  obtain ⟨first, hfirst, hopens⟩ :=
    opens_skipSpaced ["readonly"] (by decide) (dropBlanks cs)
  obtain ⟨hw, hopens'⟩ := opens_spaced? (by decide) hvisible
  obtain ⟨hmore, hopens''⟩ := opens_spacedRun ["static", "readonly"] (by decide) rest
  have hwords : first ++ [w] ++ (spacedRun ["static", "readonly"] rest).1 ⊆ propertyModifiers := by
    have hreadonly : ["readonly"] ⊆ propertyModifiers := by decide
    have hvisibilities : visibilities ⊆ propertyModifiers := by decide
    have hstatic : ["static", "readonly"] ⊆ propertyModifiers := by decide
    simp only [List.append_subset]
    exact ⟨⟨List.Subset.trans hfirst hreadonly, by simpa using hvisibilities hw⟩,
      List.Subset.trans hmore hstatic⟩
  have hmodifiers := (hopens.append hopens').append hopens''
  dsimp only at h
  split at h
  · next token rest' htoken =>
      exact ⟨_, some token, rest', hwords, hmodifiers.append (typeToken?_eq_some htoken).1⟩
  · obtain ⟨_, hdollar, -⟩ := Option.bind_eq_some_iff.mp h
    obtain ⟨rest', hstrip, -⟩ := Option.map_eq_some_iff.mp hdollar
    rw [eq_append_of_isPrefixOf? hstrip] at hmodifiers
    refine ⟨_, none, rest', hwords, ?_⟩
    simpa using hmodifiers

theorem headsProperty_of_property? (h : property? cs = some d) : HeadsProperty cs := by
  unfold property? at h
  obtain ⟨found, hhead, -⟩ := Option.bind_eq_some_iff.mp h
  exact headsProperty_of_propertyHead? hhead

/-! No two kinds agree -/

section

variable {ms ms' ks ks' : List String}

theorem Headed.not_headed (hks : ∀ w ∈ ks, w ∉ ms' ∧ w ∉ ks') (hks' : ∀ w ∈ ks', w ∉ ms)
    (h : Headed ms ks cs) : ¬Headed ms' ks' cs := by
  rintro ⟨before', w', rest', hbefore', hw', hopens', -⟩
  obtain ⟨before, w, rest, hbefore, hw, hopens, -⟩ := h
  rcases hopens.compare hopens' with ⟨us, heq, -⟩ | ⟨us, heq, -⟩
  · have hmem : w ∈ before' ++ [w'] := by simp [heq]
    rcases List.mem_append.mp hmem with hmem | hmem
    · exact (hks w hw).1 (hbefore' hmem)
    · exact (hks w hw).2 (List.mem_singleton.mp hmem ▸ hw')
  · have hmem : w' ∈ before ++ [w] := by simp [heq]
    rcases List.mem_append.mp hmem with hmem | hmem
    · exact hks' w' hw' (hbefore hmem)
    · exact (hks w hw).2 (List.mem_singleton.mp hmem ▸ hw')

theorem Headed.not_headsProperty (hks : ∀ w ∈ ks, w ∉ propertyModifiers)
    (hwords : ∀ w ∈ ms ++ ks, w.toList.head? ≠ some '$') (h : Headed ms ks cs) :
    ¬HeadsProperty cs := by
  rintro ⟨before', type?, rest', hbefore', hopens'⟩
  obtain ⟨before, w, rest, hbefore, hw, hopens, hrest⟩ := h
  rcases hopens.compare hopens' with ⟨us, heq, hus⟩ | ⟨us, heq, hus⟩
  · -- The keyword comes first: it is the type, and the dollar sign follows it, or else a modifier.
    rcases List.eq_nil_or_concat us with rfl | ⟨init, last, rfl⟩
    · rw [hus.eq_of_nil] at hrest
      exact hrest rfl
    · refine hks w hw (hbefore' ?_)
      cases type? with
      | none =>
          rw [Option.toList_none, List.append_nil] at heq
          simp [heq]
      | some type =>
          rw [Option.toList_some, List.concat_eq_append, ← List.append_assoc] at heq
          simp [(List.append_inj' heq rfl).1]
  · -- The dollar sign comes first: it follows the keyword, or else starts a word.
    cases us with
    | nil =>
        rw [← hus.eq_of_nil] at hrest
        exact hrest rfl
    | cons u us =>
        have hmem : u ∈ before ++ [w] := by simp [heq]
        refine hwords u ?_ hus.head?_of_dollar
        rcases List.mem_append.mp hmem with hmem | hmem
        · exact List.mem_append_left _ (hbefore hmem)
        · exact List.mem_append_right _ (List.mem_singleton.mp hmem ▸ hw)

end

def Heads : DeclarationKind → List Char → Prop
  | .classLike => Headed classModifiers classKeywords
  | .constant => Headed constantModifiers ["const"]
  | .property => HeadsProperty
  | .function => Headed functionModifiers ["function"]

theorem heads_unique {k k' : DeclarationKind} (h : Heads k cs) (h' : Heads k' cs) : k = k' := by
  have hclass (h : Heads .classLike cs) :
      ¬Heads .constant cs ∧ ¬Heads .property cs ∧ ¬Heads .function cs :=
    ⟨h.not_headed (by decide) (by decide), h.not_headsProperty (by decide) (by decide),
      h.not_headed (by decide) (by decide)⟩
  have hconstant (h : Heads .constant cs) : ¬Heads .property cs ∧ ¬Heads .function cs :=
    ⟨h.not_headsProperty (by decide) (by decide), h.not_headed (by decide) (by decide)⟩
  have hfunction (h : Heads .function cs) : ¬Heads .property cs :=
    h.not_headsProperty (by decide) (by decide)
  cases k with
  | classLike =>
      cases k' with
      | classLike => rfl
      | constant => exact absurd h' (hclass h).1
      | property => exact absurd h' (hclass h).2.1
      | function => exact absurd h' (hclass h).2.2
  | constant =>
      cases k' with
      | classLike => exact absurd h (hclass h').1
      | constant => rfl
      | property => exact absurd h' (hconstant h).1
      | function => exact absurd h' (hconstant h).2
  | property =>
      cases k' with
      | classLike => exact absurd h (hclass h').2.1
      | constant => exact absurd h (hconstant h').1
      | property => rfl
      | function => exact absurd h (hfunction h')
  | function =>
      cases k' with
      | classLike => exact absurd h (hclass h').2.2
      | constant => exact absurd h (hconstant h').2
      | property => exact absurd h' (hfunction h)
      | function => rfl

end Line

namespace DeclarationLine

variable {line : String}

theorem heads_of_ofKind? {k : DeclarationKind} {d : DeclarationLine} (h : ofKind? k line = some d) :
    Line.Heads k line.toList := by
  cases k with
  | classLike => exact Line.headed_of_classLike? h
  | constant => exact Line.headed_of_constant? h
  | property => exact Line.headsProperty_of_property? h
  | function => exact Line.headed_of_function? h

theorem findSome?_ofKind? {k : DeclarationKind} {d : DeclarationLine} (h : ofKind? k line = some d)
    {order : List DeclarationKind} (hk : k ∈ order) :
    order.findSome? (ofKind? · line) = some d := by
  have hsome : (order.findSome? (ofKind? · line)).isSome = true :=
    List.findSome?_isSome_iff.mpr ⟨k, hk, by rw [h]; rfl⟩
  obtain ⟨d', hd'⟩ := Option.isSome_iff_exists.mp hsome
  obtain ⟨k', -, hk'⟩ := List.exists_of_findSome?_eq_some hd'
  obtain rfl := Line.heads_unique (heads_of_ofKind? h) (heads_of_ofKind? hk')
  rw [hd', ← hk', h]

theorem parse?_eq_findSome? (line : String) :
    parse? line = [.classLike, .constant, .property, .function].findSome? (ofKind? · line) := by
  simp only [parse?, List.findSome?_cons, List.findSome?_nil, ofKind?]
  cases classLike? line <;> cases constant? line <;> cases property? line <;>
    cases function? line <;> rfl

theorem mem_kinds (k : DeclarationKind) : k ∈ [.classLike, .constant, .property, .function] := by
  cases k <;> decide

theorem parse?_unambiguous (line : String) :
    (∀ k k', (ofKind? k line).isSome = true → (ofKind? k' line).isSome = true → k = k') ∧
    (∀ k d, ofKind? k line = some d → parse? line = some d) ∧
    (∀ order : List DeclarationKind, (∀ k, k ∈ order) →
      order.findSome? (ofKind? · line) = parse? line) ∧
    ((property? line).isSome = true → startsProperty line = true) := by
  have hparse (k : DeclarationKind) (d : DeclarationLine) (h : ofKind? k line = some d) :
      parse? line = some d := by
    rw [parse?_eq_findSome?]
    exact findSome?_ofKind? h (mem_kinds k)
  refine ⟨?_, hparse, ?_, ?_⟩
  · intro k k' h h'
    obtain ⟨d, hd⟩ := Option.isSome_iff_exists.mp h
    obtain ⟨d', hd'⟩ := Option.isSome_iff_exists.mp h'
    exact Line.heads_unique (heads_of_ofKind? hd) (heads_of_ofKind? hd')
  · intro order horder
    cases hp : parse? line with
    | some d => exact findSome?_ofKind? (ofKind?_of_parse? hp) (horder d.kind)
    | none =>
        rw [List.findSome?_eq_none_iff]
        intro k _
        cases hk : ofKind? k line with
        | none => rfl
        | some d =>
            rw [hparse k d hk] at hp
            cases hp
  · intro h
    obtain ⟨d, hd⟩ := Option.isSome_iff_exists.mp h
    obtain ⟨found, hhead, -⟩ := Option.bind_eq_some_iff.mp hd
    rw [startsProperty, hhead]
    rfl

/-- A keyword of another kind may stand in the place of a type. -/
theorem parse?_unambiguous_keyword :
    let line := "\tpublic function $x;"
    property? line = some (.property (some "function") "x") ∧
      function? line = none ∧ parse? line = some (.property (some "function") "x") ∧
      [.function, .property, .constant, .classLike].findSome? (ofKind? · line) =
        some (.property (some "function") "x") ∧
      startsProperty line = true := by
  intro line
  have hproperty : property? line = some (.property (some "function") "x") := by decide +kernel
  obtain ⟨hunique, hparse, horder, hstarts⟩ := parse?_unambiguous line
  have hparsed := hparse .property _ hproperty
  refine ⟨hproperty, ?_, hparsed, ?_, hstarts (by rw [hproperty]; rfl)⟩
  · cases hf : function? line with
    | none => rfl
    | some d =>
        have hkinds := hunique .property .function (by rw [ofKind?, hproperty]; rfl)
          (by rw [ofKind?, hf]; rfl)
        cases hkinds
  · rw [horder _ (by intro k; cases k <;> decide), hparsed]

end DeclarationLine

end Scaffold
