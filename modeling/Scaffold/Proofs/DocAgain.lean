import Scaffold.Proofs.Offers
/-!
Documenting a line twice. The line moves down by the lines of its block, and the three lines above
it are looked at again. A block of at most three lines is found there, and nothing is inserted; of a
longer one only the end is seen, so unless that end holds a comment of its own, the line is
documented again.
-/
namespace Scaffold

open Dialog Text

namespace Text

theorem lines_append_of_isWhole {t : String} (ht : IsWhole t.toList) (u : String) :
    lines (t ++ u) = lines t ++ lines u := by
  have hu := lines_append ht u.toList
  have hnil := lines_append ht []
  have hempty : lines (String.ofList []) = [] := by decide
  rw [List.append_nil, String.ofList_toList, hempty, List.append_nil] at hnil
  rw [← String.toList_append, String.ofList_toList, String.ofList_toList] at hu
  rw [hu, hnil]

theorem lines_applyAll_singleton {old text : String} {line : Nat}
    (hline : line < (lines old).length) (htext : EndsLine text) :
    lines (Insertion.applyAll old [⟨line, text⟩]) =
      (lines old).take line ++ (lines text ++ (lines old).drop line) := by
  obtain ⟨a, b, rfl, ha, rfl⟩ :=
    exists_whole old (Nat.lt_of_lt_of_le hline (length_lines_le old))
  have hnew : String.ofList (text.toList ++ b) = text ++ String.ofList b := by
    rw [String.ofList_append, String.ofList_toList]
  rw [Insertion.applyAll_singleton ha, lines_append ha, lines_append ha, hnew,
    lines_append_of_isWhole htext.isWhole, List.take_left' (by simp), List.drop_left' (by simp)]

theorem joinLines_cons (l : String) {ls : List String} (h : ls ≠ []) :
    joinLines (l :: ls) = l ++ "\n" ++ joinLines ls := by
  obtain ⟨m, rest, rfl⟩ := List.exists_cons_of_ne_nil h
  rw [joinLines, String.intercalate_cons_cons]
  rfl

theorem exists_joinLines_append (ls : List String) {ms : List String} (h : ms ≠ []) :
    ∃ front, joinLines (ls ++ ms) = front ++ joinLines ms := by
  induction ls with
  | nil => exact ⟨"", by simp⟩
  | cons l ls ih =>
      obtain ⟨front, hfront⟩ := ih
      refine ⟨l ++ "\n" ++ front, ?_⟩
      rw [List.cons_append, joinLines_cons l (List.append_ne_nil_of_right_ne_nil ls h), hfront]
      simp only [String.append_assoc]

end Text

theorem occursIn_cons {sub cs : List Char} (h : occursIn sub cs = true) (c : Char) :
    occursIn sub (c :: cs) = true := by
  rw [occursIn, h, Bool.or_true]

theorem occursIn_append {sub cs : List Char} (h : occursIn sub cs = true) (front : List Char) :
    occursIn sub (front ++ cs) = true := by
  induction front with
  | nil => exact h
  | cons c front ih => exact occursIn_cons ih c

theorem occursIn_of_hasDocComment {cs : List Char} (h : hasDocComment cs = true) :
    occursIn ['*', '/'] cs = true := by
  fun_induction hasDocComment cs with
  | case1 => exact nomatch h
  | case2 cs => exact occursIn_append h ['/', '*', '*']
  | case3 c cs hc ih => exact occursIn_cons (ih h) c

theorem hasDocComment_cons {cs : List Char} (h : hasDocComment cs = true) (c : Char) :
    hasDocComment (c :: cs) = true := by
  unfold hasDocComment
  split
  · next hnil => exact nomatch hnil
  · next rest heq =>
      -- The known comment opens further on, and its end also closes the one that opens here.
      obtain ⟨rfl, rfl⟩ := List.cons.inj heq
      have hrest : hasDocComment rest = true := h
      exact occursIn_of_hasDocComment hrest
  · next rest heq =>
      obtain ⟨rfl, rfl⟩ := List.cons.inj heq
      exact h

theorem hasDocComment_append {cs : List Char} (h : hasDocComment cs = true) (front : List Char) :
    hasDocComment (front ++ cs) = true := by
  induction front with
  | nil => exact h
  | cons c front ih => exact hasDocComment_cons ih c

theorem hasDocComment_comment (a b : List Char) :
    hasDocComment (a ++ ('/' :: '*' :: '*' :: (b ++ ['*', '/']))) = true := by
  refine hasDocComment_append ?_ a
  exact occursIn_append (by decide) b

namespace Template

section

variable {tab : String} {ls : List String}

theorem endsLine_tabbed (tab body : String) : EndsLine (tabbed tab body) :=
  EndsLine.append _ (by decide)

theorem lines_tabbed {body : String} (h : Lacks '\n' (tab ++ body)) :
    lines (tabbed tab body) = [String.ofList (dropReturn (tab ++ body).toList)] := by
  have hcs : (tabbed tab body).toList = (tab ++ body).toList ++ ['\n'] := by
    simp [tabbed]
  rw [lines, hcs, splitChars_append_feed, splitChars_of_not_mem h]
  rfl

theorem isWhole_docLines (tab : String) (ls : List String) :
    IsWhole (String.join (ls.map (docLine tab))).toList := by
  cases ls with
  | nil => exact isWhole_nil
  | cons l ls =>
      refine (EndsLine.join (by simp) ?_).isWhole
      intro t ht
      obtain ⟨l, -, rfl⟩ := List.mem_map.mp ht
      rw [docLine_eq]
      exact endsLine_tabbed _ _

theorem lines_docBlock (htab : Lacks '\n' tab) (ls : List String) :
    lines (docBlock ls tab) =
      (tab ++ "/**") :: (lines (String.join (ls.map (docLine tab))) ++ [tab ++ " */"]) := by
  have hopen : lines (tabbed tab "/**") = [tab ++ "/**"] := by
    rw [lines_tabbed (htab.append (by decide))]
    simp [dropReturn]
  have hclose : lines (tabbed tab " */") = [tab ++ " */"] := by
    rw [lines_tabbed (htab.append (by decide))]
    simp [dropReturn]
  rw [docBlock_eq, String.append_assoc,
    lines_append_of_isWhole (endsLine_tabbed tab "/**").isWhole,
    lines_append_of_isWhole (isWhole_docLines tab ls), hopen, hclose]
  rfl

theorem length_lines_docLines (htab : Lacks '\n' tab) (h : ∀ l ∈ ls, Lacks '\n' l) :
    (lines (String.join (ls.map (docLine tab)))).length = ls.length := by
  induction ls with
  | nil => rfl
  | cons l ls ih =>
      have hbody : Lacks '\n' (tab ++ if l = "" then " *" else " * " ++ l) := by
        refine htab.append ?_
        split
        · decide
        · exact Lacks.append (by decide) (h l (by simp))
      rw [List.map_cons, String.join_cons, docLine_eq,
        lines_append_of_isWhole (endsLine_tabbed _ _).isWhole, lines_tabbed hbody,
        List.length_append, ih fun l' hl => h l' (by simp [hl]), List.length_singleton,
        List.length_cons, Nat.add_comm]

theorem length_lines_docBlock (htab : Lacks '\n' tab) (h : ∀ l ∈ ls, Lacks '\n' l) :
    (lines (docBlock ls tab)).length = ls.length + 2 := by
  rw [lines_docBlock htab, List.length_cons, List.length_append, length_lines_docLines htab h,
    List.length_singleton]

theorem hasDocComment_docBlock (htab : Lacks '\n' tab) (ls : List String) :
    hasDocComment (joinLines (lines (docBlock ls tab))).toList = true := by
  obtain ⟨front, hfront⟩ := exists_joinLines_append
    (lines (String.join (ls.map (docLine tab)))) (List.cons_ne_nil (tab ++ " */") [])
  have hchars : (joinLines (lines (docBlock ls tab))).toList =
      tab.toList ++ ('/' :: '*' :: '*' ::
        ('\n' :: (front.toList ++ (tab.toList ++ [' '])) ++ ['*', '/'])) := by
    rw [lines_docBlock htab, joinLines_cons _ (by simp), hfront]
    simp [joinLines]
  rw [hchars]
  exact hasDocComment_comment _ _

end

end Template

def endsInComment (block : String) : Bool :=
  hasDocComment (joinLines ((lines block).drop ((lines block).length - 3))).toList

theorem endsInComment_of_length_le {block : String}
    (hcomment : hasDocComment (joinLines (lines block)).toList = true)
    (hle : (lines block).length ≤ 3) : endsInComment block = true := by
  have hall : (lines block).length - 3 = 0 := by omega
  rw [endsInComment, hall, List.drop_zero]
  exact hcomment

theorem isDocumented_applyAll {old block : String} {line : Nat}
    (hline : line < (lines old).length) (hends : EndsLine block)
    (hcomment : hasDocComment (joinLines (lines block)).toList = true) :
    isDocumented (Insertion.applyAll old [⟨line, block⟩]) (line + (lines block).length) =
      endsInComment block := by
  have hfirst : ((lines old).take line).length = line := by
    rw [List.length_take]
    omega
  have hwindow : ((lines (Insertion.applyAll old [⟨line, block⟩])).take
      (line + (lines block).length)).drop (line + (lines block).length - 3) =
        ((lines old).take line).drop (line + (lines block).length - 3) ++
          (lines block).drop ((lines block).length - 3) := by
    have hskip : line + (lines block).length - 3 - line = (lines block).length - 3 := by omega
    rw [lines_applyAll_singleton hline hends, ← List.append_assoc,
      List.take_left' (by rw [List.length_append, hfirst]), List.drop_append, hfirst, hskip]
  rw [isDocumented_eq_take, hwindow]
  rcases Nat.le_total 3 (lines block).length with hlong | hshort
  · rw [List.drop_eq_nil_of_le (by omega), List.nil_append]
    rfl
  · have hends := endsInComment_of_length_le hcomment hshort
    have hne : (lines block).drop ((lines block).length - 3) ≠ [] := by
      intro hnil
      rw [endsInComment, hnil] at hends
      exact absurd hends (by decide)
    obtain ⟨front, hfront⟩ := exists_joinLines_append
      (((lines old).take line).drop (line + (lines block).length - 3)) hne
    rw [hends, hfront, String.toList_append]
    exact hasDocComment_append hends _

theorem getElem?_lines_applyAll {old block : String} {line : Nat}
    (hline : line < (lines old).length) (hends : EndsLine block) :
    (lines (Insertion.applyAll old [⟨line, block⟩]))[line + (lines block).length]? =
      (lines old)[line]? := by
  have hfirst : ((lines old).take line).length = line := by
    rw [List.length_take]
    omega
  rw [lines_applyAll_singleton hline hends, List.getElem?_append_right (by omega), hfirst,
    Nat.add_sub_cancel_left, List.getElem?_append_right (Nat.le_refl _), Nat.sub_self,
    List.getElem?_drop, Nat.add_zero]

theorem UnionType.onOneLine_ofToken {token : String} (h : Lacks '\n' token) :
    (UnionType.ofToken token).OnOneLine := by
  have hfold {pieces : List (List Char)} (hp : ∀ m ∈ pieces, '\n' ∉ m) {u : UnionType}
      (hu : u.OnOneLine) :
      (pieces.foldl (fun u m => u.insert (String.ofList m)) u).OnOneLine := by
    induction pieces generalizing u with
    | nil => exact hu
    | cons m pieces ih =>
        refine ih (fun m' hm => hp m' (by simp [hm])) (onOneLine_insert hu ?_)
        rw [Lacks, String.toList_ofList]
        exact hp m (by simp)
  have hbody {body : List Char} (hsub : body ⊆ token.toList) (nullable : Bool) :
      (((body.splitOn '|').filter (· != [])).foldl (fun u m => u.insert (String.ofList m))
        (⟨[], nullable⟩ : UnionType)).OnOneLine := by
    refine hfold (fun m hm hfeed => h (hsub ?_)) (by simp [UnionType.OnOneLine])
    exact mem_of_mem_splitOn (List.mem_filter.mp hm).1 hfeed
  unfold ofToken
  dsimp only
  split
  · next body htoken =>
      exact hbody (fun c hc => htoken ▸ List.mem_cons_of_mem _ hc) true
  · exact hbody (fun c hc => hc) false

theorem ConstantSignature.onOneLine_hint {s : Site} {c : ConstantSignature}
    (h : ConstantSignature.ofSite s = .ok c) : Lacks '\n' c.hint := by
  unfold ConstantSignature.ofSite at h
  dsimp only [bind, Except.bind] at h
  split at h
  · exact nomatch h
  · next found hfound =>
      obtain ⟨m, hm, hpick⟩ := solid_of_memberOfFirst (Php.Program.find_of_locate hfound)
      cases h
      dsimp only
      split
      · next hint hhint =>
          split at hpick
          · cases hpick
            exact UnionType.onOneLine_docText
              (Php.Hint.onOneLine_addTo (hm.2 hint hhint) UnionType.onOneLine_empty)
          · exact nomatch hpick
      · split
        · next token _ hline =>
            split
            · decide
            · exact UnionType.onOneLine_docText
                (UnionType.onOneLine_ofToken (Line.onOneLine_of_constant? hline))
        · decide

namespace Signature

def HintOnOneLine : Signature → Prop
  | constant c => Lacks '\n' c.hint
  | property p => p.types.OnOneLine
  | _ => True

theorem Found.hintOnOneLine {document : String} {s : Site} {signature : Signature}
    (h : Found document s signature) : signature.HintOnOneLine := by
  cases h with
  | classLike h => exact trivial
  | constant h => exact ConstantSignature.onOneLine_hint h
  | property h => exact (PropertySignature.onOneLine_ofSite h).2
  | function h => exact trivial

end Signature

theorem Site.hint_signature (document : String) (s : Site) (declared : DeclarationLine) :
    (s.signature document declared).kind = declared.kind ∧
      (s.signature document declared).HintOnOneLine := by
  unfold signature
  split
  · next hok =>
      obtain ⟨hfound, hkind⟩ := Signature.found_ofSite hok
      exact ⟨hkind, hfound.hintOnOneLine⟩
  · cases declared with
    | classLike keyword name => exact ⟨rfl, trivial⟩
    | constant type? name => exact ⟨rfl, (by decide : Lacks '\n' UnionType.mixed)⟩
    | property type? name => exact ⟨rfl, UnionType.onOneLine_empty⟩
    | function name isStatic => exact ⟨rfl, trivial⟩

def Settings.isShort (s : Settings) : DeclarationKind → Bool
  | .classLike => true
  | .constant => !s.constantDescription
  | .property => !s.propertyDescription
  | .function => false

theorem Template.docLines_of_isShort {signature : Signature} {s : Settings}
    (hname : Lacks '\n' signature.name) (hhint : signature.HintOnOneLine)
    (hshort : s.isShort signature.kind = true) :
    ∃ l, docLines signature s = [l] ∧ Lacks '\n' l := by
  cases signature with
  | classLike c =>
      have hkeyword : Lacks '\n' (capitalize c.keyword.text) := by
        refine onOneLine_capitalize ?_
        cases c.keyword <;> decide
      exact ⟨_, rfl, ((hkeyword.append (by decide)).append hname).append (by decide)⟩
  | constant c =>
      have hoff : s.constantDescription = false := by
        simpa [Settings.isShort, Signature.kind] using hshort
      refine ⟨"@var " ++ c.hint, ?_, Lacks.append (by decide) hhint⟩
      simp [docLines, descriptionIf, hoff]
  | property p =>
      have hoff : s.propertyDescription = false := by
        simpa [Settings.isShort, Signature.kind] using hshort
      refine ⟨"@var " ++ p.types.docText, ?_,
        Lacks.append (by decide) (UnionType.onOneLine_docText hhint)⟩
      simp [docLines, descriptionIf, hoff]
  | function f => exact absurd hshort Bool.false_ne_true

structure IsDocBlock (settings : Settings) (kind : DeclarationKind) (block : String) : Prop where
  ends_line : EndsLine block
  holds_comment : hasDocComment (joinLines (lines block)).toList = true
  short : settings.isShort kind = true → (lines block).length = 3

theorem Site.isDocBlock_docText {document : String} {line : Nat} {s : Site}
    {declared : DeclarationLine} (hs : Site.ofLine? document line = some s)
    (hparse : DeclarationLine.parse? s.text = some declared) (settings : Settings) :
    IsDocBlock settings declared.kind (s.docText document settings) := by
  have hname := isSolid_signature hparse document
  have htab := onOneLine_tab hs
  obtain ⟨hkind, hhint⟩ := s.hint_signature document declared
  have htext : s.docText document settings =
      Template.docBlock (Template.docLines (s.signature document declared) settings) s.tab := by
    unfold docText
    rw [hparse]
    dsimp only
    rw [Template.doc_eq, if_neg hname.ne_empty]
  rw [htext]
  refine ⟨Template.endsLine_docBlock _ _, Template.hasDocComment_docBlock htab _, ?_⟩
  intro hshort
  rw [← hkind] at hshort
  obtain ⟨l, hl, hone⟩ :=
    Template.docLines_of_isShort (onOneLine_of_isSolid hname) hhint hshort
  rw [hl, Template.length_lines_docBlock htab (by simpa using hone)]
  rfl

theorem docDraft_documented {d : Document} (h : isDocumented d.text d.cursor = true)
    (ctx : Context) :
    docDraft ctx d false = ⟨.ok ⟨[], []⟩, [.message .info "Phpdoc already exists"]⟩ := by
  have hchosen : chosenLines ctx d false "Select declarations to document" (fun _ => true) =
      pure [d.cursor] := rfl
  have hpending : [d.cursor].filter (fun line => !isDocumented d.text line) = [] := by
    simp [h]
  have hplain : Icon.strip "Phpdoc already exists" = "Phpdoc already exists" := by decide
  unfold docDraft
  rw [hchosen, bind_of_ok (outcome_pure _), hpending]
  dsimp only
  rw [bind_of_ok (outcome_say _ _), say, hplain]
  rfl

namespace Server

variable {s : Server} {uri : Uri} {line : Nat} {editor : Editor} {new : String}

theorem run_doc_documented (hold : s.documents.get? uri.text = some new)
    (hphp : (Document.mk uri new line).isPhp = true) (hdoc : isDocumented new line = true)
    (editor : Editor) :
    s.run (.doc false) uri (some line) editor =
      (s, none, [.message .info "Phpdoc already exists"]) := by
  have hcursor : s.cursor uri (some line) = line := rfl
  have hdraft : (Command.doc false).draft (s.context editor) ⟨uri, new, line⟩ =
      ⟨.ok ⟨[], []⟩, [.message .info "Phpdoc already exists"]⟩ := by
    rw [Command.draft_doc_of_isPhp hphp, docDraft_documented (d := ⟨uri, new, line⟩) hdoc]
  have houtcome : ((Command.doc false).draft (s.context editor) ⟨uri, new, line⟩).outcome =
      .ok ⟨[], []⟩ := by rw [hdraft]
  rw [run_of_get? hold, hcursor, Command.run_of_nil houtcome rfl, hdraft]
  rfl

theorem doc_of_run_eq_some (h : (s.run (.doc false) uri (some line) editor).2.1 = some new) :
    ∃ old site declared, s.documents.get? uri.text = some old ∧
      (Document.mk uri old line).isPhp = true ∧ Site.ofLine? old line = some site ∧
      DeclarationLine.parse? site.text = some declared ∧
      Applied uri old [⟨line, site.docText old s.settings⟩]
        (s.run (.doc false) uri (some line) editor) := by
  cases hold : s.documents.get? uri.text with
  | none =>
      unfold run document? at h
      rw [hold] at h
      exact nomatch h
  | some old =>
      have hcursor : s.cursor uri (some line) = line := rfl
      rw [run_of_get? hold, hcursor] at h
      obtain ⟨draft, hd, hne, ha⟩ := exists_draft_of_run h
      have hphp := Command.isPhp_of_draft_eq_ok hd
      have happlied := applied_of_draft hold hd hne ha
      rw [Command.draft_doc_of_isPhp hphp, outcome_docDraft_cursor] at hd
      obtain rfl := Except.ok.inj hd
      dsimp only at hne happlied
      split at hne
      · exact absurd rfl hne
      · next hnew =>
          rw [if_neg hnew] at happlied
          cases hdeclared : declaredOn? old line with
          | none => exact absurd (docOn_eq_nil hdeclared s.settings) hne
          | some declared =>
              obtain ⟨site, hsite, hparse, hdoc⟩ := docOn_eq_singleton hdeclared s.settings
              have hcontext : (s.context editor).settings = s.settings := rfl
              rw [hcontext, hdoc] at happlied
              exact ⟨old, site, declared, rfl, hphp, hsite, hparse, happlied⟩

theorem doc_again (h : (s.run (.doc false) uri (some line) editor).2.1 = some new) :
    ∃ old block declared,
      s.documents.get? uri.text = some old ∧ declaredOn? old line = some declared ∧
      Applied uri old [⟨line, block⟩] (s.run (.doc false) uri (some line) editor) ∧
      let next := (s.run (.doc false) uri (some line) editor).1
      let n := (lines block).length
      (lines new)[line + n]? = (lines old)[line]? ∧
      (endsInComment block = true → ∀ editor,
        next.run (.doc false) uri (some (line + n)) editor =
          (next, none, [.message .info "Phpdoc already exists"])) ∧
      (endsInComment block = false → ∀ editor : Editor,
        (∀ insertions, editor.accepts insertions = true) → ∃ again,
          Applied uri new [⟨line + n, again⟩]
            (next.run (.doc false) uri (some (line + n)) editor)) ∧
      (n ≤ 3 → endsInComment block = true) ∧
      (s.settings.isShort declared.kind = true → n = 3) := by
  obtain ⟨old, site, declared, hold, hphp, hsite, hparse, happlied⟩ := doc_of_run_eq_some h
  have hblock := site.isDocBlock_docText hsite hparse s.settings
  have htext := Site.text_of_ofLine? hsite
  have hline := (List.getElem?_eq_some_iff.mp htext).1
  generalize site.docText old s.settings = block at happlied hblock
  have hdeclared : declaredOn? old line = some declared := by
    rw [declaredOn?, htext, Option.bind_some, hparse]
  obtain rfl : new = Insertion.applyAll old [⟨line, block⟩] :=
    Option.some.inj (h.symm.trans happlied.2.1)
  have hget := happlied.2.2.trans h
  have hmoved := getElem?_lines_applyAll hline hblock.ends_line
  have hseen := isDocumented_applyAll hline hblock.ends_line hblock.holds_comment
  refine ⟨old, block, declared, hold, hdeclared, happlied, hmoved, ?_, ?_,
    endsInComment_of_length_le hblock.holds_comment, hblock.short⟩
  · intro hends editor
    exact run_doc_documented hget hphp (hseen.trans hends) editor
  · intro hends editor ha
    refine (exists_applied_doc_iff hget hphp ha).mpr ⟨⟨declared, ?_⟩, hseen.trans hends⟩
    rw [declaredOn?, hmoved]
    exact hdeclared

theorem doc_again_class :
    let s := openDocument {} sampleUri sampleProperties
    let new := Insertion.applyAll sampleProperties [⟨1, "/**\n * Class A description.\n */\n"⟩]
    let first := s.run (.doc false) sampleUri (some 1) sampleEditor
    first.2.1 = some new ∧ first.1.run (.doc false) sampleUri (some 4) sampleEditor =
      (first.1, none, [.message .info "Phpdoc already exists"]) := by
  intro s new
  have hnew : (s.run (.doc false) sampleUri (some 1) sampleEditor).2.1 = some new := by
    decide +kernel
  have hold : s.documents.get? sampleUri.text = some sampleProperties := by
    simp [s, get?_openDocument]
  have hclass : declaredOn? sampleProperties 1 = some (.classLike "class" "A") := by
    decide +kernel
  obtain ⟨old, block, declared, hget, hdeclared, -, -, hagain, -, hseen, hlength⟩ := doc_again hnew
  obtain rfl := Option.some.inj (hold.symm.trans hget)
  obtain rfl := Option.some.inj (hclass.symm.trans hdeclared)
  have hthree : (lines block).length = 3 := hlength rfl
  rw [hthree] at hagain hseen
  exact ⟨hnew, hagain (hseen (Nat.le_refl 3)) sampleEditor⟩

def sampleFunction : String :=
  "<?php\nclass A\n\x7b\nfunction f($a) \x7b\x7d\n\x7d\n"

theorem doc_again_function :
    let s := openDocument {} sampleUri sampleFunction
    let block := "/**\n * @param mixed $a\n * @return mixed\n */\n"
    let first := s.run (.doc false) sampleUri (some 3) sampleEditor
    let second := first.1.run (.doc false) sampleUri (some 7) sampleEditor
    (lines block).length = 4 ∧
      first.2.1.isSome = true ∧ Event.edits first.2.2 = [[⟨3, block⟩]] ∧
      second.2.1.isSome = true ∧ Event.edits second.2.2 = [[⟨7, block⟩]] := by
  decide +kernel

end Server

end Scaffold
