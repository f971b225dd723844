import Scaffold.Proofs.AccessorLines
import Scaffold.Proofs.Named
import Scaffold.Proofs.Occurrences
/-!
A documentation block is one comment that tells each fact of a declaration once. Its last line is
the only one that closes it. In between stand the description, the tags in the order of the
signature, and blank lines where the settings ask for them and the line that they belong to is
shown.
-/
namespace Scaffold

open Text

/-! Texts that cannot end a comment -/

def Text.closingMark : String := "*/"

structure Text.CommentSafe (text : String) : Prop where
  on_one_line : Lacks '\n' text
  no_close : ¬ closingMark.toList <:+: text.toList

namespace Text

theorem closingMark_ne_nil : closingMark.toList ≠ [] := by
  decide

theorem commentSafe_iff {text : String} :
    CommentSafe text ↔ Lacks '\n' text ∧ Omits closingMark text :=
  ⟨fun h => ⟨h.on_one_line, (omits_iff closingMark_ne_nil).mpr h.no_close⟩,
    fun h => ⟨h.1, (omits_iff closingMark_ne_nil).mp h.2⟩⟩

instance (text : String) : Decidable (CommentSafe text) :=
  decidable_of_iff _ commentSafe_iff.symm

theorem CommentSafe.omits {text : String} (h : CommentSafe text) : Omits closingMark text :=
  (commentSafe_iff.mp h).2

theorem CommentSafe.append_of_last {a b : String} (ha : CommentSafe a) (hb : CommentSafe b)
    (hlast : Apart closingMark.toList a.toList.getLast?) : CommentSafe (a ++ b) :=
  commentSafe_iff.mpr ⟨ha.on_one_line.append hb.on_one_line,
    ha.omits.append_of_last closingMark_ne_nil hb.omits hlast⟩

theorem CommentSafe.append_of_first {a b : String} (ha : CommentSafe a) (hb : CommentSafe b)
    (hfirst : Apart closingMark.toList b.toList.head?) : CommentSafe (a ++ b) :=
  commentSafe_iff.mpr ⟨ha.on_one_line.append hb.on_one_line,
    ha.omits.append_of_first closingMark_ne_nil hb.omits hfirst⟩

theorem CommentSafe.join_bars {texts : List String} (h : ∀ t ∈ texts, CommentSafe t) :
    CommentSafe (String.intercalate "|" texts) :=
  commentSafe_iff.mpr ⟨Lacks.intercalate (by decide) fun t ht => (h t ht).on_one_line,
    Omits.intercalate closingMark_ne_nil (by decide) (by decide) (by decide) (by decide)
      fun t ht => (h t ht).omits⟩

end Text

theorem UnionType.commentSafe_docText {u : UnionType} (h : ∀ m ∈ u.members, CommentSafe m) :
    CommentSafe u.docText := by
  unfold docText
  split
  · decide
  · refine CommentSafe.join_bars fun m hm => ?_
    unfold alternatives at hm
    split at hm
    · rcases List.mem_append.mp hm with hm | hm
      · exact h m hm
      · rw [List.mem_singleton.mp hm]
        decide
    · exact h m hm

/-! Texts made of lines with one indentation -/

namespace Text

variable {tab : String} {bodies : List String}

theorem toList_tabbed_append (tab body rest : String) :
    (tabbed tab body ++ rest).toList = (tab ++ body).toList ++ '\n' :: rest.toList := by
  simp [tabbed]

theorem splitLines_append_feed (a b : String) :
    splitLines (a ++ ("\n" ++ b)) = splitLines a ++ splitLines b := by
  have hchars : (a ++ ("\n" ++ b)).toList = a.toList ++ '\n' :: b.toList := by simp
  rw [splitLines, hchars, splitChars_append_feed, List.map_append]
  rfl

theorem splitLines_of_onOneLine {s : String} (h : Lacks '\n' s) : splitLines s = [s] := by
  rw [splitLines, splitChars_of_not_mem h, List.map_singleton, String.ofList_toList]

theorem splitLines_join (tab : String) (bodies : List String) :
    splitLines (String.join (bodies.map (tabbed tab))) =
      (bodies.flatMap fun b => splitLines (tab ++ b)) ++ [""] := by
  induction bodies with
  | nil => rfl
  | cons b bodies ih =>
      have htabbed (rest : String) : tabbed tab b ++ rest = tab ++ b ++ ("\n" ++ rest) :=
        String.append_assoc
      rw [List.map_cons, String.join_cons, htabbed, splitLines_append_feed, ih, List.flatMap_cons,
        List.append_assoc]

theorem flatMap_splitLines (htab : Lacks '\n' tab) (h : ∀ b ∈ bodies, Lacks '\n' b) :
    (bodies.flatMap fun b => splitLines (tab ++ b)) = bodies.map (tab ++ ·) := by
  induction bodies with
  | nil => rfl
  | cons b bodies ih =>
      obtain ⟨hb, hbodies⟩ := List.forall_mem_cons.mp h
      rw [List.flatMap_cons, splitLines_of_onOneLine (htab.append hb), ih hbodies]
      rfl

theorem splitLines_join_tabbed (htab : Lacks '\n' tab) (h : ∀ b ∈ bodies, Lacks '\n' b) :
    splitLines (String.join (bodies.map (tabbed tab))) = bodies.map (tab ++ ·) ++ [""] := by
  rw [splitLines_join, flatMap_splitLines htab h]

theorem occurrences_join_tabbed {word : String} (hword : word.toList ≠ [])
    (hfeed : '\n' ∉ word.toList) (htab : ∀ c ∈ tab.toList, c ∉ word.toList)
    (h : ∀ b ∈ bodies, Omits word b) (last : String) :
    occurrences word (String.join ((bodies ++ [last]).map (tabbed tab))) =
      occurrences word last := by
  have hcons (b rest : String) : occurrences word (tabbed tab b ++ rest) =
      occurrences word b + occurrences word rest := by
    have hlast : Apart word.toList tab.toList.getLast? :=
      fun c hc => htab c (List.mem_of_getLast? hc)
    rw [occurrences, toList_tabbed_append, occurrencesIn_append_cons hword hfeed,
      String.toList_append, occurrencesIn_append_of_getLast? hword hlast,
      occurrencesIn_of_disjoint hword htab, Nat.zero_add]
    rfl
  induction bodies with
  | nil =>
      rw [List.nil_append, List.map_singleton, String.join_cons, hcons]
      rfl
  | cons b bodies ih =>
      obtain ⟨hb, hbodies⟩ := List.forall_mem_cons.mp h
      have hnone : occurrences word b = 0 := hb
      rw [List.cons_append, List.map_cons, String.join_cons, hcons, hnone, Nat.zero_add,
        ih hbodies]

end Text

/-! The rows of a block -/

def Signature.texts : Signature → List String
  | classLike c => [c.name]
  | constant c => [c.name, c.hint]
  | property p => p.name :: p.types.members
  | function f =>
      f.name :: f.returnHint :: (f.parameters.flatMap fun p => [p.name, p.hint]) ++ f.throws

namespace Template

inductive DocRow where
  | description (subject : String)
  | blank
  | tag (name value : String)
  deriving DecidableEq, Repr

namespace DocRow

def content : DocRow → String
  | description subject => subject ++ " description."
  | blank => ""
  | tag name value => "@" ++ name ++ " " ++ value

def text : DocRow → String
  | description subject => " * " ++ subject ++ " description."
  | blank => " *"
  | tag name value => " * @" ++ name ++ " " ++ value

/-- A name that begins as a tag does makes its description one to the eye. -/
def looksLikeTag : DocRow → Bool
  | description subject => subject.toList.head? == some '@'
  | blank => false
  | tag _ _ => true

end DocRow

def describedIf (isShown : Bool) (subject : String) : List DocRow :=
  if isShown then [.description subject] else []

def described : Signature → Settings → List DocRow
  | .classLike c, _ => [.description (capitalize c.keyword.text ++ " " ++ c.name)]
  | .constant c, s => describedIf s.constantDescription c.name
  | .property p, s => describedIf s.propertyDescription p.name
  | .function f, s => describedIf s.functionDescription f.name

def parameterTags (f : FunctionSignature) : List DocRow :=
  f.parameters.map fun p => .tag "param" (p.hint ++ " $" ++ p.name)

def returnTags (f : FunctionSignature) (s : Settings) : List DocRow :=
  if f.returnHint ≠ "void" ∨ s.returnVoid = true then [.tag "return" f.returnHint] else []

def throwsTags (f : FunctionSignature) (s : Settings) : List DocRow :=
  if f.throws = [] then []
  else if s.throwsOnOwnLines then f.throws.map (.tag "throws" ·)
  else [.tag "throws" (String.intercalate "|" f.throws)]

def tags : Signature → Settings → List DocRow
  | .classLike _, _ => []
  | .constant c, _ => [.tag "var" c.hint]
  | .property p, _ => [.tag "var" p.types.docText]
  | .function f, s => parameterTags f ++ returnTags f s ++ throwsTags f s

/-- The blanks around a group go when the group goes. -/
def spaced (before : Nat) (group : List DocRow) (after : Nat) : List DocRow :=
  if group = [] then []
  else List.replicate before .blank ++ group ++ List.replicate after .blank

def rows : Signature → Settings → List DocRow
  | .classLike c, s => described (.classLike c) s
  | .constant c, s => spaced 0 (described (.constant c) s) s.linesAfterDescription.toNat
      ++ tags (.constant c) s
  | .property p, s => spaced 0 (described (.property p) s) s.linesAfterDescription.toNat
      ++ tags (.property p) s
  | .function f, s => spaced 0 (described (.function f) s) s.linesAfterDescription.toNat
      ++ parameterTags f ++ spaced s.linesBeforeReturn.toNat (returnTags f s) 0
      ++ spaced s.linesBeforeThrows.toNat (throwsTags f s) 0

def openLines (signature : Signature) (s : Settings) : List String :=
  "/**" :: (rows signature s).map DocRow.text

theorem docLine_content (tab : String) (r : DocRow) :
    docLine tab r.content = tabbed tab r.text := by
  rw [docLine_eq]
  congr 1
  cases r with
  | description subject =>
      rw [if_neg (by simp [DocRow.content, String.append_eq_empty_iff])]
      simp [DocRow.content, DocRow.text, String.append_assoc]
  | blank => rfl
  | tag name value =>
      rw [if_neg (by simp [DocRow.content, String.append_eq_empty_iff]), ← String.toList_inj]
      simp [DocRow.content, DocRow.text]

theorem content_describedIf (isShown : Bool) (subject : String) (s : Settings) :
    (spaced 0 (describedIf isShown subject) s.linesAfterDescription.toNat).map DocRow.content =
      descriptionIf isShown (subject ++ " description.") s := by
  cases isShown <;> simp [spaced, describedIf, descriptionIf, blankLines, DocRow.content]

theorem content_returnTags (f : FunctionSignature) (s : Settings) :
    (spaced s.linesBeforeReturn.toNat (returnTags f s) 0).map DocRow.content =
      returnLines f.returnHint s := by
  by_cases h : f.returnHint ≠ "void" ∨ s.returnVoid = true
  · have hshown : (s.returnVoid || f.returnHint != "void") = true := by simpa [or_comm] using h
    rw [returnTags, if_pos h, returnLines, if_pos hshown]
    simp [spaced, blankLines, DocRow.content]
  · have hhidden : ¬ (s.returnVoid || f.returnHint != "void") = true := by simpa [or_comm] using h
    rw [returnTags, if_neg h, returnLines, if_neg hhidden]
    rfl

theorem content_throwsTags (f : FunctionSignature) (s : Settings) :
    (spaced s.linesBeforeThrows.toNat (throwsTags f s) 0).map DocRow.content =
      throwsLines f.throws s := by
  unfold throwsTags throwsLines
  split
  · rfl
  · next hne =>
      split
      · simp [spaced, hne, blankLines, DocRow.content]
      · simp [spaced, blankLines, DocRow.content]

theorem docLines_eq_content (signature : Signature) (s : Settings) :
    docLines signature s = (rows signature s).map DocRow.content := by
  cases signature with
  | classLike c => rfl
  | constant c => simp [docLines, rows, described, tags, content_describedIf, DocRow.content]
  | property p => simp [docLines, rows, described, tags, content_describedIf, DocRow.content]
  | function f =>
      rw [docLines, functionLines, rows, described, List.map_append, List.map_append,
        List.map_append, content_describedIf, content_returnTags, content_throwsTags]
      simp [parameterTags, DocRow.content, String.append_assoc]

theorem doc_eq_join {signature : Signature} (h : signature.name ≠ "") (tab : String)
    (s : Settings) :
    doc signature tab s =
      String.join ((openLines signature s ++ [" */"]).map (tabbed tab)) := by
  rw [doc_eq, if_neg h, docBlock_eq, docLines_eq_content]
  simp [openLines, String.join_append, docLine_content, Function.comp_def, String.append_assoc]

/-! No row ends the comment -/

theorem commentSafe_description {subject : String} (h : CommentSafe subject) :
    CommentSafe (DocRow.description subject).text := by
  have hfront : CommentSafe (" * " ++ subject) :=
    CommentSafe.append_of_last (by decide) h (by decide)
  exact hfront.append_of_first (by decide) (by decide)

theorem commentSafe_tag {name value : String} (hname : CommentSafe (" * @" ++ name ++ " "))
    (hvalue : CommentSafe value) : CommentSafe (DocRow.tag name value).text := by
  refine hname.append_of_last hvalue ?_
  rw [String.toList_append, List.getLast?_append]
  exact (by decide : Apart closingMark.toList (some ' '))

theorem commentSafe_parameter {p : ParameterSignature} (hname : CommentSafe p.name)
    (hhint : CommentSafe p.hint) : CommentSafe (p.hint ++ " $" ++ p.name) := by
  have hfront : CommentSafe (p.hint ++ " $") := hhint.append_of_first (by decide) (by decide)
  refine hfront.append_of_last hname ?_
  rw [String.toList_append, List.getLast?_append]
  exact (by decide : Apart closingMark.toList (some '$'))

theorem commentSafe_describedIf {subject : String} (h : CommentSafe subject) (isShown : Bool) :
    ∀ r ∈ describedIf isShown subject, CommentSafe r.text := by
  intro r hr
  unfold describedIf at hr
  split at hr
  · rw [List.mem_singleton.mp hr]
    exact commentSafe_description h
  · exact absurd hr List.not_mem_nil

theorem commentSafe_spaced {group : List DocRow} (h : ∀ r ∈ group, CommentSafe r.text)
    (before after : Nat) : ∀ r ∈ spaced before group after, CommentSafe r.text := by
  have hblank (n : Nat) : ∀ r ∈ List.replicate n DocRow.blank, CommentSafe r.text := by
    intro r hr
    rw [List.eq_of_mem_replicate hr]
    decide
  unfold spaced
  split
  · exact fun r hr => absurd hr List.not_mem_nil
  · exact List.forall_mem_append.mpr
      ⟨List.forall_mem_append.mpr ⟨hblank before, h⟩, hblank after⟩

theorem commentSafe_throwsTags {f : FunctionSignature} (h : ∀ t ∈ f.throws, CommentSafe t)
    (s : Settings) : ∀ r ∈ throwsTags f s, CommentSafe r.text := by
  intro r hr
  unfold throwsTags at hr
  split at hr
  · exact absurd hr List.not_mem_nil
  · split at hr
    · obtain ⟨t, ht, rfl⟩ := List.mem_map.mp hr
      exact commentSafe_tag (by decide) (h t ht)
    · rw [List.mem_singleton.mp hr]
      exact commentSafe_tag (by decide) (CommentSafe.join_bars h)

theorem commentSafe_rows {signature : Signature} (h : ∀ t ∈ signature.texts, CommentSafe t)
    (s : Settings) : ∀ r ∈ rows signature s, CommentSafe r.text := by
  cases signature with
  | classLike c =>
      have hname : CommentSafe c.name := by simpa [Signature.texts] using h
      have hkeyword : CommentSafe (capitalize c.keyword.text ++ " ") ∧
          Apart closingMark.toList (capitalize c.keyword.text ++ " ").toList.getLast? := by
        cases c.keyword <;> decide
      exact List.forall_mem_singleton.mpr
        (commentSafe_description (hkeyword.1.append_of_last hname hkeyword.2))
  | constant c =>
      obtain ⟨hname, hhint⟩ : CommentSafe c.name ∧ CommentSafe c.hint := by
        simpa [Signature.texts] using h
      exact List.forall_mem_append.mpr ⟨commentSafe_spaced (commentSafe_describedIf hname _) _ _,
        List.forall_mem_singleton.mpr (commentSafe_tag (by decide) hhint)⟩
  | property p =>
      obtain ⟨hname, hmembers⟩ := List.forall_mem_cons.mp h
      have hhint := UnionType.commentSafe_docText hmembers
      exact List.forall_mem_append.mpr ⟨commentSafe_spaced (commentSafe_describedIf hname _) _ _,
        List.forall_mem_singleton.mpr (commentSafe_tag (by decide) hhint)⟩
  | function f =>
      obtain ⟨hname, h⟩ := List.forall_mem_cons.mp h
      obtain ⟨hreturn, h⟩ := List.forall_mem_cons.mp h
      obtain ⟨hparameters, hthrows⟩ := List.forall_mem_append.mp h
      have hparams : ∀ r ∈ parameterTags f, CommentSafe r.text := by
        intro r hr
        obtain ⟨p, hp, rfl⟩ := List.mem_map.mp hr
        have hmem {t : String} (ht : t ∈ [p.name, p.hint]) : CommentSafe t :=
          hparameters t (List.mem_flatMap.mpr ⟨p, hp, ht⟩)
        exact commentSafe_tag (by decide)
          (commentSafe_parameter (hmem (by simp)) (hmem (by simp)))
      have hreturns : ∀ r ∈ returnTags f s, CommentSafe r.text := by
        intro r hr
        unfold returnTags at hr
        split at hr
        · rw [List.mem_singleton.mp hr]
          exact commentSafe_tag (by decide) hreturn
        · exact absurd hr List.not_mem_nil
      refine List.forall_mem_append.mpr ⟨List.forall_mem_append.mpr
        ⟨List.forall_mem_append.mpr ⟨?_, hparams⟩, ?_⟩, ?_⟩
      · exact commentSafe_spaced (commentSafe_describedIf hname _) _ _
      · exact commentSafe_spaced hreturns _ _
      · exact commentSafe_spaced (commentSafe_throwsTags hthrows s) _ _

theorem commentSafe_openLines {signature : Signature}
    (h : ∀ t ∈ signature.texts, CommentSafe t) (s : Settings) :
    ∀ b ∈ openLines signature s, CommentSafe b :=
  List.forall_mem_cons.mpr ⟨by decide, List.forall_mem_map.mpr (commentSafe_rows h s)⟩

/-! The tags as they stand in the text -/

def tagOn? (tab line : String) : Option String :=
  if (tab ++ " * @").toList.isPrefixOf line.toList then
    some (String.ofList (line.toList.drop (tab.length + 3)))
  else none

theorem tagOn?_append (tab body : String) :
    tagOn? tab (tab ++ body) =
      if " * @".toList.isPrefixOf body.toList then some (String.ofList (body.toList.drop 3))
      else none := by
  have hiff : (tab ++ " * @").toList.isPrefixOf (tab ++ body).toList =
      " * @".toList.isPrefixOf body.toList := by
    rw [Bool.eq_iff_iff, List.isPrefixOf_iff_prefix, List.isPrefixOf_iff_prefix,
      String.toList_append, String.toList_append, List.prefix_append_right_inj]
  have hdrop : (tab ++ body).toList.drop (tab.length + 3) = body.toList.drop 3 := by
    rw [String.toList_append, ← String.length_toList, List.drop_append, ← List.drop_drop]
    simp
  rw [tagOn?, hiff, hdrop]

theorem tagOn?_text (tab : String) (r : DocRow) :
    tagOn? tab (tab ++ r.text) = if r.looksLikeTag then some r.content else none := by
  rw [tagOn?_append]
  cases r with
  | description subject =>
      cases hs : subject.toList with
      | nil => simp [DocRow.text, DocRow.looksLikeTag, hs]
      | cons c cs =>
          by_cases hc : c = '@'
          · simp [DocRow.text, DocRow.looksLikeTag, DocRow.content, hs, hc, ← String.toList_inj]
          · simp [DocRow.text, DocRow.looksLikeTag, hs, hc, Ne.symm hc]
  | blank => rfl
  | tag name value =>
      simp [DocRow.text, DocRow.looksLikeTag, DocRow.content, ← String.toList_inj]

theorem filter_looksLikeTag_spaced (before after : Nat) (group : List DocRow) :
    (spaced before group after).filter DocRow.looksLikeTag =
      group.filter DocRow.looksLikeTag := by
  unfold spaced
  split
  · next h => rw [h]
  · simp [DocRow.looksLikeTag]

theorem looksLikeTag_tags (signature : Signature) (s : Settings) :
    ∀ r ∈ tags signature s, r.looksLikeTag = true := by
  cases signature with
  | classLike c => exact fun r hr => absurd hr List.not_mem_nil
  | constant c => exact List.forall_mem_singleton.mpr rfl
  | property p => exact List.forall_mem_singleton.mpr rfl
  | function f =>
      refine List.forall_mem_append.mpr ⟨List.forall_mem_append.mpr ⟨?_, ?_⟩, ?_⟩
      · exact List.forall_mem_map.mpr fun p _ => rfl
      · unfold returnTags
        split <;> simp [DocRow.looksLikeTag]
      · unfold throwsTags
        split
        · simp
        · split <;> simp [DocRow.looksLikeTag]

theorem filter_looksLikeTag_rows (signature : Signature) (s : Settings) :
    (rows signature s).filter DocRow.looksLikeTag =
      (described signature s).filter DocRow.looksLikeTag ++ tags signature s := by
  have htags : (tags signature s).filter DocRow.looksLikeTag = tags signature s :=
    List.filter_eq_self.mpr (looksLikeTag_tags signature s)
  cases signature with
  | classLike c => exact (List.append_nil _).symm
  | constant c => rw [rows, List.filter_append, filter_looksLikeTag_spaced, htags]
  | property p => rw [rows, List.filter_append, filter_looksLikeTag_spaced, htags]
  | function f =>
      rw [← htags]
      simp [rows, tags, filter_looksLikeTag_spaced]

/-! The block as one comment -/

structure IsComment (signature : Signature) (tab : String) (s : Settings) (text : String) :
    Prop where
  lines : splitLines text = (openLines signature s).map (tab ++ ·) ++ [tab ++ " */", ""]
  opens : (tab ++ "/**").toList <+: text.toList
  indented : ∀ line ∈ (splitLines text).dropLast, tab.toList <+: line.toList
  closes_once : occurrences closingMark text = 1
  open_before : ∀ line ∈ (splitLines text).dropLast.dropLast,
    ¬ closingMark.toList <:+: line.toList
  tagged : (splitLines text).filterMap (tagOn? tab) =
    ((described signature s).filter DocRow.looksLikeTag ++ tags signature s).map DocRow.content

section

variable {signature : Signature} {tab : String}

theorem not_mem_closingMark (h : tab.toList.all isBlank = true) :
    ∀ c ∈ tab.toList, c ∉ closingMark.toList := by
  intro c hc hmark
  have hnone : closingMark.toList.all (fun c => !isBlank c) = true := by decide
  have hblank := List.all_eq_true.mp h c hc
  simpa [hblank] using List.all_eq_true.mp hnone c hmark

theorem splitLines_doc (hname : signature.name ≠ "") (htab : Lacks '\n' tab)
    (hsafe : ∀ t ∈ signature.texts, CommentSafe t) (s : Settings) :
    splitLines (doc signature tab s) =
      (openLines signature s).map (tab ++ ·) ++ [tab ++ " */", ""] := by
  have hbodies : ∀ b ∈ openLines signature s ++ [" */"], Lacks '\n' b :=
    List.forall_mem_append.mpr
      ⟨fun b hb => (commentSafe_openLines hsafe s b hb).on_one_line,
        List.forall_mem_singleton.mpr (by decide)⟩
  rw [doc_eq_join hname, splitLines_join_tabbed htab hbodies, List.map_append, List.append_assoc]
  rfl

theorem occurrences_doc (hname : signature.name ≠ "")
    (htab : ∀ c ∈ tab.toList, c ∉ closingMark.toList)
    (hsafe : ∀ t ∈ signature.texts, CommentSafe t) (s : Settings) :
    occurrences closingMark (doc signature tab s) = 1 := by
  rw [doc_eq_join hname, occurrences_join_tabbed closingMark_ne_nil (by decide) htab
    fun b hb => (commentSafe_openLines hsafe s b hb).omits]
  decide

theorem opens_doc (hname : signature.name ≠ "") (s : Settings) :
    (tab ++ "/**").toList <+: (doc signature tab s).toList := by
  rw [doc_eq_join hname, openLines, List.cons_append, List.map_cons, String.join_cons,
    toList_tabbed_append]
  exact List.prefix_append _ _

theorem commentSafe_tab_append (hblank : tab.toList.all isBlank = true) (htab : Lacks '\n' tab)
    {body : String} (h : CommentSafe body) : CommentSafe (tab ++ body) := by
  have hapart := not_mem_closingMark hblank
  have hsafe : CommentSafe tab :=
    commentSafe_iff.mpr ⟨htab, omits_of_disjoint closingMark_ne_nil hapart⟩
  exact hsafe.append_of_last h fun c hc => hapart c (List.mem_of_getLast? hc)

theorem tagOn?_lines (signature : Signature) (tab : String) (s : Settings) :
    ((openLines signature s).map (tab ++ ·) ++ [tab ++ " */", ""]).filterMap (tagOn? tab) =
      ((described signature s).filter DocRow.looksLikeTag ++ tags signature s).map
        DocRow.content := by
  have hopen : tagOn? tab (tab ++ "/**") = none := tagOn?_append tab _
  have hclose : tagOn? tab (tab ++ " */") = none := tagOn?_append tab _
  have hend : tagOn? tab "" = none := by simp [tagOn?]
  rw [openLines, List.map_cons, List.filterMap_append, List.filterMap_cons_none hopen,
    List.filterMap_map, List.filterMap_map, List.filterMap_cons_none hclose,
    List.filterMap_cons_none hend, List.filterMap_nil, List.append_nil,
    ← filter_looksLikeTag_rows, ← List.filterMap_eq_map, List.filterMap_filter]
  simp only [Function.comp_def, tagOn?_text]

end

end Template

open Template

theorem doc_isComment {signature : Signature} {tab : String}
    (hblank : tab.toList.all isBlank = true) (htab : Lacks '\n' tab)
    (hsafe : ∀ t ∈ signature.texts, CommentSafe t) (s : Settings) :
    (doc signature tab s = "" ↔ signature.name = "") ∧
      (signature.name ≠ "" → IsComment signature tab s (doc signature tab s)) := by
  refine ⟨⟨fun hempty => Decidable.byContradiction fun hname => doc_ne_empty hname hempty,
    fun hname => by rw [doc_eq, if_pos hname]⟩, fun hname => ?_⟩
  have hlines := splitLines_doc hname htab hsafe s
  have hinit : (splitLines (doc signature tab s)).dropLast =
      (openLines signature s).map (tab ++ ·) ++ [tab ++ " */"] := by
    rw [hlines, List.dropLast_append_cons]
    rfl
  refine ⟨hlines, opens_doc hname s, ?_,
    occurrences_doc hname (not_mem_closingMark hblank) hsafe s, ?_, ?_⟩
  · rw [hinit]
    refine List.forall_mem_append.mpr ⟨fun line hline => ?_, by simp⟩
    obtain ⟨body, -, rfl⟩ := List.mem_map.mp hline
    simp
  · rw [hinit, List.dropLast_concat]
    intro line hline
    obtain ⟨body, hbody, rfl⟩ := List.mem_map.mp hline
    exact (commentSafe_tab_append hblank htab (commentSafe_openLines hsafe s body hbody)).no_close
  · rw [hlines, tagOn?_lines]

-- Each text begins or ends with half of the mark, so only what the block puts between the texts
-- keeps the halves apart.
theorem doc_isComment_marked :
    let f : FunctionSignature :=
      { name := "/run*", parameters := [⟨"/n", "int*"⟩], returnHint := "/void*",
        throws := ["A*", "/B"] }
    let s : Settings :=
      { functionDescription := true, linesAfterDescription := 1, linesBeforeReturn := 2,
        linesBeforeThrows := 1, throwsOnOwnLines := false }
    (∀ t ∈ (Signature.function f).texts, CommentSafe t) ∧
      doc (.function f) "\t " s ≠ "" ∧
      occurrences closingMark (doc (.function f) "\t " s) = 1 ∧
      (splitLines (doc (.function f) "\t " s)).filterMap (tagOn? "\t ") =
        ["@param int* $/n", "@return /void*", "@throws A*|/B"] ∧
      (splitLines (doc (.function f) "\t " s)).count "\t  *" = 4 := by
  intro f s
  have hsafe : ∀ t ∈ (Signature.function f).texts, CommentSafe t := by decide
  have hname : (Signature.function f).name ≠ "" := by decide
  obtain ⟨hempty, hcomment⟩ := @doc_isComment (.function f) "\t " (by decide) (by decide) hsafe s
  have hcomment := hcomment hname
  refine ⟨hsafe, fun h => hname (hempty.mp h), hcomment.closes_once, ?_, ?_⟩
  · rw [hcomment.tagged]
    decide
  · rw [hcomment.lines]
    decide

theorem doc_second_var :
    (CommentSafe "@var bogus" ∧ CommentSafe "int") ∧
      tags (.constant ⟨"@var bogus", "int"⟩)
          { constantDescription := true, linesAfterDescription := 0 } = [.tag "var" "int"] ∧
      (splitLines (doc (.constant ⟨"@var bogus", "int"⟩) ""
          { constantDescription := true, linesAfterDescription := 0 })).filterMap (tagOn? "") =
        ["@var bogus description.", "@var int"] := by
  decide

end Scaffold
