import Scaffold.Proofs.Batch
import Scaffold.Proofs.Occurrences
import Scaffold.Proofs.Template
/-!
How often the tag that opens a file stands in a document. A new class-like brings its own tag and is
put before the text that is there; it is offered where that text is blank or a tag alone. So a blank
document gets one tag, and a document that has its tag ends up with two.
-/
namespace Scaffold

open Dialog Text

namespace Template

def openingTag : String := "<?php"

theorem occurrences_tag_append {a : String} (h : IsWhole a.toList) (b : String) :
    occurrences openingTag (a ++ b) = occurrences openingTag a + occurrences openingTag b := by
  rw [occurrences, String.toList_append]
  refine occurrencesIn_append_of_getLast? (by decide) (fun c hc => ?_) b.toList
  rcases h with h | h
  · simp [h] at hc
  · obtain rfl := Option.some.inj (h.symm.trans hc)
    decide

structure Untagged (text : String) : Prop where
  whole : IsWhole text.toList
  untagged : occurrences openingTag text = 0

theorem Untagged.empty : Untagged "" :=
  ⟨isWhole_nil, rfl⟩

theorem Untagged.append {a b : String} (ha : Untagged a) (hb : Untagged b) :
    Untagged (a ++ b) := by
  constructor
  · rw [String.toList_append]
    exact ha.whole.append hb.whole
  · rw [occurrences_tag_append ha.whole, ha.untagged, hb.untagged]

theorem Untagged.around {front back name : String}
    (hfront : occurrences openingTag front = 0)
    (hlast : Apart openingTag.toList front.toList.getLast?)
    (hback : occurrences openingTag back = 0) (hends : EndsLine back)
    (hfirst : Apart openingTag.toList back.toList.head?)
    (hname : occurrences openingTag name = 0) : Untagged (front ++ (name ++ back)) := by
  constructor
  · exact (EndsLine.append _ (EndsLine.append _ hends)).isWhole
  · rw [occurrences, String.toList_append, occurrencesIn_append_of_getLast? (by decide) hlast,
      String.toList_append, occurrencesIn_append_of_head? (by decide) hfirst]
    exact Nat.add_eq_zero_iff.mpr ⟨hfront, Nat.add_eq_zero_iff.mpr ⟨hname, hback⟩⟩

theorem docBlock_title (title name : String) :
    docBlock [title ++ " " ++ name] "" = "/**\n * " ++ title ++ " " ++ (name ++ "\n */\n") := by
  rw [← String.toList_inj]
  simp [docBlock, docLine, String.join]

theorem isWhole_skeleton (keyword : Php.ClassKeyword) (name nameSpace : String) (s : Settings) :
    IsWhole (skeleton keyword name nameSpace s).toList := by
  by_cases h : skeleton keyword name nameSpace s = ""
  · rw [h]
    exact isWhole_nil
  · exact (endsLine_skeleton h).isWhole

theorem occurrences_skeleton {name nameSpace : String}
    (hn : occurrences openingTag name = 0) (hs : occurrences openingTag nameSpace = 0)
    (keyword : Php.ClassKeyword) (s : Settings) :
    occurrences openingTag (skeleton keyword name nameSpace s) = if name = "" then 0 else 1 := by
  by_cases hname : name = ""
  · rw [skeleton, if_pos hname, if_pos hname]
    rfl
  have hstrict : Untagged (if s.strictTypes then "declare(strict_types=1);\n\n" else "") := by
    split
    · exact ⟨.inr (by decide), by decide⟩
    · exact .empty
  have hspace : Untagged (if nameSpace = "" then "" else "namespace " ++ nameSpace ++ ";\n\n") := by
    split
    · exact .empty
    · rw [String.append_assoc]
      exact .around (by decide) (by decide) (by decide) (by decide) (by decide) hs
  have hdoc : Untagged (if s.skeletonDoc then
      docBlock [Text.capitalize keyword.text ++ " " ++ name] "" else "") := by
    split
    · rw [docBlock_title]
      exact .around (by cases keyword <;> decide) (by cases keyword <;> decide) (by decide)
        (by decide) (by decide) hn
    · exact .empty
  have hdeclared : Untagged (keyword.text ++ " " ++ (name ++ "\n\x7b\n\x7d\n")) :=
    .around (by cases keyword <;> decide) (by cases keyword <;> decide) (by decide)
      (by decide) (by decide) hn
  obtain ⟨-, hrest⟩ := hstrict.append (hspace.append (hdoc.append hdeclared))
  rw [skeleton, if_neg hname, if_neg hname]
  simp only [String.append_assoc] at hrest ⊢
  rw [occurrences_tag_append (.inr (by decide)), hrest]
  decide

end Template

open Template

theorem applyAll_top (document text : String) :
    Insertion.applyAll document [⟨0, text⟩] = text ++ document := by
  have h := Insertion.applyAll_singleton isWhole_nil document.toList text
  rwa [List.nil_append, List.nil_append, String.ofList_toList, String.ofList_append,
    String.ofList_toList, String.ofList_toList] at h

theorem edited_skeletonDraft {d : Document} {path : Path} (hpath : d.uri.path? = some path)
    (ctx : Context) (keyword : Php.ClassKeyword) :
    edited d.text (skeletonDraft ctx d keyword).outcome =
      skeleton keyword path.typeName (ctx.namespaceOf path) ctx.settings ++ d.text := by
  have hwarn : (warnOfEnum ctx keyword).outcome = .ok () := by
    unfold warnOfEnum
    split <;> rfl
  unfold skeletonDraft
  simp only [hpath]
  rw [outcome_bind_of_ok hwarn]
  -- Without a template nothing is inserted, which is the empty text at the top.
  split
  · next hempty => simp [hempty, edited]
  · exact applyAll_top d.text _

theorem isPhp_of_extension {d : Document} {path : Path} (hpath : d.uri.path? = some path)
    (h : path.extension?.any Path.isPhp = true) : d.isPhp = true := by
  unfold Document.isPhp
  rw [hpath, Option.bind_some]
  cases hext : path.extension? with
  | none => rfl
  | some extension => simpa [hext] using h

namespace Server

theorem skeleton_mem_offered_iff {document : String} {line : Nat} {keyword : Php.ClassKeyword} :
    .skeleton keyword ∈ offered document line ↔
      trim document = "" ∨ trim document = openingTag := by
  unfold offered openingTag
  dsimp only
  split
  · next hcontent =>
      have hall : Command.skeleton keyword ∈
          [.plain, .abstract, .final, .interface, .trait, .enum].map Command.skeleton := by
        cases keyword <;> decide
      exact ⟨fun _ => by simpa using hcontent, fun _ => hall⟩
  · next hcontent =>
      refine iff_of_false ?_ (by simpa using hcontent)
      cases (lines document)[line]?.bind DeclarationLine.parse? with
      | none => simp
      | some declared =>
          by_cases hk : declared.kind = .property <;>
            by_cases hd : isDocumented document line = true <;> simp [hk, hd]

theorem occurrences_of_offered {document : String} {line : Nat} {keyword : Php.ClassKeyword}
    (h : .skeleton keyword ∈ offered document line) :
    occurrences openingTag document = if trim document = "" then 0 else 1 := by
  rw [← occurrences_trim (by decide) (by decide)]
  rcases skeleton_mem_offered_iff.mp h with hcontent | hcontent <;> rw [hcontent] <;> decide

section

variable {s : Server} {uri : Uri} {path : Path} {editor : Editor}

theorem get?_run_skeleton {old : String} (hold : s.documents.get? uri.text = some old)
    (hpath : uri.path? = some path) (hphp : path.extension?.any Path.isPhp = true)
    (haccepts : ∀ insertions, editor.accepts insertions = true)
    (keyword : Php.ClassKeyword) (line? : Option Nat) :
    (s.run (.skeleton keyword) uri line? editor).1.documents.get? uri.text =
      some (skeleton keyword path.typeName ((s.context editor).namespaceOf path) s.settings
        ++ old) := by
  let d : Document := ⟨uri, old, s.cursor uri line?⟩
  have hdraft : (Command.skeleton keyword).draft (s.context editor) d =
      skeletonDraft (s.context editor) d keyword :=
    if_pos (isPhp_of_extension hpath hphp)
  rw [get?_run hold haccepts, hdraft]
  exact congrArg some (edited_skeletonDraft (d := d) hpath (s.context editor) keyword)

theorem occurrences_run_skeleton {line : Nat} {cs : List Command} {keyword : Php.ClassKeyword}
    (hpath : uri.path? = some path) (hphp : path.extension?.any Path.isPhp = true)
    (hactions : (s.codeActions uri line).2 = some cs) (hoffered : .skeleton keyword ∈ cs)
    (haccepts : ∀ insertions, editor.accepts insertions = true)
    (hname : ¬ openingTag.toList <:+: path.typeName.toList)
    (hspace : ¬ openingTag.toList <:+: ((s.context editor).namespaceOf path).toList)
    (line? : Option Nat) :
    ∃ old new, s.documents.get? uri.text = some old ∧
      ((s.codeActions uri line).1.run (.skeleton keyword) uri line? editor).1.documents.get?
        uri.text = some new ∧
      occurrences openingTag new =
        (if path.typeName = "" then 0 else 1) + (if trim old = "" then 0 else 1) := by
  cases hold : s.documents.get? uri.text with
  | none => simp [codeActions, hold] at hactions
  | some old =>
      let asked : Server := { s with cursors := s.cursors.insert uri.text line }
      have hasked : s.codeActions uri line = (asked, some (offered old line)) := by
        rw [codeActions, hold]
      rw [hasked] at hactions ⊢
      obtain rfl := Option.some.inj hactions
      have hold' : asked.documents.get? uri.text = some old := hold
      refine ⟨old, _, rfl, get?_run_skeleton hold' hpath hphp haccepts keyword line?, ?_⟩
      have hne : openingTag.toList ≠ [] := by decide
      have htemplate := occurrences_skeleton ((occurrencesIn_eq_zero_iff hne).mpr hname)
        ((occurrencesIn_eq_zero_iff hne).mpr hspace) keyword s.settings
      rw [occurrences_tag_append (isWhole_skeleton _ _ _ _), occurrences_of_offered hoffered]
      exact congrArg (· + _) htemplate

end

def samplePath : Path :=
  Path.ofString "/ws/src/Model/User.php"

def sampleFile : Uri :=
  ⟨"file:///ws/src/Model/User.php"⟩

theorem path?_sampleFile : sampleFile.path? = some samplePath := by
  decide +kernel

def sampleServer (text : String) : Server :=
  openDocument
    { root := some (Path.ofString "/ws"), project := { mappings := [⟨"App\\", "src/"⟩] } }
    sampleFile text

def sampleClient : Editor :=
  ⟨fun _ _ => [], fun _ => true⟩

theorem typeName_samplePath : samplePath.typeName = "User" := by
  decide +kernel

theorem namespaceOf_samplePath (text : String) :
    ((sampleServer text).context sampleClient).namespaceOf samplePath = "App\\Model" := by
  have h : namespaceOf [⟨"App\\", "src/"⟩] (Path.ofString "/ws")
      (Path.ofString "/ws/src/Model") = "App\\Model" := by
    decide +kernel
  have hparent : samplePath.parent? = some (Path.ofString "/ws/src/Model") := by decide +kernel
  rw [Context.namespaceOf, hparent]
  exact h

theorem codeActions_sampleServer (text : String) :
    ((sampleServer text).codeActions sampleFile 0).2 = some (offered text 0) := by
  simp [codeActions, sampleServer, get?_openDocument]

theorem occurrences_run_skeleton_blank :
    let s := sampleServer " \n"
    samplePath.extension?.any Path.isPhp = true ∧
      (s.codeActions sampleFile 0).2 = some (offered " \n" 0) ∧
      .skeleton .final ∈ offered " \n" 0 ∧
      (¬ openingTag.toList <:+: samplePath.typeName.toList ∧
        ¬ openingTag.toList <:+: ((s.context sampleClient).namespaceOf samplePath).toList) ∧
      ∃ new, ((s.codeActions sampleFile 0).1.run (.skeleton .final) sampleFile none
        sampleClient).1.documents.get? sampleFile.text = some new ∧
          occurrences openingTag new = 1 := by
  have hne : openingTag.toList ≠ [] := by decide
  have hphp : samplePath.extension?.any Path.isPhp = true := by decide +kernel
  have hactions := codeActions_sampleServer " \n"
  have hoffered : .skeleton .final ∈ offered " \n" 0 := by decide +kernel
  have hname : ¬ openingTag.toList <:+: samplePath.typeName.toList := by
    rw [typeName_samplePath, ← occurrencesIn_eq_zero_iff hne]
    decide
  have hspace : ¬ openingTag.toList <:+:
      (((sampleServer " \n").context sampleClient).namespaceOf samplePath).toList := by
    rw [namespaceOf_samplePath, ← occurrencesIn_eq_zero_iff hne]
    decide
  obtain ⟨old, new, hold, hnew, hcount⟩ := occurrences_run_skeleton path?_sampleFile hphp hactions
    hoffered (fun _ => rfl) hname hspace none
  have hblank : old = " \n" := by
    simpa [sampleServer, get?_openDocument] using hold.symm
  refine ⟨hphp, hactions, hoffered, ⟨hname, hspace⟩, new, hnew, ?_⟩
  rw [hcount, hblank, typeName_samplePath]
  decide

theorem occurrences_run_skeleton_tagged :
    let s := sampleServer "<?php\n"
    (s.codeActions sampleFile 0).2 = some (offered "<?php\n" 0) ∧
      .skeleton .final ∈ offered "<?php\n" 0 ∧
      ∃ new, (s.run (.skeleton .final) sampleFile none sampleClient).1.documents.get?
        sampleFile.text = some new ∧ occurrences openingTag new = 2 := by
  have hphp : samplePath.extension?.any Path.isPhp = true := by decide +kernel
  have hold : (sampleServer "<?php\n").documents.get? sampleFile.text = some "<?php\n" := by
    simp [sampleServer, get?_openDocument]
  refine ⟨codeActions_sampleServer _, by decide +kernel, _,
    get?_run_skeleton hold path?_sampleFile hphp (fun _ => rfl) .final none, ?_⟩
  rw [typeName_samplePath, namespaceOf_samplePath,
    occurrences_tag_append (isWhole_skeleton _ _ _ _), occurrences_skeleton (by decide) (by decide)]
  decide

end Server

end Scaffold
