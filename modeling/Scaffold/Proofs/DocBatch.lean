import Scaffold.Proofs.Batch
import Scaffold.Proofs.Site
import Scaffold.Proofs.WholeLines
/-!
Documentation for several lines at once is documentation for each of them alone, from the last line
to the first: a block that is inserted further down changes nothing that a line above it shows.
-/
namespace Scaffold

open Text Insertion

def DeclaresNoFunction (document : String) (line : Nat) : Prop :=
  ∀ text declared, (lines document)[line]? = some text →
    DeclarationLine.parse? text = some declared → declared.kind ≠ .function

def pendingDocs (settings : Settings) (document : String) (lines : List Nat) : List Insertion :=
  (lines.filter fun line => !isDocumented document line).flatMap (docOn settings document)

theorem pendingDocs_cons (settings : Settings) (document : String) (line : Nat)
    (lines : List Nat) :
    pendingDocs settings document (line :: lines) =
      pendingDocs settings document [line] ++ pendingDocs settings document lines := by
  unfold pendingDocs
  rw [← List.flatMap_append, ← List.filter_append, List.singleton_append]

theorem fits_pendingDocs {lines : List Nat} (h : lines.Pairwise (· < ·)) (settings : Settings)
    (document : String) : Fits document (pendingDocs settings document lines) :=
  fits_docOn (h.filter _) settings document

theorem mem_pendingDocs {settings : Settings} {document : String} {lines : List Nat}
    {i : Insertion} (h : i ∈ pendingDocs settings document lines) :
    i.line ∈ lines ∧ i.line < (splitChars document.toList).length := by
  obtain ⟨line, hline, hi⟩ := List.mem_flatMap.mp h
  obtain ⟨rfl, hlt, -⟩ := mem_docOn hi
  exact ⟨(List.mem_filter.mp hline).1, Nat.lt_of_lt_of_le hlt (length_lines_le document)⟩

theorem sameUpTo_applyAll {document : String} {insertions : List Insertion} {n : Nat}
    (hasc : Ascending insertions)
    (h : ∀ i ∈ insertions, n ≤ i.line ∧ i.line < (splitChars document.toList).length) :
    SameUpTo n document (applyAll document insertions) := by
  cases insertions with
  | nil =>
      rw [applyAll_nil]
      rfl
  | cons i rest =>
      have hi := h i (by simp)
      obtain ⟨a, b, rfl, ha, rfl⟩ := exists_whole document (Nat.lt_of_le_of_lt hi.1 hi.2)
      obtain ⟨b', hb⟩ := applyAll_keeps ha b hasc fun j hj => (h j hj).1
      rw [hb]
      exact sameUpTo_append ha b b'

theorem docOn_eq {n line : Nat} {t t' : String} (h : SameUpTo n t t') (hlt : line < n)
    (hf : DeclaresNoFunction t line) (settings : Settings) :
    docOn settings t' line = docOn settings t line := by
  unfold docOn
  rw [← h.ofLine?_eq hlt]
  cases hs : Site.ofLine? t line with
  | none => rfl
  | some s =>
      have hd := s.docText_eq (fun declared => hf s.text declared (Site.text_of_ofLine? hs))
        t' t settings
      dsimp only
      rw [hd]

theorem pendingDocs_singleton_eq {n line : Nat} {t t' : String} (h : SameUpTo n t t')
    (hlt : line < n) (hf : DeclaresNoFunction t line) (settings : Settings) :
    pendingDocs settings t' [line] = pendingDocs settings t [line] := by
  simp only [pendingDocs, List.filter_cons, List.filter_nil,
    h.isDocumented_eq (Nat.le_of_lt hlt)]
  split
  · simp only [List.flatMap_cons, List.flatMap_nil, docOn_eq h hlt hf]
  · rw [List.flatMap_nil, List.flatMap_nil]

def docStep (settings : Settings) (line : Nat) (text : String) : String :=
  applyAll text (pendingDocs settings text [line])

theorem applyAll_pendingDocs {document : String} {lines : List Nat}
    (hlines : lines.Pairwise (· < ·)) (hf : ∀ line ∈ lines, DeclaresNoFunction document line)
    (settings : Settings) :
    applyAll document (pendingDocs settings document lines) =
      lines.foldr (docStep settings) document := by
  induction lines with
  | nil => exact applyAll_nil document
  | cons line rest ih =>
      obtain ⟨hlt, hrest⟩ := List.pairwise_cons.mp hlines
      have ih := ih hrest fun l hl => hf l (by simp [hl])
      -- The lines up to this one are still there once the later ones are done.
      have hsame : SameUpTo (line + 1) document
          (applyAll document (pendingDocs settings document rest)) := by
        refine sameUpTo_applyAll (fits_pendingDocs hrest settings document).ascending ?_
        intro i hi
        obtain ⟨hmem, hin⟩ := mem_pendingDocs hi
        exact ⟨hlt i.line hmem, hin⟩
      have hpending := pendingDocs_singleton_eq hsame (Nat.lt_succ_self line)
        (hf line (by simp)) settings
      have hasc := (fits_pendingDocs hlines settings document).ascending
      rw [pendingDocs_cons] at hasc ⊢
      rw [applyAll_append hasc fun i hi => (mem_pendingDocs hi).2, List.foldr_cons, docStep, ← ih,
        hpending]

namespace Server

theorem editedAt_doc (ctx : Context) (uri : Uri) (text : String) (line : Nat) :
    editedAt ctx uri text (.doc false, line) =
      if (Document.mk uri text line).isPhp then docStep ctx.settings line text else text := by
  unfold editedAt Command.draft
  split
  · have h : (chosenLines ctx ⟨uri, text, line⟩ false "Select declarations to document"
        fun _ => true).outcome = .ok [line] := rfl
    dsimp only
    rw [outcome_docDraft h, docStep, pendingDocs, edited]
  · rfl

theorem edited_doc_many (ctx : Context) (d : Document) {lines : List Nat}
    (h : pickedLines ctx.editor "Select declarations to document" d.text (fun _ => true) = lines) :
    edited d.text ((Command.doc true).draft ctx d).outcome =
      if d.isPhp then applyAll d.text (pendingDocs ctx.settings d.text lines) else d.text := by
  unfold Command.draft
  split
  · dsimp only
    by_cases hne : lines = []
    · unfold docDraft
      rw [edited_of_none_picked (h.trans hne), hne]
      exact (applyAll_nil d.text).symm
    · rw [outcome_docDraft (chosenLines_many_eq_ok.mpr ⟨h.symm, hne⟩), pendingDocs, edited]
  · rfl

theorem foldl_editedAt_doc (ctx : Context) (uri : Uri) (old : String) (lines : List Nat) :
    (lines.reverse.map fun l => (Command.doc false, l)).foldl (editedAt ctx uri) old =
      if (Document.mk uri old 0).isPhp then lines.foldr (docStep ctx.settings) old else old := by
  rw [List.foldl_map, List.foldl_reverse]
  induction lines with
  | nil => simp
  | cons line lines ih =>
      rw [List.foldr_cons, ih, editedAt_doc]
      change (if (Document.mk uri old 0).isPhp = true then _ else _) = _
      split
      · rfl
      · rfl

theorem doc_many_eq_bottom_up {s : Server} {uri : Uri} {old : String} {lines : List Nat}
    (hold : s.documents.get? uri.text = some old) (hlines : lines.Pairwise (· < ·))
    (hoffered : ∀ l ∈ lines, ∃ c ∈ Choice.ofDocument old fun _ => true,
      c.line = l ∧ c.declared.kind ≠ .function) :
    (∃ editor : Editor, editor.Picks (Choice.ofDocument old fun _ => true) lines) ∧
      ∀ editor : Editor, editor.Picks (Choice.ofDocument old fun _ => true) lines →
        ∀ line? : Option Nat, ∃ new,
          (s.run (.doc true) uri line? editor).1.documents.get? uri.text = some new ∧
          (s.runAt uri editor (lines.reverse.map fun l => (.doc false, l))).documents.get? uri.text
            = some new ∧
          ((Document.mk uri old 0).isPhp = true →
            new = applyAll old (pendingDocs s.settings old lines)) := by
  refine ⟨Editor.exists_picks old _ lines, fun editor hpicks line? => ?_⟩
  have hf : ∀ l ∈ lines, DeclaresNoFunction old l := by
    intro l hl text declared ht hd
    obtain ⟨c, hc, hline, hkind⟩ := hoffered l hl
    obtain ⟨text', ht', hd', -⟩ := Choice.mem_ofDocument.mp ⟨c, hc, hline, rfl⟩
    obtain rfl : text' = text := Option.some.inj (ht'.symm.trans ht)
    rwa [← Option.some.inj (hd'.symm.trans hd)]
  have hpicked := hpicks.pickedLines_eq hlines
    (fun l hl => (hoffered l hl).imp fun c hc => ⟨hc.1, hc.2.1⟩) "Select declarations to document"
  have hmany := edited_doc_many (s.context editor) ⟨uri, old, s.cursor uri line?⟩ hpicked
  have hphp : (Document.mk uri old (s.cursor uri line?)).isPhp = (Document.mk uri old 0).isPhp := rfl
  rw [hphp] at hmany
  refine ⟨_, get?_run hold hpicks.applies (.doc true) line?, ?_, ?_⟩
  · rw [get?_runAt hold hpicks.applies, foldl_editedAt_doc, hmany,
      ← applyAll_pendingDocs hlines hf]
  · intro h
    rw [hmany, if_pos h]
    rfl

def sampleClass : String :=
  "<?php\nclass A\n\x7b\n    const B = 1;\n    private $c;\n\x7d\n"

theorem doc_many_eq_bottom_up_sample :
    let s := openDocument {} sampleUri sampleClass
    [1, 3, 4].Pairwise (· < ·) ∧
      (∀ l ∈ [1, 3, 4], ∃ c ∈ Choice.ofDocument sampleClass fun _ => true,
        c.line = l ∧ c.declared.kind ≠ .function) ∧
      (pendingDocs s.settings sampleClass [1, 3, 4]).map Insertion.line = [1, 3, 4] ∧
      ∃ editor : Editor, ∃ new,
        (s.run (.doc true) sampleUri none editor).1.documents.get? sampleUri.text = some new ∧
        (s.runAt sampleUri editor
          [(.doc false, 4), (.doc false, 3), (.doc false, 1)]).documents.get? sampleUri.text
          = some new ∧
        new = applyAll sampleClass (pendingDocs s.settings sampleClass [1, 3, 4]) := by
  have hlines : [1, 3, 4].Pairwise (· < ·) := by decide
  have hoffered : ∀ l ∈ [1, 3, 4], ∃ c ∈ Choice.ofDocument sampleClass fun _ => true,
      c.line = l ∧ c.declared.kind ≠ .function := by decide +kernel
  have hold : (openDocument {} sampleUri sampleClass).documents.get? sampleUri.text =
      some sampleClass := by
    simp [get?_openDocument]
  refine ⟨hlines, hoffered, by decide +kernel, ?_⟩
  obtain ⟨⟨editor, hpicks⟩, h⟩ := doc_many_eq_bottom_up hold hlines hoffered
  obtain ⟨new, hmany, hsingles, hnew⟩ := h editor hpicks none
  exact ⟨editor, new, hmany, hsingles, hnew rfl⟩

end Server

end Scaffold
