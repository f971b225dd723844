import Scaffold.Proofs.AccessorBatch
import Scaffold.Server.Protocol
/-!
Picking is unambiguous and free of order. Each offered label stands for one line, and any choice of
them can be picked by its labels. Two editors whose answers hold the same of the offered labels, in
whatever order and with whatever else, and that accept the same edits, make the same of every
command: the same edit, the same messages and the same text.
-/
namespace Scaffold

open Dialog

namespace Choice

theorem label_ne_everyLabel {document : String} {accept : DeclarationLine → Bool} {c : Choice}
    (h : c ∈ ofDocument document accept) : c.label ≠ Protocol.everyLabel := by
  obtain ⟨k, text, hk, hlabel⟩ := exists_ordinal h
  intro heq
  have hordinal := ordinal_of_label k text
  rw [← hlabel, heq] at hordinal
  have hnone : Nat.ofDigitChars 10 (Protocol.everyLabel.toList.takeWhile Char.isDigit) 0 = 0 := by
    decide
  omega

theorem restrict_congr {choices : List Choice} {picked picked' : List String}
    (h : ∀ c ∈ choices, c.label ∈ picked ↔ c.label ∈ picked') :
    restrict choices picked = restrict choices picked' := by
  refine List.filter_congr fun c hc => ?_
  rw [Bool.eq_iff_iff, List.contains_iff_mem, List.contains_iff_mem]
  exact h c hc

theorem restrict_labels {choices chosen : List Choice}
    (hlabels : choices.Pairwise fun a b => a.label ≠ b.label) (h : chosen.Sublist choices) :
    restrict choices (chosen.map label) = chosen := by
  induction h with
  | slnil => rfl
  | @cons chosen choices c h ih =>
      obtain ⟨hne, hlabels⟩ := List.pairwise_cons.mp hlabels
      have hout : c.label ∉ chosen.map label := by
        intro hm
        obtain ⟨c', hc', heq⟩ := List.mem_map.mp hm
        exact hne c' (h.mem hc') heq.symm
      rw [restrict, List.filter_cons_of_neg (by simpa using hout)]
      exact ih hlabels
  | @cons_cons chosen choices c h ih =>
      obtain ⟨hne, hlabels⟩ := List.pairwise_cons.mp hlabels
      have hrest : restrict choices ((c :: chosen).map label) =
          restrict choices (chosen.map label) :=
        restrict_congr fun c' hc' => by simp [(hne c' hc').symm]
      rw [restrict, List.filter_cons_of_pos (by simp)]
      exact congrArg (c :: ·) (hrest.trans (ih hlabels))

end Choice

structure Editor.Agrees (editor editor' : Editor) : Prop where
  picks : ∀ placeholder labels, ∀ l ∈ labels,
    l ∈ editor.choose placeholder labels ↔ l ∈ editor'.choose placeholder labels
  accepts : ∀ insertions, editor.accepts insertions = editor'.accepts insertions

def Context.withEditor (ctx : Context) (editor : Editor) : Context :=
  { ctx with editor := editor }

theorem accessorTemplates_withEditor (ctx : Context) (editor : Editor) (d : Document)
    (which : Accessors) (lines : List Nat) :
    accessorTemplates (ctx.withEditor editor) d which lines =
      accessorTemplates ctx d which lines := by
  induction lines with
  | nil => rfl
  | cons line lines ih =>
      rw [accessorTemplates, accessorTemplates, ih]
      rfl

theorem docInsertions_withEditor (ctx : Context) (editor : Editor) (d : Document)
    (lines : List Nat) :
    docInsertions (ctx.withEditor editor) d lines = docInsertions ctx d lines := by
  induction lines with
  | nil => rfl
  | cons line lines ih =>
      rw [docInsertions, docInsertions, ih]
      rfl

section

variable {ctx : Context} {editor : Editor}

theorem pickChoices_withEditor (h : ctx.editor.Agrees editor) (placeholder : String)
    (choices : List Choice) :
    pickChoices (ctx.withEditor editor) placeholder choices =
      pickChoices ctx placeholder choices := by
  have hsame : Choice.restrict choices (editor.choose placeholder (choices.map Choice.label)) =
      Choice.restrict choices (ctx.editor.choose placeholder (choices.map Choice.label)) :=
    Choice.restrict_congr fun c hc =>
      (h.picks placeholder _ c.label (List.mem_map_of_mem hc)).symm
  unfold pickChoices
  rw [bind_of_ok (outcome_pick _ _ _), bind_of_ok (outcome_pick _ _ _), Context.withEditor, hsame]
  rfl

theorem chosenLines_withEditor (h : ctx.editor.Agrees editor) (d : Document) (many : Bool)
    (placeholder : String) (accept : DeclarationLine → Bool) :
    chosenLines (ctx.withEditor editor) d many placeholder accept =
      chosenLines ctx d many placeholder accept := by
  unfold chosenLines
  simp only [pickChoices_withEditor h]

theorem draft_withEditor (h : ctx.editor.Agrees editor) (c : Command) (d : Document) :
    c.draft (ctx.withEditor editor) d = c.draft ctx d := by
  unfold Command.draft
  cases c with
  | accessors which many =>
      simp only [accessorDraft, chosenLines_withEditor h, accessorTemplates_withEditor]
  | doc many =>
      simp only [docDraft, chosenLines_withEditor h, docInsertions_withEditor]
  | constructor =>
      have hpick (choices : List Choice) :
          pickProperties (ctx.withEditor editor) choices = pickProperties ctx choices := by
        unfold pickProperties
        simp only [pickChoices_withEditor h]
      simp only [constructorDraft, hpick]
      rfl
  | skeleton keyword => rfl

theorem run_withEditor (h : ctx.editor.Agrees editor) (c : Command) (d : Document) :
    c.run (ctx.withEditor editor) d = c.run ctx d := by
  have hsubmit (draft : Draft) :
      Command.submit (ctx.withEditor editor) d draft = Command.submit ctx d draft := by
    unfold Command.submit
    rw [h.accepts]
    rfl
  unfold Command.run
  simp only [draft_withEditor h, hsubmit]

end

namespace Server

theorem run_of_agrees {editor editor' : Editor} (h : editor.Agrees editor') (s : Server)
    (c : Command) (uri : Uri) (line? : Option Nat) :
    s.run c uri line? editor' = s.run c uri line? editor := by
  unfold Server.run
  cases s.document? uri line? with
  | none => rfl
  | some d =>
      have hrun : c.run ⟨editor', s.settings, s.project, s.root⟩ d =
          c.run ⟨editor, s.settings, s.project, s.root⟩ d :=
        run_withEditor (show (s.context editor).editor.Agrees editor' from h) c d
      simp only [hrun]

theorem picking_unambiguous (document : String) (accept : DeclarationLine → Bool) :
    let choices := Choice.ofDocument document accept
    (choices.map Choice.label).Nodup ∧
      Protocol.everyLabel ∉ choices.map Choice.label ∧
      (choices.map Choice.line).Pairwise (· < ·) ∧
      (∀ line d, (∃ c ∈ choices, c.line = line ∧ c.declared = d) ↔
        ∃ text, (Text.lines document)[line]? = some text ∧
          DeclarationLine.parse? text = some d ∧ accept d = true) ∧
      (∀ chosen : List Choice, chosen.Sublist choices →
        Choice.restrict choices (chosen.map Choice.label) = chosen) ∧
      ∀ (s : Server) (c : Command) (uri : Uri) (line? : Option Nat) (editor editor' : Editor),
        editor.Agrees editor' → s.run c uri line? editor' = s.run c uri line? editor := by
  have hlabels := Choice.pairwise_label 1 (Choice.hits accept 0 (Text.lines document))
  refine ⟨List.pairwise_map.mpr hlabels, ?_,
    List.pairwise_map.mpr (Choice.pairwise_line document accept), fun _ _ => Choice.mem_ofDocument,
    fun _ => Choice.restrict_labels hlabels, fun s c uri line? _ _ h => ?_⟩
  · intro hm
    obtain ⟨c, hc, heq⟩ := List.mem_map.mp hm
    exact Choice.label_ne_everyLabel hc heq
  · exact run_of_agrees h s c uri line?

def sampleHastyEditor : Editor :=
  ⟨fun _ labels => labels.reverse ++ Protocol.everyLabel :: labels, fun _ => true⟩

theorem picking_unambiguous_sample :
    let choices := Choice.ofDocument sampleProperties isProperty
    choices.map Choice.line = [3, 4] ∧
      Choice.restrict choices ((choices.drop 1).map Choice.label) = choices.drop 1 ∧
      sampleEditor.Agrees sampleHastyEditor ∧
      ∀ c : Command, (openDocument {} sampleUri sampleProperties).run c sampleUri none
        sampleHastyEditor = (openDocument {} sampleUri sampleProperties).run c sampleUri none
          sampleEditor := by
  have hagrees : sampleEditor.Agrees sampleHastyEditor := by
    refine ⟨fun _ labels l hl => ?_, fun _ => rfl⟩
    simp [sampleEditor, sampleHastyEditor, hl]
  obtain ⟨-, -, -, -, hrestrict, hrun⟩ := picking_unambiguous sampleProperties isProperty
  refine ⟨by decide +kernel, hrestrict _ (List.drop_sublist 1 _), hagrees, ?_⟩
  intro c
  exact hrun _ c sampleUri none _ _ hagrees

end Server

end Scaffold
