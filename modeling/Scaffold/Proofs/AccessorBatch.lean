import Scaffold.Proofs.AccessorLines
import Scaffold.Proofs.Batch
import Scaffold.Proofs.Named
/-!
Accessors for several properties at once are the accessors of each alone, from the first line to the
last: what is inserted before the end of the class moves that end down by its own lines, and leaves
all above it as it was.
-/
namespace Scaffold

open Text Insertion Dialog

theorem Encloses.append {a : List Char} (ha : Encloses a) {t : String} (ht : Sheltered t) :
    Encloses (a ++ t.toList) := by
  refine ⟨ha.whole.append ht.whole, by simp [ha.nonempty], ?_⟩
  rw [wholeLines_append ha.whole, ha.tail_append]
  exact List.forall_mem_append.mpr ⟨ha.no_close, ht.no_close⟩

theorem startsPropertyAt_of_offered {document : String} {line : Nat}
    (h : ∃ c ∈ Choice.ofDocument document isProperty, c.line = line) :
    startsPropertyAt document line = true := by
  obtain ⟨c, hc, hline⟩ := h
  obtain ⟨text, ht, hparse, hk⟩ := Choice.mem_ofDocument.mp ⟨c, hc, hline, rfl⟩
  have hdeclared : declaredOn? document line = some c.declared := by
    rw [declaredOn?, ht, Option.bind_some, hparse]
  exact startsPropertyAt_of_declaredOn? hdeclared (by simpa [isProperty] using hk)

def Indented (document : String) (line : Nat) : Prop :=
  ∀ text ∈ (lines document)[line]?, indentation text ≠ ""

instance (document : String) (line : Nat) : Decidable (Indented document line) :=
  inferInstanceAs (Decidable (∀ text ∈ (lines document)[line]?, indentation text ≠ ""))

theorem Site.mem_tab {document : String} {line : Nat} {s : Site}
    (h : Site.ofLine? document line = some s) {c : Char} (hc : c ∈ s.tab.toList) :
    c ≠ '\n' ∧ isBlank c = true := by
  have ht := text_of_ofLine? h
  rw [tab_of_ofLine? h, indentation, String.toList_ofList] at hc
  refine ⟨?_, List.all_eq_true.mp List.all_takeWhile c hc⟩
  rintro rfl
  exact onOneLine_of_mem_lines (List.mem_of_getElem? ht) ((List.takeWhile_sublist _).mem hc)

theorem Site.onOneLine_tab {document : String} {line : Nat} {s : Site}
    (h : Site.ofLine? document line = some s) : Lacks '\n' s.tab :=
  fun hm => (mem_tab h hm).1 rfl

theorem Site.isTab_of_indented {document : String} {line : Nat} {s : Site}
    (h : Site.ofLine? document line = some s) (hi : Indented document line) : IsTab s.tab := by
  refine ⟨onOneLine_tab h, ?_, ?_⟩
  · rw [tab_of_ofLine? h]
    exact hi s.text (text_of_ofLine? h)
  · cases htl : s.tab.toList with
    | nil => rfl
    | cons c cs =>
        have hb := (mem_tab h (by simp [htl] : c ∈ s.tab.toList)).2
        have hc : c ≠ '}' := by
          rintro rfl
          exact absurd hb (by decide)
        simpa [closes] using hc

theorem sheltered_accessorsOn {document : String} {line : Nat} (hi : Indented document line)
    (ctx : Context) (which : Accessors) :
    ∀ text ∈ (accessorsOn ctx which document line).map Prod.fst, Sheltered text := by
  intro text htext
  obtain ⟨a, ha, rfl⟩ := List.mem_map.mp htext
  unfold accessorsOn at ha
  split at ha
  · next s hs =>
      cases hp : s.property? with
      | none => simp [hp] at ha
      | some p =>
          rw [hp] at ha
          have htab := s.isTab_of_indented hs hi
          have hone := s.onOneLine_property? hp
          have hclass : ∀ name ∈ s.className, Lacks '\n' name := by
            obtain ⟨_, -, hsite⟩ := Option.bind_eq_some_iff.mp hs
            rw [← Option.some.inj hsite]
            exact fun name hn => onOneLine_classNameAbove hn
          rcases List.mem_append.mp ha with ha | ha
          · split at ha
            · obtain ⟨-, rfl⟩ := mem_noticed ha
              exact Template.sheltered_getter hone htab
            · exact absurd ha List.not_mem_nil
          · split at ha
            · obtain ⟨-, rfl⟩ := mem_noticed ha
              exact Template.sheltered_setter hone htab hclass
            · exact absurd ha List.not_mem_nil
  · exact absurd ha List.not_mem_nil

theorem accessorsOn_eq {n line : Nat} {t t' : String} (h : SameUpTo n t t') (hlt : line < n)
    (ctx : Context) (which : Accessors) :
    accessorsOn ctx which t line = accessorsOn ctx which t' line := by
  unfold accessorsOn
  rw [h.ofLine?_eq hlt]

theorem startsPropertyAt_eq {n line : Nat} {t t' : String} (h : SameUpTo n t t')
    (hlt : line < n) : startsPropertyAt t line = startsPropertyAt t' line := by
  unfold startsPropertyAt
  rw [h.getElem?_eq hlt]

def Accessors.parts : Accessors → List Accessors
  | both => [getter, setter]
  | which => [which]

theorem accessorsOn_parts (ctx : Context) (which : Accessors) (document : String) (line : Nat) :
    (which.parts.flatMap fun part => accessorsOn ctx part document line) =
      accessorsOn ctx which document line := by
  cases which with
  | getter => simp [Accessors.parts]
  | setter => simp [Accessors.parts]
  | both =>
      simp only [Accessors.parts, List.flatMap_cons, List.flatMap_nil, List.append_nil]
      unfold accessorsOn
      cases Site.ofLine? document line with
      | none => rfl
      | some s =>
          dsimp only
          cases s.property? with
          | none => rfl
          | some p => simp [accessorsOf, Accessors.hasGetter, Accessors.hasSetter]

def accessorTexts (ctx : Context) (document : String) (steps : List (Accessors × Nat)) : String :=
  String.join ((steps.flatMap fun step => accessorsOn ctx step.1 document step.2).map Prod.fst)

theorem accessorTexts_cons (ctx : Context) (document : String) (step : Accessors × Nat)
    (steps : List (Accessors × Nat)) :
    accessorTexts ctx document (step :: steps) =
      String.join ((accessorsOn ctx step.1 document step.2).map Prod.fst)
        ++ accessorTexts ctx document steps := by
  unfold accessorTexts
  rw [List.flatMap_cons, List.map_append, String.join_append]

theorem accessorTexts_parts (ctx : Context) (which : Accessors) (document : String)
    (lines : List Nat) :
    accessorTexts ctx document (lines.flatMap fun l => which.parts.map fun part => (part, l)) =
      String.join ((lines.flatMap (accessorsOn ctx which document)).map Prod.fst) := by
  have h : (lines.flatMap fun l => which.parts.map fun part => (part, l)).flatMap
      (fun step => accessorsOn ctx step.1 document step.2) =
        lines.flatMap (accessorsOn ctx which document) := by
    rw [List.flatMap_assoc]
    congr 1
    funext l
    rw [List.flatMap_map, accessorsOn_parts]
  unfold accessorTexts
  rw [h]

theorem edited_accessorDraft {ctx : Context} (d : Document) (which : Accessors) {many : Bool}
    {lines : List Nat} {a b : List Char} (hd : d.text = String.ofList (a ++ b)) (ha : Encloses a)
    (hb : closes b = true) (hstart : many = false → startsPropertyAt d.text d.cursor = true)
    (hlines : (chosenLines ctx d many "Select properties" isProperty).outcome = .ok lines) :
    edited d.text (accessorDraft ctx d which many).outcome =
      String.ofList (a ++ ((String.join
        ((lines.flatMap (accessorsOn ctx which d.text)).map Prod.fst)).toList ++ b)) := by
  have hguard : ¬ (!many && !startsPropertyAt d.text d.cursor) = true := by
    cases many with
    | true => simp
    | false => simp [hstart rfl]
  have hend := classEnd?_append ha hb
  rw [← hd] at hend
  unfold accessorDraft
  rw [if_neg hguard, outcome_bind_of_ok hlines,
    outcome_bind_of_ok (outcome_accessorTemplates _ _ _ _)]
  generalize lines.flatMap (accessorsOn ctx which d.text) = made
  by_cases hmade : made = []
  · rw [if_pos hmade, hmade]
    simpa [edited] using hd
  · rw [if_neg hmade, hend]
    change applyAll d.text [⟨(wholeLines a).length, String.join (made.map Prod.fst)⟩] = _
    rw [hd, applyAll_singleton ha.whole]

namespace Server

theorem editedAt_accessors (ctx : Context) (uri : Uri) (which : Accessors) {line : Nat}
    {a b : List Char} (hphp : (Document.mk uri (String.ofList (a ++ b)) line).isPhp = true)
    (ha : Encloses a) (hb : closes b = true)
    (hstart : startsPropertyAt (String.ofList (a ++ b)) line = true) :
    editedAt ctx uri (String.ofList (a ++ b)) (.accessors which false, line) =
      String.ofList (a ++ ((String.join
        ((accessorsOn ctx which (String.ofList (a ++ b)) line).map Prod.fst)).toList ++ b)) := by
  have hlines : (chosenLines ctx ⟨uri, String.ofList (a ++ b), line⟩ false "Select properties"
      isProperty).outcome = .ok [line] := rfl
  have h := edited_accessorDraft ⟨uri, String.ofList (a ++ b), line⟩ which rfl ha hb
    (fun _ => hstart) hlines
  unfold editedAt Command.draft
  rw [if_pos hphp]
  simpa using h

structure Accessible (document : String) (last line : Nat) : Prop where
  above : line < last
  indented : Indented document line
  starts : startsPropertyAt document line = true

theorem foldl_editedAt_accessors (ctx : Context) {uri : Uri} {a b : List Char}
    (hphp : (Document.mk uri "" 0).isPhp = true) (ha : Encloses a) (hb : closes b = true)
    {steps : List (Accessors × Nat)} (hsteps : ∀ step ∈ steps,
      Accessible (String.ofList (a ++ b)) (wholeLines a).length step.2)
    {done : String} (hdone : Sheltered done) :
    (steps.map fun step => (Command.accessors step.1 false, step.2)).foldl (editedAt ctx uri)
        (String.ofList (a ++ (done.toList ++ b))) =
      String.ofList
        (a ++ ((done ++ accessorTexts ctx (String.ofList (a ++ b)) steps).toList ++ b)) := by
  induction steps generalizing done with
  | nil => simp [accessorTexts]
  | cons step steps ih =>
      have hstep := hsteps step (by simp)
      -- The lines above the end of the class are those of the first text.
      have hsame := sameUpTo_append ha.whole b (done.toList ++ b)
      have htext : String.ofList (a ++ (done.toList ++ b)) =
          String.ofList ((a ++ done.toList) ++ b) := by
        rw [List.append_assoc]
      have hstart := hstep.starts
      rw [startsPropertyAt_eq hsame hstep.above, htext] at hstart
      have hone := editedAt_accessors ctx uri step.1 hphp (ha.append hdone) hb hstart
      rw [← htext, ← accessorsOn_eq hsame hstep.above] at hone
      have hmade := Sheltered.join (sheltered_accessorsOn hstep.indented ctx step.1)
      have hnext := ih (fun st hst => hsteps st (by simp [hst])) (hdone.append hmade)
      rw [List.map_cons, List.foldl_cons, hone, accessorTexts_cons]
      simpa [String.append_assoc] using hnext

def accessorSteps (which : Accessors) (lines : List Nat) : List (Command × Nat) :=
  lines.flatMap fun l => which.parts.map fun part => (.accessors part false, l)

def withAccessors (ctx : Context) (which : Accessors) (document : String) (last : Nat)
    (lines : List Nat) : String :=
  applyAll document
    [⟨last, String.join ((lines.flatMap (accessorsOn ctx which document)).map Prod.fst)⟩]

theorem withAccessors_eq {a : List Char} (ha : IsWhole a) (b : List Char) (ctx : Context)
    (which : Accessors) (lines : List Nat) :
    withAccessors ctx which (String.ofList (a ++ b)) (wholeLines a).length lines =
      String.ofList (a ++ ((String.join
        ((lines.flatMap (accessorsOn ctx which (String.ofList (a ++ b)))).map Prod.fst)).toList
          ++ b)) := by
  rw [withAccessors, applyAll_singleton ha]

theorem foldl_accessorSteps {uri : Uri} {old : String} {last : Nat}
    (hphp : (Document.mk uri old 0).isPhp = true) (hend : classEnd? old = some last)
    (ctx : Context) (which : Accessors) {lines : List Nat}
    (hlines : ∀ l ∈ lines, Accessible old last l) :
    (accessorSteps which lines).foldl (editedAt ctx uri) old =
      withAccessors ctx which old last lines := by
  obtain ⟨a, b, rfl, ha, hb, rfl⟩ := classEnd?_eq_some hend
  have hsteps : ∀ step ∈ lines.flatMap fun l => which.parts.map fun part => (part, l),
      Accessible (String.ofList (a ++ b)) (wholeLines a).length step.2 := by
    intro step hstep
    obtain ⟨l, hl, hstep⟩ := List.mem_flatMap.mp hstep
    obtain ⟨part, -, rfl⟩ := List.mem_map.mp hstep
    exact hlines l hl
  have hfold := foldl_editedAt_accessors ctx hphp ha hb hsteps sheltered_empty
  rw [accessorTexts_parts, String.empty_append, ← withAccessors_eq ha.whole] at hfold
  rw [← hfold]
  simp [accessorSteps, List.map_flatMap, Function.comp_def]

theorem editedAt_accessible {uri : Uri} {old : String} {last line : Nat}
    (hphp : (Document.mk uri old line).isPhp = true) (hend : classEnd? old = some last)
    (ctx : Context) (which : Accessors) (hline : Accessible old last line) :
    editedAt ctx uri old (.accessors which false, line) =
      withAccessors ctx which old last [line] := by
  obtain ⟨a, b, rfl, ha, hb, rfl⟩ := classEnd?_eq_some hend
  rw [editedAt_accessors ctx uri which hphp ha hb hline.starts, withAccessors_eq ha.whole,
    List.flatMap_singleton]

theorem edited_accessors_many {d : Document} {last : Nat} (hphp : d.isPhp = true)
    (hend : classEnd? d.text = some last) (ctx : Context) (which : Accessors) {lines : List Nat}
    (hpicked : pickedLines ctx.editor "Select properties" d.text isProperty = lines) :
    edited d.text ((Command.accessors which true).draft ctx d).outcome =
      withAccessors ctx which d.text last lines := by
  obtain ⟨a, b, hd, ha, hb, rfl⟩ := classEnd?_eq_some hend
  unfold Command.draft
  rw [if_pos hphp]
  dsimp only
  by_cases hne : lines = []
  · unfold accessorDraft
    rw [if_neg (by simp), edited_of_none_picked (hpicked.trans hne), hne, hd,
      withAccessors_eq ha.whole]
    rfl
  · rw [edited_accessorDraft d which hd ha hb (by simp)
      (chosenLines_many_eq_ok.mpr ⟨hpicked.symm, hne⟩), hd, withAccessors_eq ha.whole]

theorem accessors_many_eq_in_order {s : Server} {uri : Uri} {old : String} {last : Nat}
    {lines : List Nat} (hold : s.documents.get? uri.text = some old)
    (hphp : (Document.mk uri old 0).isPhp = true) (hend : classEnd? old = some last)
    (hlines : lines.Pairwise (· < ·))
    (hoffered : ∀ l ∈ lines, l < last ∧ Indented old l ∧
      ∃ c ∈ Choice.ofDocument old isProperty, c.line = l) :
    (∃ editor : Editor, editor.Picks (Choice.ofDocument old isProperty) lines) ∧
      ∀ editor : Editor, editor.Picks (Choice.ofDocument old isProperty) lines →
        (∀ (which : Accessors) (line? : Option Nat),
          (s.run (.accessors which true) uri line? editor).1.documents.get? uri.text =
            some (withAccessors (s.context editor) which old last lines) ∧
          (s.runAt uri editor (accessorSteps which lines)).documents.get? uri.text =
            some (withAccessors (s.context editor) which old last lines)) ∧
        ∀ l ∈ lines,
          (s.run (.accessors .both false) uri (some l) editor).1.documents.get? uri.text =
            some (withAccessors (s.context editor) .both old last [l]) ∧
          (s.runAt uri editor
              [(.accessors .getter false, l), (.accessors .setter false, l)]).documents.get?
                uri.text =
            some (withAccessors (s.context editor) .both old last [l]) := by
  refine ⟨Editor.exists_picks old _ lines, fun editor hpicks => ?_⟩
  have hacc : ∀ l ∈ lines, Accessible old last l := fun l hl =>
    ⟨(hoffered l hl).1, (hoffered l hl).2.1, startsPropertyAt_of_offered (hoffered l hl).2.2⟩
  have hsteps (which : Accessors) (ls : List Nat) (hls : ∀ l ∈ ls, l ∈ lines) :
      (s.runAt uri editor (accessorSteps which ls)).documents.get? uri.text =
        some (withAccessors (s.context editor) which old last ls) := by
    rw [get?_runAt hold hpicks.applies,
      foldl_accessorSteps hphp hend _ which fun l hl => hacc l (hls l hl)]
  refine ⟨fun which line? => ⟨?_, hsteps which lines fun l hl => hl⟩, fun l hl => ⟨?_, ?_⟩⟩
  · have hpicked := hpicks.pickedLines_eq hlines (fun l hl => (hoffered l hl).2.2)
      "Select properties"
    have hmany := edited_accessors_many (d := ⟨uri, old, s.cursor uri line?⟩) hphp hend
      (s.context editor) which hpicked
    rw [get?_run hold hpicks.applies]
    exact congrArg some hmany
  · have hphp : (Document.mk uri old l).isPhp = true := hphp
    rw [get?_run hold hpicks.applies]
    exact congrArg some (editedAt_accessible hphp hend (s.context editor) .both (hacc l hl))
  · exact hsteps .both [l] (by simpa using hl)

def sampleProperties : String :=
  "<?php\nclass A\n\x7b\n    protected $b;\n    private $c;\n\x7d\n"

def sampleEditor : Editor :=
  ⟨fun _ labels => labels, fun _ => true⟩

theorem accessors_many_eq_in_order_sample :
    let s := openDocument {} sampleUri sampleProperties
    let new := withAccessors (s.context sampleEditor) .both sampleProperties 5 [3, 4]
    classEnd? sampleProperties = some 5 ∧
      (∀ l ∈ [3, 4], l < 5 ∧ Indented sampleProperties l ∧
        ∃ c ∈ Choice.ofDocument sampleProperties isProperty, c.line = l) ∧
      ([3, 4].flatMap (accessorsOn (s.context sampleEditor) .both sampleProperties)).map Prod.snd =
        [getterNotice "b", setterNotice "b", getterNotice "c", setterNotice "c"] ∧
      (s.run (.accessors .both true) sampleUri none sampleEditor).1.documents.get?
        sampleUri.text = some new ∧
      (s.runAt sampleUri sampleEditor
        [(.accessors .getter false, 3), (.accessors .setter false, 3),
          (.accessors .getter false, 4), (.accessors .setter false, 4)]).documents.get?
            sampleUri.text = some new := by
  have hold : (openDocument {} sampleUri sampleProperties).documents.get? sampleUri.text =
      some sampleProperties := by
    simp [get?_openDocument]
  have hend : classEnd? sampleProperties = some 5 := by decide +kernel
  have hoffered : ∀ l ∈ [3, 4], l < 5 ∧ Indented sampleProperties l ∧
      ∃ c ∈ Choice.ofDocument sampleProperties isProperty, c.line = l := by decide +kernel
  have hlines : ∀ c ∈ Choice.ofDocument sampleProperties isProperty, c.line ∈ [3, 4] := by
    decide +kernel
  have hpicks : sampleEditor.Picks (Choice.ofDocument sampleProperties isProperty) [3, 4] :=
    ⟨fun _ => rfl, fun _ c hc => ⟨fun _ => hlines c hc, fun _ => List.mem_map_of_mem hc⟩⟩
  have h := accessors_many_eq_in_order hold (by decide +kernel) hend (by decide) hoffered
  obtain ⟨hmany, hsteps⟩ := (h.2 sampleEditor hpicks).1 .both none
  refine ⟨hend, hoffered, ?_, hmany, hsteps⟩
  decide +kernel

end Server

end Scaffold
