import Scaffold.Php.Program
import Scaffold.Proofs.DeclaredClasses
import Scaffold.Proofs.Relocation
/-!
What a source declares, its places and the bodies of methods apart, is told by its words alone.
Blanks between tokens can be put in or taken out.
-/
namespace Scaffold.Php

open Reader

variable {P : Nat → Nat → Prop}

def Member.outline : Member → Member
  | .method name ps returns _ => .method name ps returns none
  | m => m

def ClassLike.outline (c : ClassLike) : ClassKeyword × String × List Member :=
  (c.keyword, c.name, c.members.map Member.outline)

def Statement.outline (s : Statement) : List (ClassKeyword × String × List Member) :=
  s.declaredClasses.map ClassLike.outline

theorem map_declaredClasses (ss : List Statement) :
    (declaredClasses ss).map ClassLike.outline = (ss.map Statement.outline).flatten := by
  induction ss with
  | nil => rfl
  | cons s ss ih =>
      rw [declaredClasses, List.map_append, ih]
      rfl

structure Rules.Steady (P : Nat → Nat → Prop) (r : Rules) : Prop where
  expression : ∀ waiting, Reader.Steady P id (r.expression waiting)
  statement : Reader.Steady P Statement.outline r.statement

namespace Grammar

/-! Types and names -/

theorem steady_joined {n : Nat} (h : Steady P id (hintFrom n)) (left : Hint) :
    Steady P id (hintFrom.joined n left) := by
  have hright (f : Hint → Hint) : Steady P id (do
      let _ ← advance
      let right ← hintFrom n
      pure (f right)) :=
    steady_after steady_advance (steady_then h fun _ => steady_pure _)
  unfold hintFrom.joined
  refine steady_then steady_peek fun k? => ?_
  split
  · exact hright _
  · refine steady_then steady_peekSecond fun second => ?_
    split
    · exact steady_pure _
    · exact hright _
  · exact steady_pure _

theorem steady_hintFrom (n : Nat) : Steady P id (hintFrom n) := by
  induction n with
  | zero =>
      unfold hintFrom
      exact steady_fail
  | succ n ih =>
      unfold hintFrom
      refine steady_then steady_peek fun k? => ?_
      split
      · exact steady_after steady_advance (steady_then ih fun _ => steady_pure _)
      · refine steady_after steady_advance (steady_then ih fun inner => ?_)
        exact steady_after (steady_eat _) (steady_joined ih _)
      · split
        · exact steady_token steady_advance (fun _ _ _ _ => rfl) fun t => steady_joined ih _
        · exact steady_fail
      · exact steady_fail

theorem steady_hint : Steady P id hint :=
  steady_rounds steady_hintFrom

theorem steady_hint? : Steady P id hint? := by
  refine steady_then steady_peek fun k? => ?_
  split
  · split
    · exact steady_then steady_hint fun _ => steady_pure _
    · exact steady_pure _
  · exact steady_pure _

theorem steady_returns? : Steady P id returns? := by
  refine steady_then (steady_eatIf _) fun colon => ?_
  split
  · exact steady_then steady_hint fun _ => steady_pure _
  · exact steady_pure _

theorem steady_className : Steady P id className := by
  refine steady_then steady_peek fun k? => ?_
  split
  · exact steady_token steady_advance (fun _ _ _ _ => rfl) fun _ => steady_pure _
  · exact steady_anyName

theorem steady_modifiers : Steady P id modifiers := by
  refine steady_rounds fun n => ?_
  induction n with
  | zero => exact steady_pure _
  | succ n ih =>
      refine steady_then steady_peek fun k? => ?_
      split
      · split
        · exact steady_after steady_advance (steady_then ih fun _ => steady_pure _)
        · exact steady_pure _
      · exact steady_pure _

theorem steady_parents (word : Keyword) : Steady P id (parents word) := by
  refine steady_then (steady_eatIf _) fun found => ?_
  split
  · exact steady_then (steady_rounds (steady_separated steady_className)) fun _ => steady_pure _
  · exact steady_pure _

theorem steady_captured : Steady P id captured :=
  steady_then (steady_eatIf _) fun _ => steady_after (steady_eat _) (steady_pure _)

theorem steady_argumentName : Steady P id argumentName := by
  refine steady_then steady_peek fun k? => ?_
  split
  case h_3 => exact steady_pure _
  all_goals
    refine steady_then steady_peekSecond fun second => ?_
    split
    · exact steady_after steady_advance (steady_after steady_advance (steady_pure _))
    · exact steady_pure _

theorem steady_methodAlias : Steady P id methodAlias := by
  refine steady_after (steady_eat _) (steady_then steady_peek fun k? => ?_)
  dsimp only
  split
  -- a visibility is taken first, if there is one; the name follows in each case
  all_goals try refine steady_after steady_advance ?_
  all_goals
    refine steady_then steady_peek fun k? => ?_
    split
    · exact steady_fail
    · split
      · exact steady_pure _
      · exact steady_then steady_anyName fun _ => steady_pure _

theorem steady_adaptation : Steady P id adaptation := by
  refine steady_then steady_peekSecond fun second => ?_
  dsimp only
  split
  · refine steady_then steady_className fun _ => steady_after steady_advance ?_
    refine steady_then steady_anyName fun _ => steady_then steady_peek fun k? => ?_
    split
    · exact steady_then steady_methodAlias fun _ => steady_terminator
    · refine steady_after (steady_eat _) ?_
      exact steady_then (steady_rounds (steady_separated steady_className)) fun _ =>
        steady_terminator
  · exact steady_then steady_anyName fun _ =>
      steady_then steady_methodAlias fun _ => steady_terminator

theorem steady_traitUse {γ : Type} {v : Member → γ} : Steady P v traitUse := by
  refine steady_after (steady_eat _) ?_
  refine steady_then (steady_rounds (steady_separatedUntil steady_className _)) fun _ => ?_
  refine steady_then steady_peek fun k? => ?_
  split
  · refine steady_after steady_advance ?_
    refine agree_after (steady_rounds (steady_strictly steady_adaptation _)) fun _ _ => ?_
    exact steady_after (steady_eat _) (steady_pure _)
  · exact steady_then steady_terminator fun _ => steady_pure _

/-! Rules of one depth -/

section

variable {r : Rules} (h : r.Steady P)
include h

theorem steady_argument : Steady P id (argument r) := by
  refine steady_then (steady_eatIf _) fun spread => ?_
  split
  · exact steady_then (h.expression _) fun _ => steady_pure _
  · exact steady_then steady_argumentName fun _ =>
      steady_then (h.expression _) fun _ => steady_pure _

theorem steady_arguments : Steady P id (arguments r) :=
  steady_then (steady_listed (steady_argument h) _ _) fun _ => steady_pure _

theorem steady_callArgument : Steady P id (callArgument r) := by
  have hvalue : Steady P id (do let _ ← r.expression false) :=
    steady_then (h.expression _) fun _ => steady_pure _
  refine steady_then steady_peek fun k? => ?_
  split
  · refine steady_after steady_advance (steady_then steady_peek fun k? => ?_)
    split
    · exact steady_pure _
    · exact steady_pure _
    · exact hvalue
  · exact steady_after steady_advance (steady_pure _)
  · refine steady_then steady_argumentName fun _ => steady_then steady_peek fun k? => ?_
    split
    · exact steady_after steady_advance (steady_pure _)
    · exact hvalue

theorem steady_callArguments : Steady P id (callArguments r) :=
  steady_then (steady_listed (steady_callArgument h) _ _) fun _ => steady_pure _

theorem steady_arguments? : Steady P id (arguments? r) := by
  refine steady_then steady_peek fun k? => ?_
  split
  · exact steady_arguments h
  · exact steady_pure _

theorem steady_attributes : Steady P id (attributes r) := by
  have hitem : Steady P id (attributeItem r) :=
    steady_then steady_className fun _ => steady_arguments? h
  refine steady_rounds fun n => ?_
  induction n with
  | zero => exact steady_pure _
  | succ n ih =>
      refine steady_then steady_peek fun k? => ?_
      split
      · exact steady_then (steady_listed hitem _ _) fun _ => ih
      · exact steady_pure _

theorem steady_constantItem : Steady P id (constantItem r) :=
  steady_then steady_anyName fun _ => steady_after (steady_eat _)
    (steady_then (h.expression _) fun _ => steady_pure _)

theorem steady_propertyItem : Steady P id (propertyItem r) := by
  refine steady_token (steady_eat _) (fun _ _ _ _ => rfl) fun t => ?_
  refine steady_then (steady_eatIf _) fun assigned => ?_
  dsimp only
  split
  · exact steady_then (h.expression _) fun _ => steady_pure _
  · exact steady_pure _

theorem steady_parenthesized : Steady P id (parenthesized r) :=
  steady_after (steady_eat _) (steady_then (h.expression _) fun _ =>
    steady_after (steady_eat _) (steady_pure _))

/-! Members -/

variable (hP : Relator.BiUnique P)
include hP

theorem steady_block : Steady P (List.map Statement.outline) (block r) := by
  have hbody : Steady P (List.map Statement.outline)
      (rounds (recovering peek (· == .mark .closeBrace) r.statement)) :=
    steady_rounds (steady_recovering h.statement hP steady_peek _)
  refine steady_after (steady_eat _) (agree_bind hbody fun ss ss' hss => ?_)
  exact agree_after (steady_eat _) fun _ _ => agree_pure hss

theorem steady_parameter_hooks (n : Nat) :
    Steady P id (parameter r n) ∧ Steady P id (hooks r n) ∧ Steady P id (hook r n) := by
  induction n with
  | zero =>
      unfold parameter hooks hook
      exact ⟨steady_fail, steady_fail, steady_fail⟩
  | succ n ih =>
      obtain ⟨hparameter, hhooks, hhook⟩ := ih
      refine ⟨?_, ?_, ?_⟩
      · unfold parameter
        refine steady_then (steady_attributes h) fun _ => steady_then steady_modifiers fun _ => ?_
        refine steady_then steady_hint? fun hint => steady_then (steady_eatIf _) fun _ => ?_
        refine steady_then (steady_eatIf _) fun _ => ?_
        refine steady_token (steady_eat _) (fun _ _ _ _ => rfl) fun t => ?_
        refine steady_then (steady_eatIf _) fun assigned => ?_
        dsimp only
        split
        all_goals try refine steady_then (h.expression _) fun _ => ?_
        all_goals
          refine steady_then steady_peek fun k? => ?_
          split
          · exact steady_then hhooks fun _ => steady_pure _
          · exact steady_pure _
      · unfold hooks
        refine steady_after (steady_eat _) ?_
        refine agree_after (steady_rounds (steady_strictly hhook _)) fun _ _ => ?_
        exact steady_after (steady_eat _) (steady_pure _)
      · unfold hook
        refine steady_then (steady_attributes h) fun _ => steady_then steady_modifiers fun _ => ?_
        refine steady_then (steady_eatIf _) fun _ => steady_then steady_anyName fun _ => ?_
        refine steady_then steady_peek fun k? => ?_
        dsimp only
        split
        all_goals try refine steady_then (steady_listed hparameter _ _) fun _ => ?_
        all_goals
          refine steady_then steady_peek fun k? => ?_
          split
          · exact steady_after steady_advance (steady_pure _)
          · refine steady_after steady_advance (steady_then (h.expression _) fun _ => ?_)
            exact steady_after (steady_eat _) (steady_pure _)
          · exact agree_after (steady_block h hP) fun _ _ => steady_pure _

theorem steady_parameters : Steady P id (parameters r) :=
  steady_then steady_bound fun n => steady_listed (steady_parameter_hooks h hP n).1 _ _

theorem steady_method : Steady P Member.outline (method r) := by
  refine steady_after (steady_eat _) (steady_then (steady_eatIf _) fun _ => ?_)
  refine steady_then steady_anyName fun name => steady_then (steady_parameters h hP) fun ps => ?_
  refine steady_then steady_returns? fun returns => steady_then steady_peek fun k? => ?_
  split
  · exact steady_after steady_advance (steady_pure _)
  · exact agree_after (steady_block h hP) fun _ _ => agree_pure rfl

omit hP in
theorem steady_constants : Steady P Member.outline (constants r) := by
  have hnames (hint : Option Hint) : Steady P Member.outline (do
      let names ← rounds (separatedUntil isTerminator (constantItem r))
      terminator
      pure (firstConstant hint names)) :=
    steady_then (steady_rounds (steady_separatedUntil (steady_constantItem h) _)) fun _ =>
      steady_then steady_terminator fun _ => steady_pure _
  refine steady_after (steady_eat _) (steady_then steady_peekSecond fun second => ?_)
  dsimp only
  split
  · exact hnames none
  · exact steady_then (steady_then steady_hint fun _ => steady_pure _) hnames

omit hP in
theorem steady_enumCase : Steady P Member.outline (enumCase r) := by
  have hend : Steady P Member.outline (do terminator; pure .other) :=
    steady_then steady_terminator fun _ => steady_pure _
  refine steady_after (steady_eat _) (steady_then steady_anyName fun _ => ?_)
  refine steady_then (steady_eatIf _) fun assigned => ?_
  dsimp only
  split
  · exact steady_then (h.expression _) fun _ => hend
  · exact hend

theorem steady_property : Steady P Member.outline (property r) := by
  refine steady_then (steady_eatIf _) fun _ => steady_then steady_hint? fun hint => ?_
  refine steady_then (steady_propertyItem h) fun name => steady_then steady_peek fun k? => ?_
  dsimp only
  split
  · refine steady_then steady_bound fun n => ?_
    exact steady_then (steady_parameter_hooks h hP n).2.1 fun _ => steady_pure _
  · refine steady_after steady_advance ?_
    refine steady_then (steady_rounds (steady_separated (steady_propertyItem h))) fun _ => ?_
    exact steady_then steady_terminator fun _ => steady_pure _
  · exact steady_then steady_terminator fun _ => steady_pure _

theorem steady_member : Steady P Member.outline (member r) := by
  have hdeclared : Steady P Member.outline (memberDeclared r) := by
    refine steady_then steady_peek fun k? => ?_
    split
    · exact steady_enumCase h
    · refine steady_then steady_modifiers fun _ => steady_then steady_peek fun k? => ?_
      split
      · exact steady_constants h
      · exact steady_method h hP
      · exact steady_property h hP
  refine steady_then steady_peek fun k? => ?_
  split
  · exact steady_traitUse
  · exact steady_then (steady_attributes h) fun _ => hdeclared

theorem steady_classBody : Steady P (fun body => body.1.map Member.outline) (classBody r) := by
  have hmembers : Steady P (List.map Member.outline)
      (rounds (recovering peek (· == .mark .closeBrace) (member r))) :=
    steady_rounds (steady_recovering (steady_member h hP) hP steady_peek _)
  refine steady_after (steady_eat _) (agree_bind hmembers fun ms ms' hms => ?_)
  exact agree_after (steady_eat _) fun _ _ => agree_pure hms

theorem steady_anonymousClass : Steady P id (anonymousClass r) := by
  refine steady_then (steady_attributes h) fun _ => steady_then steady_modifiers fun _ => ?_
  refine steady_after (steady_eat _) (steady_then (steady_arguments? h) fun _ => ?_)
  refine steady_then (steady_parents _) fun _ => steady_then (steady_parents _) fun _ => ?_
  exact agree_after (steady_classBody h hP) fun _ _ => steady_pure _

/-! Expressions -/

omit h hP in
theorem steady_misplaced (waiting : Bool) : Steady P id (misplaced waiting) := by
  have hstay : Steady P id (do note; pure Expression.other) :=
    steady_then steady_note fun _ => steady_pure _
  have hdrop : Steady P id (do let _ ← advance; note; pure Expression.other) :=
    steady_after steady_advance hstay
  refine steady_then steady_peek fun k? => ?_
  dsimp only
  split
  · exact steady_fail
  · exact agree_if hstay hdrop
  · exact agree_if hstay hdrop
  · exact agree_if hstay hdrop
  · exact agree_if hstay hdrop
  · exact agree_if hstay hdrop
  · exact hdrop

omit hP in
theorem steady_anyVariable (n : Nat) : Steady P id (anyVariable r n) := by
  induction n with
  | zero => exact steady_fail
  | succ n ih =>
      refine steady_then steady_peek fun k? => ?_
      split
      · exact steady_after steady_advance (steady_pure _)
      · refine steady_after steady_advance (steady_then (h.expression _) fun _ => ?_)
        exact steady_after (steady_eat _) (steady_pure _)
      · exact steady_after steady_advance ih
      · exact steady_fail

omit hP in
theorem steady_selector : Steady P id (selector r) := by
  have hname : Steady P id (do let _ ← advance) :=
    steady_after steady_advance (steady_pure _)
  have hvariable : Steady P id (rounds (anyVariable r)) :=
    steady_rounds (steady_anyVariable h)
  refine steady_then steady_peek fun k? => ?_
  split
  · exact steady_fail
  · exact hname
  · exact hname
  · exact hvariable
  · exact hvariable
  · exact hvariable
  · refine steady_after steady_advance (steady_then (h.expression _) fun _ => ?_)
    exact steady_after (steady_eat _) (steady_pure _)
  · exact steady_note

omit hP in
theorem steady_trailing (calls : Bool) (n : Nat) (e : Expression) :
    Steady P id (trailing r calls n e) := by
  induction n generalizing e with
  | zero => exact steady_pure _
  | succ n ih =>
      have hindex : Steady P id (do
          let _ ← eat (.mark .closeBracket)
          trailing r calls n .other) :=
        steady_after (steady_eat _) (ih _)
      have hselected : Steady P id (do
          let _ ← advance
          selector r
          trailing r calls n .other) :=
        steady_after steady_advance (steady_then (steady_selector h) fun _ => ih _)
      refine steady_then steady_peek fun k? => ?_
      split
      · refine steady_after steady_advance (steady_then steady_peek fun k? => ?_)
        dsimp only
        split
        · exact hindex
        · exact steady_then (h.expression _) fun _ => hindex
      · exact hselected
      · exact hselected
      · exact hselected
      · refine agree_if ?_ (steady_pure _)
        exact steady_then (steady_callArguments h) fun _ => ih _
      · exact agree_if (steady_after steady_advance (ih _)) (steady_pure _)
      · exact steady_pure _

omit hP in
theorem steady_pairAfter : Steady P id (do
    if ← eatIf (.mark .doubleArrow) then
      let _ ← r.expression false) := by
  refine steady_then (steady_eatIf _) fun arrow => ?_
  exact agree_if (steady_then (h.expression _) fun _ => steady_pure _) (steady_pure _)

omit hP in
theorem steady_element : Steady P id (element r) := by
  refine steady_then steady_peek fun k? => ?_
  split
  · exact steady_pure _
  · exact steady_after steady_advance (steady_then (h.expression _) fun _ => steady_pure _)
  · exact steady_then (h.expression _) fun _ => steady_pairAfter h

omit hP in
theorem steady_conditions (n : Nat) : Steady P id (conditions r n) := by
  induction n with
  | zero => exact steady_fail
  | succ n ih =>
      refine steady_then steady_peek fun k? => ?_
      split
      · exact steady_pure _
      · refine steady_then (h.expression _) fun _ => steady_then (steady_eatIf _) fun more => ?_
        exact agree_if ih (steady_pure _)

omit hP in
theorem steady_matchArm : Steady P id (matchArm r) := by
  have hvalue : Steady P id (do
      let _ ← eat (.mark .doubleArrow)
      let _ ← r.expression false) :=
    steady_after (steady_eat _) (steady_then (h.expression _) fun _ => steady_pure _)
  refine steady_then steady_peek fun k? => ?_
  dsimp only
  split
  · exact steady_after steady_advance hvalue
  · exact steady_then (steady_rounds (steady_conditions h)) fun _ => hvalue

theorem steady_closure : Steady P id (closure r) := by
  have hbody : Steady P id (do
      let _ ← returns?
      let _ ← block r) :=
    steady_then steady_returns? fun _ => agree_after (steady_block h hP) fun _ _ => steady_pure _
  refine steady_token steady_advance (fun _ _ _ _ => rfl) fun word => ?_
  refine steady_then (steady_eatIf _) fun _ => steady_then (steady_parameters h hP) fun _ => ?_
  refine agree_if ?_ ?_
  · refine steady_then steady_returns? fun _ => steady_after (steady_eat _) ?_
    exact steady_then (h.expression _) fun _ => steady_pure _
  · refine steady_then (steady_eatIf _) fun uses => ?_
    dsimp only
    split
    · exact steady_then (steady_listed steady_captured _ _) fun _ => hbody
    · exact hbody

theorem steady_attributedClosure : Steady P id (attributedClosure r) := by
  refine steady_then (steady_eatIf _) fun _ => steady_then steady_peek fun k? => ?_
  split
  · exact steady_closure h hP
  · exact steady_closure h hP
  · exact steady_fail

omit hP in
theorem steady_template (close : Mark) : Steady P id (template r close) := by
  have hparts (n : Nat) : Steady P id (parts r close n) := by
    induction n with
    | zero => exact steady_fail
    | succ n ih =>
        refine steady_then steady_peek fun k? => ?_
        split
        · exact steady_fail
        · exact steady_after steady_advance ih
        · refine steady_after steady_advance (steady_then (h.expression _) fun _ => ?_)
          exact steady_after (steady_eat _) ih
        · refine agree_if (steady_after steady_advance (steady_pure _)) ?_
          exact steady_then (h.expression _) fun _ => ih
  exact steady_after steady_advance (steady_then (steady_rounds hparts) fun _ => steady_pure _)

section

variable {target : Reader Expression} (htarget : Steady P id target)
include htarget

theorem steady_instantiation : Steady P id (instantiation r target) := by
  refine steady_after steady_advance (steady_then steady_peek fun k? => ?_)
  dsimp only
  split
  all_goals
    refine steady_then (steady_pure _) fun isAnonymous => ?_
    refine agree_if (steady_then (steady_anonymousClass h hP) fun _ => steady_pure _) ?_
    refine steady_then htarget fun made => steady_then (steady_arguments? h) fun _ => ?_
    split
    · exact steady_pure _
    · exact steady_pure _

theorem steady_reservedOperand (waiting : Bool) (k : Keyword) :
    Steady P id (reservedOperand r target waiting k) := by
  have hother : Steady P id (do let _ ← advance; pure Expression.other) :=
    steady_after steady_advance (steady_pure _)
  have hnamed : Steady P id (do let t ← advance; pure (Expression.name t.text)) :=
    steady_token steady_advance (fun _ _ _ _ => rfl) fun _ => steady_pure _
  have hclosure : Steady P id (do closure r; pure Expression.other) :=
    steady_then (steady_closure h hP) fun _ => steady_pure _
  have hvalue (waits : Bool) : Steady P id (do let _ ← r.expression waits; pure Expression.other) :=
    steady_then (h.expression _) fun _ => steady_pure _
  have hparenthesized : Steady P id (do
      let _ ← advance
      parenthesized r
      pure Expression.other) :=
    steady_after steady_advance (steady_then (steady_parenthesized h) fun _ => steady_pure _)
  have hlist {item : Reader Unit} (hitem : Steady P id item) (opening close : Mark) :
      Steady P id (do let _ ← listed opening close item; pure Expression.other) :=
    steady_then (steady_listed hitem _ _) fun _ => steady_pure _
  unfold reservedOperand
  split
  · exact hother
  · exact hother
  · exact hother
  · exact hother
  · exact hother
  · exact hother
  · exact hnamed
  · exact hnamed
  · exact hnamed
  · exact steady_instantiation h hP htarget
  · exact steady_after steady_advance (steady_then (h.expression _) fun _ => steady_pure _)
  · refine steady_after steady_advance (steady_then steady_peek fun k? => ?_)
    dsimp only
    split
    · exact steady_then (steady_callArguments h) fun _ => steady_pure _
    · exact hvalue _
  · exact steady_after steady_advance (hvalue _)
  · exact steady_after steady_advance (hvalue _)
  · refine steady_after steady_advance (steady_then (steady_eatIf _) fun from_ => ?_)
    dsimp only
    split
    · exact hvalue _
    · refine steady_then steady_peek fun k? => ?_
      split
      · exact steady_pure _
      · refine steady_then (h.expression _) fun _ => ?_
        refine steady_then (steady_eatIf _) fun arrow => ?_
        split
        · exact hvalue _
        · exact steady_pure _
  · refine steady_after steady_advance ?_
    exact steady_then (steady_listed (h.expression _) _ _) fun _ => steady_pure _
  · exact hparenthesized
  · exact hparenthesized
  · exact steady_after steady_advance (steady_then (steady_arguments? h) fun _ => steady_pure _)
  · refine steady_then steady_peekSecond fun second => ?_
    split
    · exact steady_after steady_advance (hlist (steady_element h) _ _)
    · exact steady_misplaced waiting
  · refine steady_token steady_advance (fun _ _ _ _ => rfl) fun t => ?_
    refine steady_then steady_peek fun k? => ?_
    split
    · exact hlist (steady_element h) _ _
    · exact steady_pure _
  · refine steady_token steady_advance (fun _ _ _ _ => rfl) fun t => ?_
    refine steady_then steady_peek fun k? => ?_
    split
    · exact steady_then (steady_parenthesized h) fun _ => hlist (steady_matchArm h) _ _
    · exact steady_pure _
  · exact hclosure
  · exact hclosure
  · refine steady_after steady_advance (steady_then steady_peek fun k? => ?_)
    dsimp only
    split
    · exact hclosure
    · exact hclosure
    · exact steady_pure _
  · exact steady_misplaced waiting

theorem steady_operand (waiting : Bool) : Steady P id (operand r target waiting) := by
  have hother : Steady P id (do let _ ← advance; pure Expression.other) :=
    steady_after steady_advance (steady_pure _)
  have hvariable : Steady P id (do rounds (anyVariable r); pure Expression.other) :=
    steady_then (steady_rounds (steady_anyVariable h)) fun _ => steady_pure _
  have hnamed : Steady P id (do let t ← advance; pure (Expression.name t.text)) :=
    steady_token steady_advance (fun _ _ _ _ => rfl) fun _ => steady_pure _
  refine steady_then steady_peek fun k? => ?_
  split
  · exact steady_fail
  · exact steady_token steady_advance (fun _ _ _ _ => rfl) fun _ => steady_pure _
  · exact hvariable
  · exact hvariable
  · exact hother
  · exact steady_after steady_advance steady_fail
  · exact steady_template h _
  · exact steady_template h _
  · exact steady_template h _
  · exact hnamed
  · exact hnamed
  · exact steady_then (steady_parenthesized h) fun _ => steady_pure _
  · exact steady_then (steady_listed (steady_element h) _ _) fun _ => steady_pure _
  · refine steady_then (steady_attributes h) fun _ => ?_
    exact steady_then (steady_attributedClosure h hP) fun _ => steady_pure _
  · exact steady_reservedOperand h hP htarget waiting _
  · exact steady_misplaced waiting

end

theorem steady_unitFrom (n : Nat) (calls waiting : Bool) :
    Steady P id (unitFrom r n calls waiting) := by
  induction n generalizing calls waiting with
  | zero => exact steady_fail
  | succ n ih =>
      refine steady_then steady_peek fun k? => ?_
      split
      · exact steady_fail
      · refine agree_if ?_ ?_
        · exact steady_after steady_advance (steady_then (steady_nested (ih _ _)) fun _ =>
            steady_pure _)
        · refine steady_then (steady_operand h hP (steady_nested (ih _ _)) waiting) fun e => ?_
          exact steady_rounds fun m => steady_trailing h calls m e

theorem steady_unit (waiting : Bool) : Steady P id (unit r waiting) :=
  steady_rounds fun n => steady_unitFrom h hP n true waiting

theorem steady_chain (n : Nat) (e : Expression) : Steady P id (chain r n e) := by
  induction n generalizing e with
  | zero => exact steady_pure _
  | succ n ih =>
      have hunit : Steady P id (do
          let _ ← nested (unit r true)
          chain r n .other) :=
        steady_then (steady_nested (steady_unit h hP true)) fun _ => ih _
      have hcolon : Steady P id (do
          let _ ← eat (.mark .colon)
          let _ ← nested (unit r true)
          chain r n .other) :=
        steady_after (steady_eat _) hunit
      refine steady_then steady_peek fun k? => ?_
      split
      · exact steady_pure _
      · refine steady_after steady_advance (steady_then steady_peek fun k? => ?_)
        dsimp only
        split
        · exact hcolon
        · exact steady_then (h.expression _) fun _ => hcolon
      · exact agree_if (steady_after steady_advance hunit) (steady_pure _)

theorem steady_expression (waiting : Bool) : Steady P id (expression r waiting) :=
  steady_nested (steady_then (steady_unit h hP waiting) fun e =>
    steady_rounds fun n => steady_chain h hP n e)

/-! Statements -/

omit hP in
theorem steady_delimited (stops : Keyword → Bool) :
    Steady P (List.map Statement.outline) (delimited r stops) :=
  steady_rounds (steady_strictly h.statement _)

def unseen {α : Type} (_ : α) : Unit := ()

omit hP in
theorem steady_loopBody (last : Keyword) : Steady P unseen (loopBody r last) := by
  refine steady_then (steady_eatIf _) fun colon => ?_
  split
  · refine agree_after (steady_delimited h _) fun _ _ => agree_after (steady_eat _) fun _ _ => ?_
    exact agree_then steady_terminator fun _ => agree_pure rfl
  · exact agree_after h.statement fun _ _ => agree_pure rfl

omit hP in
theorem steady_singleAlternates (n : Nat) : Steady P unseen (singleAlternates r n) := by
  induction n with
  | zero => exact steady_pure _
  | succ n ih =>
      refine steady_then steady_peek fun k? => ?_
      split
      · refine steady_after steady_advance (steady_then (steady_parenthesized h) fun _ => ?_)
        exact agree_after h.statement fun _ _ => agree_after ih fun _ _ => agree_pure rfl
      · exact steady_after steady_advance (agree_after h.statement fun _ _ => agree_pure rfl)
      · exact steady_pure _

omit hP in
theorem steady_delimitedAlternates (n : Nat) : Steady P unseen (delimitedAlternates r n) := by
  induction n with
  | zero => exact steady_pure _
  | succ n ih =>
      refine steady_then steady_peek fun k? => ?_
      split
      · refine steady_after steady_advance (steady_then (steady_parenthesized h) fun _ => ?_)
        refine steady_after (steady_eat _) (agree_after (steady_delimited h _) fun _ _ => ?_)
        exact agree_after ih fun _ _ => agree_pure rfl
      · refine steady_after steady_advance (steady_after (steady_eat _) ?_)
        exact agree_after (steady_delimited h _) fun _ _ => agree_pure rfl
      · exact steady_pure _

omit hP in
theorem steady_conditional : Steady P Statement.outline (conditional r) := by
  refine steady_after (steady_eat _) (steady_then (steady_parenthesized h) fun _ => ?_)
  refine steady_then (steady_eatIf _) fun colon => ?_
  split
  · refine agree_after (steady_delimited h _) fun _ _ => ?_
    refine agree_after (steady_rounds (steady_delimitedAlternates h)) fun _ _ => ?_
    refine agree_after (steady_eat _) fun _ _ => ?_
    exact agree_then steady_terminator fun _ => agree_pure rfl
  · refine agree_after h.statement fun _ _ => ?_
    exact agree_after (steady_rounds (steady_singleAlternates h)) fun _ _ => agree_pure rfl

omit hP in
theorem steady_whileLoop : Steady P Statement.outline (whileLoop r) :=
  steady_after (steady_eat _) (steady_then (steady_parenthesized h) fun _ =>
    agree_after (steady_loopBody h _) fun _ _ => agree_pure rfl)

omit hP in
theorem steady_doWhile : Steady P Statement.outline (doWhile r) :=
  steady_after (steady_eat _) (agree_after h.statement fun _ _ => agree_after (steady_eat _) fun _ _ =>
    agree_then (steady_parenthesized h) fun _ => agree_then steady_terminator fun _ => agree_pure rfl)

omit hP in
theorem steady_expressionsUntil (close : Mark) (n : Nat) :
    Steady P id (expressionsUntil r close n) := by
  induction n with
  | zero => exact steady_fail
  | succ n ih =>
      refine steady_then steady_peek fun k? => ?_
      split
      · exact steady_fail
      · refine agree_if (steady_pure _) (steady_then (h.expression _) fun _ => ?_)
        exact steady_then (steady_eatIf _) fun more => agree_if ih (steady_pure _)

omit hP in
theorem steady_forLoop : Steady P Statement.outline (forLoop r) := by
  have hpart (close : Mark) : Steady P id (rounds (expressionsUntil r close)) :=
    steady_rounds (steady_expressionsUntil h close)
  refine steady_after (steady_eat _) (steady_after (steady_eat _) ?_)
  refine steady_then (hpart _) fun _ => steady_after (steady_eat _) ?_
  refine steady_then (hpart _) fun _ => steady_after (steady_eat _) ?_
  refine steady_then (hpart _) fun _ => steady_after (steady_eat _) ?_
  exact agree_after (steady_loopBody h _) fun _ _ => agree_pure rfl

omit hP in
theorem steady_foreachLoop : Steady P Statement.outline (foreachLoop r) := by
  have hbody : Steady P Statement.outline (do
      let _ ← eat (.mark .closeParen)
      let body ← loopBody r .endforeach
      pure (.loop .foreach body)) :=
    steady_after (steady_eat _) (agree_after (steady_loopBody h _) fun _ _ => agree_pure rfl)
  refine steady_after (steady_eat _) (steady_after (steady_eat _) ?_)
  refine steady_then (h.expression _) fun _ => steady_after (steady_eat _) ?_
  refine steady_then (h.expression _) fun _ => steady_then (steady_eatIf _) fun arrow => ?_
  dsimp only
  split
  · exact steady_then (h.expression _) fun _ => hbody
  · exact hbody

omit hP in
theorem steady_cases (n : Nat) : Steady P unseen (cases r n) := by
  induction n with
  | zero =>
      unfold cases
      exact steady_fail
  | succ n ih =>
      have hbody : Steady P unseen (cases.body r n) := by
        unfold cases.body
        refine steady_token steady_advance (fun _ _ _ _ => rfl) fun separator => ?_
        refine agree_if ?_ steady_fail
        refine agree_after (steady_rounds (steady_strictly h.statement _)) fun _ _ => ?_
        exact agree_after ih fun _ _ => agree_pure rfl
      unfold cases
      refine steady_then steady_peek fun k? => ?_
      split
      · exact steady_fail
      · exact steady_after steady_advance hbody
      · refine agree_if (steady_pure _) (steady_after (steady_eat _) ?_)
        exact steady_then (h.expression _) fun _ => hbody

omit hP in
theorem steady_switch : Steady P Statement.outline (switch r) := by
  refine steady_after (steady_eat _) (steady_then (steady_parenthesized h) fun _ => ?_)
  refine steady_then (steady_eatIf _) fun colon => ?_
  split
  · refine steady_then steady_terminator? fun _ => ?_
    refine agree_after (steady_rounds (steady_cases h)) fun _ _ => ?_
    refine agree_after (steady_eat _) fun _ _ => ?_
    exact agree_then steady_terminator fun _ => agree_pure rfl
  · refine steady_after (steady_eat _) (steady_then steady_terminator? fun _ => ?_)
    refine agree_after (steady_rounds (steady_cases h)) fun _ _ => ?_
    exact agree_after (steady_eat _) fun _ _ => agree_pure rfl

theorem steady_catches (n : Nat) : Steady P unseen (catches r n) := by
  induction n with
  | zero => exact steady_pure _
  | succ n ih =>
      have hcaught (hint : Hint) (binder? : Option String) : Steady P unseen (do
          let _ ← eat (.mark .closeParen)
          let body ← block r
          let rest ← catches r n
          pure (Catch.mk hint binder? body :: rest)) :=
        steady_after (steady_eat _) (agree_after (steady_block h hP) fun _ _ =>
          agree_after ih fun _ _ => agree_pure rfl)
      have hbinder : Steady P id (some <$> Token.text <$> advance) :=
        steady_then (steady_token steady_advance (fun _ _ _ _ => rfl) fun _ => steady_pure _)
          fun _ => steady_pure _
      refine steady_then (steady_eatIf _) fun found => ?_
      split
      · refine steady_after (steady_eat _) (steady_then steady_hint fun hint => ?_)
        refine steady_then steady_peek fun k? => ?_
        dsimp only
        split
        · exact steady_then hbinder fun binder? => hcaught hint binder?
        · exact steady_then (steady_pure _) fun binder? => hcaught hint binder?
      · exact steady_pure _

theorem steady_tryCatch : Steady P Statement.outline (tryCatch r) := by
  refine steady_after (steady_eat _) (agree_after (steady_block h hP) fun _ _ => ?_)
  refine agree_after (steady_rounds (steady_catches h hP)) fun _ _ => ?_
  refine agree_then (steady_eatIf _) fun last => agree_if ?_ (agree_pure rfl)
  exact agree_after (steady_block h hP) fun _ _ => agree_pure rfl

omit h hP in
theorem steady_imports : Steady P Statement.outline imports := by
  have hitem : Steady P id importItem := by
    refine steady_then steady_className fun _ => steady_then (steady_eatIf _) fun renamed => ?_
    exact agree_if (steady_then steady_anyName fun _ => steady_pure _) (steady_pure _)
  have hkind : Steady P id importKind? := by
    have hword : Steady P id (do let _ ← advance) :=
      steady_after steady_advance (steady_pure _)
    refine steady_then steady_peek fun k? => ?_
    split
    · exact hword
    · exact hword
    · exact steady_pure _
  have hgroup {item : Reader Unit} (hitem : Steady P id item) : Steady P id (importGroup item) :=
    steady_then steady_className fun _ => steady_after (steady_eat _)
      (steady_then (steady_listed hitem _ _) fun _ => steady_pure _)
  have hlist : Steady P id importList :=
    steady_then (steady_rounds (steady_separatedUntil hitem _)) fun _ => steady_pure _
  have hend : Steady P Statement.outline (do terminator; pure .other) :=
    steady_then steady_terminator fun _ => steady_pure _
  have hmarked : Steady P Statement.outline (do
      let third ← peekThird
      let _ ← advance
      if third = some (.mark .backslash) then importGroup importItem else importList
      terminator
      pure .other) := by
    refine steady_then steady_peekThird fun third => steady_after steady_advance ?_
    exact agree_if (steady_then (hgroup hitem) fun _ => hend) (steady_then hlist fun _ => hend)
  refine steady_after (steady_eat _) (steady_then steady_peek fun k? => ?_)
  dsimp only
  split
  · exact steady_fail
  · exact hmarked
  · exact hmarked
  · refine steady_then steady_peekSecond fun second => agree_if ?_ ?_
    · exact steady_then (hgroup (steady_then hkind fun _ => hitem)) fun _ => hend
    · exact steady_then hlist fun _ => hend

omit hP in
theorem steady_constantStatement : Steady P Statement.outline (constantStatement r) :=
  steady_after (steady_eat _) (steady_then
    (steady_rounds (steady_separatedUntil (steady_constantItem h) _)) fun _ =>
    steady_then steady_terminator fun _ => steady_pure _)

theorem steady_functionStatement : Steady P Statement.outline (functionStatement r) := by
  refine steady_after (steady_eat _) (steady_then (steady_eatIf _) fun _ => ?_)
  refine steady_then steady_anyName fun _ => steady_then (steady_parameters h hP) fun _ => ?_
  refine steady_then steady_returns? fun _ => ?_
  exact agree_after (steady_block h hP) fun _ _ => agree_pure rfl

omit hP in
theorem steady_leaving : Steady P Statement.outline (leaving r) := by
  have hend : Steady P Statement.outline (do terminator; pure .other) :=
    steady_then steady_terminator fun _ => steady_pure _
  refine steady_after steady_advance (steady_then steady_peek fun k? => ?_)
  dsimp only
  split
  · exact hend
  · exact hend
  · exact steady_then (h.expression _) fun _ => hend

omit h hP in
theorem steady_listing {α : Type} {item : Reader α} (hitem : Steady P id item) :
    Steady P Statement.outline (listing item) :=
  steady_after steady_advance (steady_then (steady_rounds (steady_separatedUntil hitem _)) fun _ =>
    steady_then steady_terminator fun _ => steady_pure _)

omit hP in
theorem steady_unset : Steady P Statement.outline (unset r) :=
  steady_after steady_advance (steady_then (steady_listed (h.expression _) _ _) fun _ =>
    steady_then steady_terminator fun _ => steady_pure _)

omit h hP in
theorem steady_goto : Steady P Statement.outline (goto r) :=
  steady_after steady_advance (steady_then steady_anyName fun _ =>
    steady_then steady_terminator fun _ => steady_pure _)

omit hP in
theorem steady_declare : Steady P Statement.outline (declare r) :=
  steady_after steady_advance (steady_then (steady_listed (steady_constantItem h) _ _) fun _ =>
    agree_after (steady_loopBody h _) fun _ _ => agree_pure rfl)

omit h hP in
theorem steady_haltCompiler : Steady P Statement.outline haltCompiler :=
  steady_after steady_advance (steady_after (steady_eat _) (steady_after (steady_eat _)
    (steady_then steady_terminator fun _ => steady_pure _)))

theorem steady_namespaced : Steady P Statement.outline (namespaced r) := by
  have hbody : Steady P (List.map Statement.outline) (namespaceBody r) := by
    refine steady_then steady_peek fun k? => ?_
    split
    · exact steady_block h hP
    · refine steady_then steady_terminator fun _ => ?_
      exact steady_rounds (steady_recovering h.statement hP steady_peek _)
  have hspace : Steady P Statement.outline (do
      let body ← namespaceBody r
      pure (.namespaced body)) := by
    refine agree_bind hbody fun ss ss' hss => agree_pure ?_
    change (declaredClasses ss).map _ = (declaredClasses ss').map _
    rw [map_declaredClasses, map_declaredClasses, hss]
  refine steady_after (steady_eat _) (steady_then steady_peek fun k? => ?_)
  dsimp only
  split
  · exact hspace
  · exact hspace
  · exact hspace
  · exact steady_then steady_className fun _ => hspace

omit h hP in
theorem steady_heritage (keyword : ClassKeyword) : Steady P id (heritage keyword) := by
  have hclass : Steady P id (do parents .extends_; parents .implements) :=
    steady_then (steady_parents _) fun _ => steady_parents _
  cases keyword with
  | interface => exact steady_parents _
  | trait => exact steady_pure _
  | enum => exact steady_then steady_returns? fun _ => steady_parents _
  | plain => exact hclass
  | abstract => exact hclass
  | final => exact hclass

theorem agree_classLike (start start' : Nat) (mods : List Keyword) :
    Agree P Statement.outline (classLike r start mods) (classLike r start' mods) := by
  refine agree_bind steady_advance fun t t' ht => ?_
  have hkind : t.kind = t'.kind := congrArg Prod.fst ht
  dsimp only
  rw [hkind]
  refine agree_then steady_anyName fun name => agree_then (steady_heritage _) fun _ => ?_
  refine agree_bind (steady_classBody h hP) fun body body' hbody => agree_pure ?_
  exact congrArg (fun ms => [(_, name, ms)]) hbody

theorem steady_expressionStatement : Steady P Statement.outline (expressionStatement r) :=
  steady_then (steady_expression h hP _) fun _ => steady_then steady_terminator fun _ => steady_pure _

theorem steady_functionOrClosure : Steady P Statement.outline (functionOrClosure r) := by
  refine steady_then steady_peekSecond fun second => steady_then steady_peekThird fun third => ?_
  exact agree_if (steady_expressionStatement h hP) (steady_functionStatement h hP)

theorem agree_modifiedClass (start start' : Nat) :
    Agree P Statement.outline (modifiedClass r start) (modifiedClass r start') := by
  refine agree_then steady_modifiers fun mods => agree_then steady_peek fun k? => ?_
  split
  · exact agree_classLike h hP start start' mods
  · exact steady_fail

theorem agree_declared (start start' : Nat) :
    Agree P Statement.outline (declared r start) (declared r start') := by
  refine agree_then steady_peek fun k? => ?_
  split
  · exact agree_classLike h hP start start' []
  · exact agree_classLike h hP start start' []
  · exact agree_classLike h hP start start' []
  · exact agree_classLike h hP start start' []
  · exact steady_functionOrClosure h hP
  · exact steady_expressionStatement h hP
  · exact steady_constantStatement h
  · refine agree_then steady_peekSecond fun second => ?_
    split
    · exact steady_expressionStatement h hP
    · exact steady_expressionStatement h hP
    · exact agree_modifiedClass h hP start start'
  · exact agree_if (agree_modifiedClass h hP start start') steady_fail
  · exact steady_fail

theorem steady_reservedStatement (k : Keyword) : Steady P Statement.outline (reservedStatement r k) := by
  have hclass : Steady P Statement.outline (do classLike r (← nextStart) []) :=
    agree_nextStart fun start start' => agree_classLike h hP start start' []
  unfold reservedStatement
  split
  · exact steady_namespaced h hP
  · exact steady_imports
  · exact steady_constantStatement h
  · exact hclass
  · exact hclass
  · exact hclass
  · refine steady_then steady_peekSecond fun second => ?_
    exact agree_if hclass (steady_expressionStatement h hP)
  · exact steady_functionOrClosure h hP
  · exact steady_conditional h
  · exact steady_switch h
  · exact steady_whileLoop h
  · exact steady_doWhile h
  · exact steady_forLoop h
  · exact steady_foreachLoop h
  · exact steady_tryCatch h hP
  · exact steady_leaving h
  · exact steady_leaving h
  · exact steady_leaving h
  · exact steady_listing (h.expression _)
  · exact steady_listing (steady_rounds (steady_anyVariable h))
  · exact steady_unset h
  · exact steady_goto
  · exact steady_declare h
  · exact steady_haltCompiler
  · split
    · refine steady_then steady_peekSecond fun second => ?_
      split
      · exact agree_if (steady_listing (steady_propertyItem h)) (steady_expressionStatement h hP)
      · refine agree_if ?_ (steady_expressionStatement h hP)
        exact agree_nextStart fun start start' => agree_modifiedClass h hP start start'
    · exact steady_expressionStatement h hP

theorem steady_statement : Steady P Statement.outline (statement r) := by
  have hother : Steady P Statement.outline (do let _ ← advance; pure .other) :=
    steady_after steady_advance (steady_pure _)
  refine steady_then steady_peek fun k? => ?_
  split
  · exact steady_fail
  · exact hother
  · exact hother
  · exact hother
  · exact hother
  · exact steady_listing (h.expression _)
  · exact agree_after (steady_block h hP) fun _ _ => agree_pure rfl
  · refine agree_nextStart fun start start' => agree_then (steady_attributes h) fun _ => ?_
    exact agree_declared h hP start start'
  · exact steady_reservedStatement h hP _
  · refine steady_then steady_peekSecond fun second => ?_
    split
    · exact steady_after steady_advance hother
    · exact steady_expressionStatement h hP
  · exact steady_expressionStatement h hP

end

end Grammar

theorem Rules.steady_upTo (hP : Relator.BiUnique P) (n : Nat) : (Rules.upTo n).Steady P := by
  induction n with
  | zero => exact ⟨fun _ => steady_fail, steady_fail⟩
  | succ n ih => exact ⟨Grammar.steady_expression ih hP, Grammar.steady_statement ih hP⟩

namespace Program

def outline (p : Program) : List (ClassKeyword × String × List Member) :=
  (declaredClasses p.statements).map ClassLike.outline

def ofReply : Reply (List Statement) → Program
  | .kept statements c => ⟨statements, c.faulty⟩
  | .lost c => ⟨[], c.faulty⟩

theorem outline_ofReply {x y : Reply (List Statement)} (h : x.Moved P (List.map Statement.outline) y) :
    (ofReply x).outline = (ofReply y).outline ∧ (ofReply x).faulty = (ofReply y).faulty := by
  cases h with
  | kept hstatements hnext =>
      refine ⟨?_, hnext.faulty⟩
      simp only [outline, ofReply, map_declaredClasses, hstatements]
  | lost hnext => exact ⟨rfl, hnext.faulty⟩

theorem outline_eq_of_moved {source source' : String} (hP : Relator.BiUnique P) (hstart : P 0 0)
    (h : List.Forall₂ (Item.Moved P) (items source) (items source')) :
    (parse source).outline = (parse source').outline ∧
      (parse source).faulty = (parse source').faulty := by
  have hlook : Steady P id (do return (← absorb peek).join) := by
    refine steady_then ?_ fun _ => steady_pure _
    simpa using steady_absorb steady_peek
  have hrules := Rules.steady_upTo hP (items source).length
  have hfile := steady_recovering (Grammar.steady_statement hrules hP) hP hlook (fun _ => false)
    ((items source).length + 1)
  have hcursor : Cursor.Moved P ⟨items source, (items source).length, false, 0, 0⟩
      ⟨items source', (items source).length, false, 0, 0⟩ :=
    ⟨h, rfl, rfl, rfl, hstart⟩
  have hreply := outline_ofReply (hfile _ _ hcursor)
  unfold parse
  dsimp only
  rw [← h.length_eq]
  exact hreply

end Program

/-! Sources with the same words -/

def SameIndex (l l' : List Nat) (a a' : Nat) : Prop :=
  ∃ i : Nat, l[i]? = some a ∧ l'[i]? = some a'

theorem biUnique_sameIndex {l l' : List Nat} (hl : l.Nodup) (hl' : l'.Nodup) :
    Relator.BiUnique (SameIndex l l') := by
  have hinj {l : List Nat} {a i j : Nat} (hl : l.Nodup) (hi : l[i]? = some a)
      (hj : l[j]? = some a) : i = j :=
    (List.getElem?_inj (List.getElem?_eq_some_iff.mp hi).1 hl).mp (hi.trans hj.symm)
  constructor
  · rintro a b c ⟨i, ha, hc⟩ ⟨j, hb, hc'⟩
    obtain rfl := hinj hl' hc hc'
    exact Option.some.inj (ha.symm.trans hb)
  · rintro a b c ⟨i, ha, hb⟩ ⟨j, ha', hc⟩
    obtain rfl := hinj hl ha ha'
    exact Option.some.inj (hb.symm.trans hc)

theorem Advancing.nodup {pos : Nat} {ts : List Token} (h : Advancing pos ts) :
    (pos :: ts.map Token.stop).Nodup := by
  have hchain : (pos :: ts.map Token.stop).IsChain (· < ·) := by
    induction ts generalizing pos with
    | nil => exact .singleton pos
    | cons t ts ih => exact List.isChain_cons_cons.mpr ⟨h.1, ih h.2⟩
  exact hchain.pairwise.imp Nat.ne_of_lt

theorem moved_of_words {pos pos' : Nat} {ts ts' : List Token}
    (h : ts.map Token.word = ts'.map Token.word) :
    List.Forall₂ (Item.Moved (SameIndex (pos :: ts.map Token.stop) (pos' :: ts'.map Token.stop)))
      (ts.map .token) (ts'.map .token) := by
  have hlength : ts.length = ts'.length := by simpa using congrArg List.length h
  refine List.forall₂_iff_get.mpr ⟨by simpa using hlength, fun i hi hi' => ?_⟩
  rw [List.length_map] at hi hi'
  have hword : ts[i].word = ts'[i].word := by
    have hget := congrArg (·[i]?) h
    simpa [hi, hi'] using hget
  have hmoved : Item.Moved (SameIndex (pos :: ts.map Token.stop) (pos' :: ts'.map Token.stop))
      (.token ts[i]) (.token ts'[i]) :=
    .token hword ⟨i + 1, by simp [hi], by simp [hi']⟩
  simpa using hmoved

theorem Program.outline_eq_of_scans {source source' : String} {rest rest' : List Char}
    {ws : List Word} (hsource : source.toList = '<' :: '?' :: 'p' :: 'h' :: 'p' :: rest)
    (hsource' : source'.toList = '<' :: '?' :: 'p' :: 'h' :: 'p' :: rest') (h : Scans rest ws)
    (h' : Scans rest' ws) :
    (parse source).outline = (parse source').outline ∧
      (parse source).faulty = (parse source').faulty := by
  obtain ⟨ts, hts, hws, hadvancing⟩ := h 5
  obtain ⟨ts', hts', hws', hadvancing'⟩ := h' 5
  have hitems := items_of_tag hsource
  have hitems' := items_of_tag hsource'
  rw [hts] at hitems
  rw [hts'] at hitems'
  let tag : Token := ⟨.openTag, "<?php", 0, 5⟩
  have hnodup : (0 :: (tag :: ts).map Token.stop).Nodup := Advancing.nodup ⟨Nat.succ_pos 4, hadvancing⟩
  have hnodup' : (0 :: (tag :: ts').map Token.stop).Nodup :=
    Advancing.nodup ⟨Nat.succ_pos 4, hadvancing'⟩
  have hwords : (tag :: ts).map Token.word = (tag :: ts').map Token.word := by
    rw [List.map_cons, List.map_cons, hws, hws']
  refine outline_eq_of_moved (biUnique_sameIndex hnodup hnodup') ⟨0, rfl, rfl⟩ ?_
  rw [hitems, hitems']
  exact moved_of_words hwords

end Scaffold.Php
