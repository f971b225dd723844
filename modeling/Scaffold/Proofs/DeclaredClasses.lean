import Scaffold.Php.Program
import Scaffold.Proofs.Reader
/-!
The class-likes of a syntax tree. They all come from one reader, so what holds of every class-like
that it gives holds of all that a source declares; and a source without a closing brace declares
none.
-/
namespace Scaffold.Php

open Reader Grammar

theorem mem_declaredClasses {c : ClassLike} {ss : List Statement} :
    c ∈ declaredClasses ss ↔ ∃ s ∈ ss, c ∈ s.declaredClasses := by
  induction ss with
  | nil => simp [declaredClasses]
  | cons s ss ih => simp [declaredClasses, ih]

def Statement.Declares (P : ClassLike → Prop) (s : Statement) : Prop :=
  ∀ c ∈ s.declaredClasses, P c

namespace Grammar

variable {I : Item → Prop} {P : ClassLike → Prop}

theorem yields_plain {s : Statement} (h : s.declaredClasses = []) :
    Yields I (Statement.Declares P) (pure s) := by
  refine yields_pure fun c hc => ?_
  rw [h] at hc
  exact absurd hc List.not_mem_nil

theorem declares_namespaced {body : List Statement} (h : ∀ s ∈ body, s.Declares P) :
    (Statement.namespaced body).Declares P := by
  intro c hc
  obtain ⟨s, hs, hc⟩ := mem_declaredClasses.mp hc
  exact h s hs c hc

theorem yields_expressionStatement (r : Rules) :
    Yields I (Statement.Declares P) (expressionStatement r) :=
  yields_then fun _ => yields_then fun _ => yields_plain rfl

theorem yields_functionOrClosure (r : Rules) :
    Yields I (Statement.Declares P) (functionOrClosure r) := by
  refine yields_then fun second => yields_then fun third => ?_
  split
  · exact yields_expressionStatement r
  · exact yields_then fun _ => yields_then fun _ => yields_then fun _ => yields_then fun _ =>
      yields_then fun _ => yields_then fun _ => yields_plain rfl

theorem yields_constantStatement (r : Rules) :
    Yields I (Statement.Declares P) (constantStatement r) :=
  yields_then fun _ => yields_then fun _ => yields_then fun _ => yields_plain rfl

theorem yields_block {r : Rules} (h : Yields I (Statement.Declares P) r.statement) :
    Yields I (fun body => ∀ s ∈ body, Statement.Declares P s) (block r) :=
  yields_then fun _ => yields_bind (yields_rounds (yields_recovering h _ _)) fun _ hbody =>
    yields_then fun _ => yields_pure hbody

theorem yields_namespaceBody {r : Rules} (h : Yields I (Statement.Declares P) r.statement) :
    Yields I (fun body => ∀ s ∈ body, Statement.Declares P s) (namespaceBody r) := by
  refine yields_then fun k? => ?_
  split
  · exact yields_block h
  · exact yields_then fun _ => yields_rounds (yields_recovering h _ _)

theorem yields_namespaced {r : Rules} (h : Yields I (Statement.Declares P) r.statement) :
    Yields I (Statement.Declares P) (namespaced r) := by
  have hbody : Yields I (Statement.Declares P) (do
      let body ← namespaceBody r
      pure (.namespaced body)) :=
    yields_bind (yields_namespaceBody h) fun _ hb => yields_pure (declares_namespaced hb)
  refine yields_then fun _ => yields_then fun k? => ?_
  dsimp only
  split
  · exact hbody
  · exact hbody
  · exact hbody
  · exact yields_then fun _ => hbody

theorem yields_conditional (r : Rules) : Yields I (Statement.Declares P) (conditional r) := by
  refine yields_then fun _ => yields_then fun _ => yields_then fun colon => ?_
  split
  · exact yields_then fun _ => yields_then fun _ => yields_then fun _ => yields_then fun _ =>
      yields_plain rfl
  · exact yields_then fun _ => yields_then fun _ => yields_plain rfl

theorem yields_switch (r : Rules) : Yields I (Statement.Declares P) (switch r) := by
  refine yields_then fun _ => yields_then fun _ => yields_then fun colon => ?_
  split
  · exact yields_then fun _ => yields_then fun _ => yields_then fun _ => yields_then fun _ =>
      yields_plain rfl
  · exact yields_then fun _ => yields_then fun _ => yields_then fun _ => yields_then fun _ =>
      yields_plain rfl

theorem yields_whileLoop (r : Rules) : Yields I (Statement.Declares P) (whileLoop r) :=
  yields_then fun _ => yields_then fun _ => yields_then fun _ => yields_plain rfl

theorem yields_doWhile (r : Rules) : Yields I (Statement.Declares P) (doWhile r) :=
  yields_then fun _ => yields_then fun _ => yields_then fun _ => yields_then fun _ =>
    yields_then fun _ => yields_plain rfl

theorem yields_forLoop (r : Rules) : Yields I (Statement.Declares P) (forLoop r) :=
  yields_then fun _ => yields_then fun _ => yields_then fun _ => yields_then fun _ =>
    yields_then fun _ => yields_then fun _ => yields_then fun _ => yields_then fun _ =>
    yields_then fun _ => yields_plain rfl

theorem yields_foreachLoop (r : Rules) : Yields I (Statement.Declares P) (foreachLoop r) := by
  refine yields_then fun _ => yields_then fun _ => yields_then fun _ => yields_then fun _ =>
    yields_then fun _ => yields_then fun arrow => ?_
  dsimp only
  split
  · exact yields_then fun _ => yields_then fun _ => yields_then fun _ =>
      yields_plain rfl
  · exact yields_then fun _ => yields_then fun _ => yields_plain rfl

theorem yields_tryCatch (r : Rules) : Yields I (Statement.Declares P) (tryCatch r) := by
  refine yields_then fun _ => yields_then fun _ => yields_then fun _ => yields_then fun last => ?_
  split
  · exact yields_then fun _ => yields_plain rfl
  · exact yields_plain rfl

theorem yields_imports : Yields I (Statement.Declares P) imports := by
  have hend : Yields I (Statement.Declares P) (do terminator; pure .other) :=
    yields_then fun _ => yields_plain rfl
  refine yields_then fun _ => yields_then fun k? => ?_
  dsimp only
  split
  · exact yields_fail
  · refine yields_then fun third => yields_then fun _ => ?_
    split
    · exact yields_then fun _ => hend
    · exact yields_then fun _ => hend
  · refine yields_then fun third => yields_then fun _ => ?_
    split
    · exact yields_then fun _ => hend
    · exact yields_then fun _ => hend
  · refine yields_then fun second => ?_
    split
    · exact yields_then fun _ => hend
    · exact yields_then fun _ => hend

theorem yields_leaving (r : Rules) : Yields I (Statement.Declares P) (leaving r) := by
  have hend : Yields I (Statement.Declares P) (do terminator; pure .other) :=
    yields_then fun _ => yields_plain rfl
  refine yields_then fun _ => yields_then fun k? => ?_
  dsimp only
  split
  · exact hend
  · exact hend
  · exact yields_then fun _ => hend

theorem yields_listing {α : Type} (item : Reader α) :
    Yields I (Statement.Declares P) (listing item) :=
  yields_then fun _ => yields_then fun _ => yields_then fun _ => yields_plain rfl

theorem yields_unset (r : Rules) : Yields I (Statement.Declares P) (unset r) :=
  yields_then fun _ => yields_then fun _ => yields_then fun _ => yields_plain rfl

theorem yields_goto (r : Rules) : Yields I (Statement.Declares P) (goto r) :=
  yields_then fun _ => yields_then fun _ => yields_then fun _ => yields_plain rfl

theorem yields_declare (r : Rules) : Yields I (Statement.Declares P) (declare r) :=
  yields_then fun _ => yields_then fun _ => yields_then fun _ => yields_plain rfl

theorem yields_haltCompiler : Yields I (Statement.Declares P) haltCompiler :=
  yields_then fun _ => yields_then fun _ => yields_then fun _ => yields_then fun _ =>
    yields_plain rfl

section

variable (hclass : ∀ r start mods, Yields I (Statement.Declares P) (classLike r start mods))
include hclass

theorem yields_modifiedClass (r : Rules) (start : Nat) :
    Yields I (Statement.Declares P) (modifiedClass r start) := by
  refine yields_then fun mods => yields_then fun k? => ?_
  split
  · exact hclass r start mods
  · exact yields_fail

theorem yields_declared (r : Rules) (start : Nat) :
    Yields I (Statement.Declares P) (declared r start) := by
  refine yields_then fun k? => ?_
  split
  · exact hclass r start []
  · exact hclass r start []
  · exact hclass r start []
  · exact hclass r start []
  · exact yields_functionOrClosure r
  · exact yields_expressionStatement r
  · exact yields_constantStatement r
  · refine yields_then fun second => ?_
    split
    · exact yields_expressionStatement r
    · exact yields_expressionStatement r
    · exact yields_modifiedClass hclass r start
  · split
    · exact yields_modifiedClass hclass r start
    · exact yields_fail
  · exact yields_fail

theorem yields_reservedStatement {r : Rules} (h : Yields I (Statement.Declares P) r.statement)
    (k : Keyword) : Yields I (Statement.Declares P) (reservedStatement r k) := by
  unfold reservedStatement
  split
  · exact yields_namespaced h
  · exact yields_imports
  · exact yields_constantStatement r
  · exact yields_then fun start => hclass r start []
  · exact yields_then fun start => hclass r start []
  · exact yields_then fun start => hclass r start []
  · refine yields_then fun second => ?_
    split
    · exact yields_then fun start => hclass r start []
    · exact yields_expressionStatement r
  · exact yields_functionOrClosure r
  · exact yields_conditional r
  · exact yields_switch r
  · exact yields_whileLoop r
  · exact yields_doWhile r
  · exact yields_forLoop r
  · exact yields_foreachLoop r
  · exact yields_tryCatch r
  · exact yields_leaving r
  · exact yields_leaving r
  · exact yields_leaving r
  · exact yields_listing _
  · exact yields_listing _
  · exact yields_unset r
  · exact yields_goto r
  · exact yields_declare r
  · exact yields_haltCompiler
  · split
    · refine yields_then fun second => ?_
      split
      · split
        · exact yields_listing _
        · exact yields_expressionStatement r
      · split
        · exact yields_then fun start => yields_modifiedClass hclass r start
        · exact yields_expressionStatement r
    · exact yields_expressionStatement r

theorem yields_statement {r : Rules} (h : Yields I (Statement.Declares P) r.statement) :
    Yields I (Statement.Declares P) (statement r) := by
  refine yields_then fun k? => ?_
  split
  · exact yields_fail
  · exact yields_then fun _ => yields_plain rfl
  · exact yields_then fun _ => yields_plain rfl
  · exact yields_then fun _ => yields_plain rfl
  · exact yields_then fun _ => yields_plain rfl
  · exact yields_listing _
  · exact yields_then fun body => yields_plain rfl
  · exact yields_then fun start => yields_then fun _ => yields_declared hclass r start
  · next k => exact yields_reservedStatement hclass h k
  · refine yields_then fun second => ?_
    split
    · exact yields_then fun _ => yields_then fun _ => yields_plain rfl
    · exact yields_expressionStatement r
  · exact yields_expressionStatement r

end

end Grammar

theorem Rules.yields_upTo {I : Item → Prop} {P : ClassLike → Prop}
    (hclass : ∀ r start mods, Yields I (Statement.Declares P) (classLike r start mods))
    (n : Nat) : Yields I (Statement.Declares P) (Rules.upTo n).statement := by
  induction n with
  | zero => exact yields_fail
  | succ n ih => exact yields_statement hclass ih

theorem Program.forall_declaredClasses_of_items {source : String} {I : Item → Prop}
    {P : ClassLike → Prop} (hitems : ∀ i ∈ items source, I i)
    (hclass : ∀ r start mods, Yields I (Statement.Declares P) (classLike r start mods)) :
    ∀ c ∈ declaredClasses (Program.parse source).statements, P c := by
  intro c hc
  obtain ⟨s, hs, hc⟩ := mem_declaredClasses.mp hc
  have hfile := yields_recovering
    (yields_statement hclass (Rules.yields_upTo hclass (items source).length))
    (do return (← Reader.absorb Reader.peek).join) (fun _ => false) ((items source).length + 1)
  unfold Program.parse at hs
  dsimp only at hs
  split at hs
  · next statements c' hkept =>
      refine hfile _ statements c' ?_ hkept s hs c hc
      exact hitems
  · exact absurd hs List.not_mem_nil

theorem Program.forall_declaredClasses {source : String} {P : ClassLike → Prop}
    (hclass : ∀ r start mods,
      Yields (Item.IsOf source.toList) (Statement.Declares P) (classLike r start mods)) :
    ∀ c ∈ declaredClasses (Program.parse source).statements, P c :=
  Program.forall_declaredClasses_of_items (isOf_items source) hclass

/-! A source in which no brace is closed -/

def Item.LeavesOpen (i : Item) : Prop :=
  ∀ t, i = .token t → t.kind ≠ .mark .closeBrace

theorem Grammar.yields_unclosed (r : Rules) (start : Nat) (mods : List Keyword) :
    Yields Item.LeavesOpen (Statement.Declares fun _ => False) (classLike r start mods) := by
  have hbody : Yields Item.LeavesOpen (fun _ => False) (classBody r) := by
    refine yields_then fun _ => yields_then fun ms => ?_
    refine yields_bind (yields_eat _) fun close hclose => ?_
    exact absurd hclose.1 (hclose.2 close rfl)
  refine yields_then fun word => yields_then fun name => yields_then fun _ => ?_
  exact yields_bind hbody fun body hfalse => hfalse.elim

theorem Program.declaredClasses_eq_nil {source : String}
    (h : ∀ t, .token t ∈ items source → t.kind ≠ .mark .closeBrace) :
    declaredClasses (Program.parse source).statements = [] := by
  have hitems : ∀ i ∈ items source, i.LeavesOpen := by
    rintro _ hi t rfl
    exact h t hi
  refine List.eq_nil_iff_forall_not_mem.mpr ?_
  exact Program.forall_declaredClasses_of_items hitems yields_unclosed

end Scaffold.Php
