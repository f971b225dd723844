import Scaffold.ThrowTree
/-!
Two spellings of a body. The body of a conditional or a loop can stand between braces or between a
colon and a closing word. Statements are respelled by changing any of these bodies, at any depth,
from one form to the other; what is thrown and in which order stays the same.
-/
namespace Scaffold

namespace Php

mutual

inductive Statement.Respells : Statement → Statement → Prop where
  | same (s : Statement) : Statement.Respells s s
  | block {ss ts : List Statement} (h : Respelled ss ts) :
      Statement.Respells (.block ss) (.block ts)
  | conditional {b c : Branch} {bs cs : List Branch} (h : Branch.Respells b c)
      (hs : Branch.AllRespell bs cs) : Statement.Respells (.conditional b bs) (.conditional c cs)
  | loop {b c : Branch} (kind : Loop) (h : Branch.Respells b c) :
      Statement.Respells (.loop kind b) (.loop kind c)
  | doWhile {s t : Statement} (h : Statement.Respells s t) :
      Statement.Respells (.doWhile s) (.doWhile t)
  | switch {xs ys : List (List Statement)} (h : CasesRespelled xs ys) :
      Statement.Respells (.switch xs) (.switch ys)
  | tryCatch {ss ts : List Statement} {cs ds : List Catch} (h : Respelled ss ts)
      (hc : Catch.AllRespell cs ds) :
      Statement.Respells (.tryCatch ss cs none) (.tryCatch ts ds none)
  | tryFinally {ss ts ls ms : List Statement} {cs ds : List Catch} (h : Respelled ss ts)
      (hc : Catch.AllRespell cs ds) (hl : Respelled ls ms) :
      Statement.Respells (.tryCatch ss cs (some ls)) (.tryCatch ts ds (some ms))
  | declare {b c : Branch} (h : Branch.Respells b c) : Statement.Respells (.declare b) (.declare c)
  | namespaced {ss ts : List Statement} (h : Respelled ss ts) :
      Statement.Respells (.namespaced ss) (.namespaced ts)
  -- A class-like may move in the source.
  | classLike {ms ns : List Member} (keyword : ClassKeyword) (name : String)
      (start stop start' stop' : Nat) (h : Member.AllRespell ms ns) :
      Statement.Respells (.classLike (.mk keyword name ms start stop))
        (.classLike (.mk keyword name ns start' stop'))

inductive Respelled : List Statement → List Statement → Prop where
  | nil : Respelled [] []
  | cons {s t : Statement} {ss ts : List Statement} (h : Statement.Respells s t)
      (hs : Respelled ss ts) : Respelled (s :: ss) (t :: ts)

inductive Branch.Respells : Branch → Branch → Prop where
  | single {s t : Statement} (h : Statement.Respells s t) : Branch.Respells (.single s) (.single t)
  | delimited {ss ts : List Statement} (h : Respelled ss ts) :
      Branch.Respells (.delimited ss) (.delimited ts)
  | unbraced {ss ts : List Statement} (h : Respelled ss ts) :
      Branch.Respells (.single (.block ss)) (.delimited ts)
  | braced {ss ts : List Statement} (h : Respelled ss ts) :
      Branch.Respells (.delimited ss) (.single (.block ts))

inductive Branch.AllRespell : List Branch → List Branch → Prop where
  | nil : Branch.AllRespell [] []
  | cons {b c : Branch} {bs cs : List Branch} (h : Branch.Respells b c)
      (hs : Branch.AllRespell bs cs) : Branch.AllRespell (b :: bs) (c :: cs)

inductive Catch.AllRespell : List Catch → List Catch → Prop where
  | nil : Catch.AllRespell [] []
  | cons {ss ts : List Statement} {cs ds : List Catch} (hint : Hint) (binder? : Option String)
      (h : Respelled ss ts) (hs : Catch.AllRespell cs ds) :
      Catch.AllRespell (.mk hint binder? ss :: cs) (.mk hint binder? ts :: ds)

inductive CasesRespelled : List (List Statement) → List (List Statement) → Prop where
  | nil : CasesRespelled [] []
  | cons {ss ts : List Statement} {xs ys : List (List Statement)} (h : Respelled ss ts)
      (hs : CasesRespelled xs ys) : CasesRespelled (ss :: xs) (ts :: ys)

inductive Member.AllRespell : List Member → List Member → Prop where
  | nil : Member.AllRespell [] []
  | same {ms ns : List Member} (m : Member) (hs : Member.AllRespell ms ns) :
      Member.AllRespell (m :: ms) (m :: ns)
  | method {ss ts : List Statement} {ms ns : List Member} (name : String)
      (parameters : List Parameter) (returns : Option Hint) (h : Respelled ss ts)
      (hs : Member.AllRespell ms ns) :
      Member.AllRespell (.method name parameters returns (some ss) :: ms)
        (.method name parameters returns (some ts) :: ns)

end

end Php

open Php ThrowTree

namespace ThrowWalk

mutual

theorem visit_respells (w : ThrowWalk) {s t : Statement} :
    s.Respells t → w.visit (ofStatement s) = w.visit (ofStatement t)
  | .same s => rfl
  | .block h => by
      simp only [ofStatement, visit]
      exact visitAll_respelled w h
  | .conditional h hs => by
      simp only [ofStatement, visit]
      rw [visitAll_branch w h, visitBranches_respelled _ hs]
  | .loop kind h => by
      simp only [ofStatement, visit]
      exact visitAll_branch w h
  | .doWhile h => by
      simp only [ofStatement, visit, visitAll]
      exact visit_respells w h
  | .switch h => rfl
  | .tryCatch h hc => by
      simp only [ofStatement, visit]
      rw [visitAll_respelled w h, visitHandlers_respelled _ hc]
  | .tryFinally h hc hl => by
      simp only [ofStatement, visit]
      rw [visitAll_respelled w h, visitHandlers_respelled _ hc, visitAll_respelled _ hl]
  | .declare h => rfl
  | .namespaced h => rfl
  | .classLike _ _ _ _ _ _ h => rfl

theorem visitAll_respelled (w : ThrowWalk) {ss ts : List Statement} :
    Respelled ss ts → w.visitAll (ofStatements ss) = w.visitAll (ofStatements ts)
  | .nil => rfl
  | .cons h hs => by
      simp only [ofStatements, visitAll]
      rw [visit_respells w h, visitAll_respelled _ hs]

theorem visitAll_branch (w : ThrowWalk) {b c : Branch} :
    b.Respells c → w.visitAll (ofBranch b) = w.visitAll (ofBranch c)
  | .single h => by
      simp only [ofBranch, visitAll]
      exact visit_respells w h
  | .delimited h => visitAll_respelled w h
  -- A block of its own is walked as the statements in it.
  | .unbraced h => visitAll_respelled w h
  | .braced h => visitAll_respelled w h

theorem visitBranches_respelled (w : ThrowWalk) {bs cs : List Branch} :
    Branch.AllRespell bs cs → w.visitBranches (ofBranches bs) = w.visitBranches (ofBranches cs)
  | .nil => rfl
  | .cons h hs => by
      simp only [ofBranches, visitBranches]
      rw [visitAll_branch w h, visitBranches_respelled _ hs]

theorem visitHandlers_respelled (w : ThrowWalk) {cs ds : List Catch} :
    Catch.AllRespell cs ds → w.visitHandlers (ofCatches cs) = w.visitHandlers (ofCatches ds)
  | .nil => rfl
  | .cons hint (some v) h hs => by
      simp only [ofCatches, visitHandlers]
      rw [visitAll_respelled _ h, visitHandlers_respelled _ hs]
  | .cons hint none h hs => by
      simp only [ofCatches, visitHandlers]
      rw [visitAll_respelled _ h, visitHandlers_respelled _ hs]

end

end ThrowWalk

theorem throwsOf_respelled {ss ts : List Statement} (h : Respelled ss ts) :
    throwsOf (ofStatements ss) = throwsOf (ofStatements ts) := by
  rw [throwsOf, throwsOf, ThrowWalk.visitAll_respelled _ h]

def sampleBraces : List Statement :=
  [.tryCatch
    [.conditional (.single (.block [.expression (.throw (.instance "A"))]))
      [.single (.block [.loop .foreach (.delimited [.expression (.throw (.instance "B"))])]),
        .single (.block [.expression (.throw (.instance "A"))])]]
    [.mk (.named "E") (some "$e")
      [.loop .while (.single (.block [.expression (.throw (.variable "$e"))]))]] none]

def sampleColons : List Statement :=
  [.tryCatch
    [.conditional (.delimited [.expression (.throw (.instance "A"))])
      [.delimited [.loop .foreach (.single (.block [.expression (.throw (.instance "B"))]))],
        .delimited [.expression (.throw (.instance "A"))]]]
    [.mk (.named "E") (some "$e")
      [.loop .while (.delimited [.expression (.throw (.variable "$e"))])]] none]

theorem throwsOf_respelled_nested :
    Respelled sampleBraces sampleColons ∧
      throwsOf (ofStatements sampleBraces) = throwsOf (ofStatements sampleColons) ∧
      throwsOf (ofStatements sampleColons) = ["A", "B", "E"] := by
  have hone (e : Expression) : Respelled [.expression e] [.expression e] := .cons (.same _) .nil
  have hloop : Respelled [.loop .foreach (.delimited [.expression (.throw (.instance "B"))])]
      [.loop .foreach (.single (.block [.expression (.throw (.instance "B"))]))] :=
    .cons (.loop .foreach (.braced (hone _))) .nil
  have hif : Branch.AllRespell _ _ :=
    .cons (.unbraced hloop) (.cons (.unbraced (hone (.throw (.instance "A")))) .nil)
  have hcatch : Catch.AllRespell _ _ :=
    .cons (.named "E") (some "$e")
      (.cons (.loop .while (.unbraced (hone (.throw (.variable "$e"))))) .nil) .nil
  have h : Respelled sampleBraces sampleColons :=
    .cons (.tryCatch (.cons (.conditional (.unbraced (hone _)) hif) .nil) hcatch) .nil
  exact ⟨h, throwsOf_respelled h, by decide⟩

end Scaffold
