import Scaffold.Declaration.Lookup
import Scaffold.Proofs.Throws
/-!
What a method throws, told on the statements of its body. A statement occurs in a body inside of a
chain of enclosures; functions and classes enclose nothing of the body that they stand in. A name is
found exactly if a `throw` of it, or of a variable that the innermost handler around binds to it,
occurs where no enclosure of the chain is a case of a `switch`, a directive or a namespace.
-/
namespace Scaffold

namespace Php

def Branch.statements : Branch → List Statement
  | .single body => [body]
  | .delimited body => body

inductive Enclosure where
  | block
  | branch
  | loop
  | switchCase
  | tried
  | handler (h : Handler)
  | last
  | directive
  | namespaced
  deriving DecidableEq, Repr

namespace Enclosure

def handler? : Enclosure → Option Handler
  | handler h => some h
  | _ => none

def isSearched : Enclosure → Bool
  | switchCase => false
  | directive => false
  | namespaced => false
  | _ => true

def boundBy? (es : List Enclosure) (v : String) : Option Handler :=
  (es.filterMap handler?).find? fun h => h.bound? == some v

def around (e : Enclosure) (t : ThrowSite) : ThrowSite :=
  { t with handlers := t.handlers ++ e.handler?.toList }

theorem around_eq_self {e : Enclosure} (h : e.handler? = none) (t : ThrowSite) :
    e.around t = t := by
  simp [around, h]

end Enclosure

def Catch.parts : Catch → List (Enclosure × Statement)
  | .mk hint bound? body => body.map (.handler ⟨hint.toUnion.members, bound?⟩, ·)

namespace Statement

def parts : Statement → List (Enclosure × Statement)
  | .block body => body.map (.block, ·)
  | .conditional first alternates =>
      (first :: alternates).flatMap fun b => b.statements.map (.branch, ·)
  | .loop _ body => body.statements.map (.loop, ·)
  | .doWhile body => [(.loop, body)]
  | .switch cases => cases.flatMap fun body => body.map (.switchCase, ·)
  | .tryCatch tried catches last? =>
      tried.map (.tried, ·) ++ catches.flatMap Catch.parts ++ (last?.getD []).map (.last, ·)
  | .declare body => body.statements.map (.directive, ·)
  | .namespaced body => body.map (.namespaced, ·)
  | _ => []

inductive Occurs : List Enclosure → Statement → Statement → Prop where
  | here (s : Statement) : Occurs [] s s
  | inside {e : Enclosure} {es : List Enclosure} {s part whole : Statement}
      (hp : (e, part) ∈ whole.parts) (ho : Occurs es s part) : Occurs (es ++ [e]) s whole

def OccursIn (es : List Enclosure) (s : Statement) (body : List Statement) : Prop :=
  ∃ whole ∈ body, Occurs es s whole

theorem sizeOf_lt_of_mem_statements {s : Statement} {b : Branch} (h : s ∈ b.statements) :
    sizeOf s < sizeOf b := by
  cases b with
  | single body =>
      rw [List.mem_singleton.mp h]
      simp
  | delimited body =>
      have hlt : sizeOf s < sizeOf body := List.sizeOf_lt_of_mem h
      simp only [Branch.delimited.sizeOf_spec]
      omega

theorem sizeOf_lt_of_mem_parts {e : Enclosure} {s whole : Statement} (h : (e, s) ∈ whole.parts) :
    sizeOf s < sizeOf whole := by
  have hmem {e' : Enclosure} {body : List Statement} (h : (e, s) ∈ body.map (e', ·)) :
      s ∈ body := by
    obtain ⟨s', hs, heq⟩ := List.mem_map.mp h
    exact (Prod.mk.inj heq).2 ▸ hs
  cases whole with
  | block body =>
      have := List.sizeOf_lt_of_mem (hmem h)
      simp only [block.sizeOf_spec]
      omega
  | conditional first alternates =>
      obtain ⟨b, hb, h⟩ := List.mem_flatMap.mp h
      have := sizeOf_lt_of_mem_statements (hmem h)
      have := List.sizeOf_lt_of_mem hb
      simp only [conditional.sizeOf_spec, List.cons.sizeOf_spec] at *
      omega
  | loop kind body =>
      have := sizeOf_lt_of_mem_statements (hmem h)
      simp only [loop.sizeOf_spec]
      omega
  | doWhile body =>
      rw [(Prod.mk.inj (List.mem_singleton.mp h)).2]
      simp
  | switch cases =>
      obtain ⟨body, hb, h⟩ := List.mem_flatMap.mp h
      have := List.sizeOf_lt_of_mem (hmem h)
      have := List.sizeOf_lt_of_mem hb
      simp only [switch.sizeOf_spec]
      omega
  | tryCatch tried catches last? =>
      simp only [tryCatch.sizeOf_spec]
      rcases List.mem_append.mp h with h | h
      · rcases List.mem_append.mp h with h | h
        · have := List.sizeOf_lt_of_mem (hmem h)
          omega
        · obtain ⟨⟨hint, bound?, body⟩, hc, h⟩ := List.mem_flatMap.mp h
          have := List.sizeOf_lt_of_mem (hmem h)
          have := List.sizeOf_lt_of_mem hc
          simp only [Catch.mk.sizeOf_spec] at *
          omega
      · cases last? with
        | none => exact absurd h List.not_mem_nil
        | some last =>
            have : sizeOf s < sizeOf last := List.sizeOf_lt_of_mem (hmem h)
            simp only [Option.some.sizeOf_spec]
            omega
  | declare body =>
      have := sizeOf_lt_of_mem_statements (hmem h)
      simp only [declare.sizeOf_spec]
      omega
  | namespaced body =>
      have := List.sizeOf_lt_of_mem (hmem h)
      simp only [namespaced.sizeOf_spec]
      omega
  | expression e => exact absurd h List.not_mem_nil
  | classLike declaration => exact absurd h List.not_mem_nil
  | other => exact absurd h List.not_mem_nil

end Statement

end Php

namespace ThrowTree

open Php Php.Statement

theorem sitesOfAll_eq_flatMap (ts : List ThrowTree) : sitesOfAll ts = ts.flatMap sites := by
  induction ts with
  | nil => rfl
  | cons t ts ih => rw [sitesOfAll, ih, List.flatMap_cons]

theorem sitesOfBranches_eq_flatMap (bs : List (List ThrowTree)) :
    sitesOfBranches bs = bs.flatMap sitesOfAll := by
  induction bs with
  | nil => rfl
  | cons b bs ih => rw [sitesOfBranches, ih, List.flatMap_cons]

theorem ofStatements_eq_map (body : List Statement) : ofStatements body = body.map ofStatement := by
  induction body with
  | nil => rfl
  | cons s ss ih => rw [ofStatements, ih, List.map_cons]

theorem ofBranch_eq_map (b : Branch) : ofBranch b = b.statements.map ofStatement := by
  cases b with
  | single body => rfl
  | delimited body => exact ofStatements_eq_map body

theorem ofBranches_eq_map (bs : List Branch) : ofBranches bs = bs.map ofBranch := by
  induction bs with
  | nil => rfl
  | cons b bs ih => rw [ofBranches, ih, List.map_cons]

def sitesOf (body : List Statement) : List ThrowSite :=
  body.flatMap fun s => (ofStatement s).sites

theorem sitesOfAll_ofStatements (body : List Statement) :
    sitesOfAll (ofStatements body) = sitesOf body := by
  rw [sitesOfAll_eq_flatMap, ofStatements_eq_map, List.flatMap_map]
  rfl

theorem sitesOfAll_ofBranch (b : Branch) : sitesOfAll (ofBranch b) = sitesOf b.statements := by
  rw [sitesOfAll_eq_flatMap, ofBranch_eq_map, List.flatMap_map]
  rfl

theorem sitesOfBranches_ofBranches (bs : List Branch) :
    sitesOfBranches (ofBranches bs) = bs.flatMap fun b => sitesOf b.statements := by
  simp only [sitesOfBranches_eq_flatMap, ofBranches_eq_map, List.flatMap_map, sitesOfAll_ofBranch]

def sitesOfPart (p : Enclosure × Statement) : List ThrowSite :=
  if p.1.isSearched then (ofStatement p.2).sites.map p.1.around else []

theorem flatMap_sitesOfPart {e : Enclosure} (hs : e.isSearched = true) (body : List Statement) :
    (body.map (e, ·)).flatMap sitesOfPart = (sitesOf body).map e.around := by
  simp [sitesOf, sitesOfPart, hs, List.flatMap_map, List.map_flatMap]

theorem flatMap_sitesOfPart_plain {e : Enclosure} (hs : e.isSearched = true)
    (hh : e.handler? = none) (body : List Statement) :
    (body.map (e, ·)).flatMap sitesOfPart = sitesOf body := by
  rw [flatMap_sitesOfPart hs, funext (Enclosure.around_eq_self hh), List.map_id']

theorem flatMap_sitesOfPart_skipped {e : Enclosure} (hs : e.isSearched = false)
    (body : List Statement) : (body.map (e, ·)).flatMap sitesOfPart = [] := by
  simp [sitesOfPart, hs, List.flatMap_map]

theorem sitesOfHandlers_ofCatches (cs : List Catch) :
    sitesOfHandlers (ofCatches cs) = (cs.flatMap Catch.parts).flatMap sitesOfPart := by
  induction cs with
  | nil => rfl
  | cons c cs ih =>
      obtain ⟨hint, bound?, body⟩ := c
      rw [ofCatches, sitesOfHandlers, ih, sitesOfAll_ofStatements, List.flatMap_cons,
        List.flatMap_append, Catch.parts, flatMap_sitesOfPart rfl]
      rfl

theorem sites_ofStatement {s : Statement} (h : ∀ e, s ≠ .expression (.throw e)) :
    (ofStatement s).sites = s.parts.flatMap sitesOfPart := by
  cases s with
  | expression e =>
      cases e with
      | throw thrown => exact absurd rfl (h thrown)
      | _ => rfl
  | block body =>
      rw [ofStatement, sites, sitesOfAll_ofStatements, parts, flatMap_sitesOfPart_plain rfl rfl]
  | conditional first alternates =>
      rw [ofStatement, sites, sitesOfAll_ofBranch, sitesOfBranches_ofBranches, parts,
        List.flatMap_assoc]
      simp only [flatMap_sitesOfPart_plain (e := .branch) rfl rfl, List.flatMap_cons]
  | loop kind body =>
      rw [ofStatement, sites, sitesOfAll_ofBranch, parts, flatMap_sitesOfPart_plain rfl rfl]
  | doWhile body =>
      rw [ofStatement, sites, sitesOfAll_eq_flatMap]
      exact (flatMap_sitesOfPart_plain rfl rfl [body]).symm
  | switch cases =>
      rw [parts, List.flatMap_assoc]
      simp only [flatMap_sitesOfPart_skipped (e := .switchCase) rfl]
      simp [ofStatement, sites]
  | tryCatch tried catches last? =>
      have hsites : (ofStatement (.tryCatch tried catches last?)).sites =
          sitesOf tried ++ sitesOfHandlers (ofCatches catches) ++ sitesOf (last?.getD []) := by
        cases last? <;> simp [ofStatement, sites, sitesOfAll_ofStatements, sitesOfAll, sitesOf]
      rw [hsites, sitesOfHandlers_ofCatches, parts, List.flatMap_append, List.flatMap_append,
        flatMap_sitesOfPart_plain rfl rfl, flatMap_sitesOfPart_plain rfl rfl]
  | declare body =>
      rw [parts, flatMap_sitesOfPart_skipped rfl]
      rfl
  | namespaced body =>
      rw [parts, flatMap_sitesOfPart_skipped rfl]
      rfl
  | classLike declaration => rfl
  | other => rfl

theorem mem_sites_step {s : Statement} {t : ThrowSite} :
    t ∈ (ofStatement s).sites ↔
      (∃ thrown, s = .expression (.throw thrown) ∧ t = ⟨raised thrown, []⟩) ∨
        ∃ e part, (e, part) ∈ s.parts ∧ e.isSearched = true ∧
          ∃ t' ∈ (ofStatement part).sites, t = e.around t' := by
  by_cases hs : ∃ thrown, s = .expression (.throw thrown)
  · obtain ⟨thrown, rfl⟩ := hs
    simp [ofStatement, sites, parts]
  · rw [sites_ofStatement fun e he => hs ⟨e, he⟩]
    simp only [List.mem_flatMap, sitesOfPart, Prod.exists]
    constructor
    · rintro ⟨e, part, hp, ht⟩
      split at ht
      · next hsearched =>
          obtain ⟨t', ht', rfl⟩ := List.mem_map.mp ht
          exact .inr ⟨e, part, hp, hsearched, t', ht', rfl⟩
      · exact absurd ht List.not_mem_nil
    · rintro (⟨thrown, he, -⟩ | ⟨e, part, hp, hsearched, t', ht', rfl⟩)
      · exact absurd ⟨thrown, he⟩ hs
      · refine ⟨e, part, hp, ?_⟩
        rw [if_pos hsearched]
        exact List.mem_map_of_mem ht'

def siteUnder (es : List Enclosure) (thrown : Expression) : ThrowSite :=
  ⟨raised thrown, es.filterMap Enclosure.handler?⟩

theorem around_siteUnder (e : Enclosure) (es : List Enclosure) (thrown : Expression) :
    e.around (siteUnder es thrown) = siteUnder (es ++ [e]) thrown := by
  cases h : e.handler? <;> simp [Enclosure.around, siteUnder, h]

theorem mem_sites_of_occurs {es : List Enclosure} {thrown : Expression} {s : Statement}
    (ho : Occurs es (.expression (.throw thrown)) s) (hes : ∀ e ∈ es, e.isSearched = true) :
    siteUnder es thrown ∈ (ofStatement s).sites := by
  -- The chain grows at its outer end, and so does the list of handlers around the site.
  generalize hw : Statement.expression (.throw thrown) = t at ho
  induction ho with
  | here s =>
      subst hw
      exact mem_sites_step.mpr (.inl ⟨thrown, rfl, rfl⟩)
  | @inside e es s part whole hp ho ih =>
      have hpart := ih (fun e' he => hes e' (by simp [he])) hw
      refine mem_sites_step.mpr (.inr ⟨e, part, hp, hes e (by simp), _, hpart, ?_⟩)
      rw [around_siteUnder]

theorem occurs_of_mem_sites {s : Statement} {t : ThrowSite} (h : t ∈ (ofStatement s).sites) :
    ∃ es thrown, Occurs es (.expression (.throw thrown)) s ∧ (∀ e ∈ es, e.isSearched = true) ∧
      t = siteUnder es thrown := by
  rcases mem_sites_step.mp h with ⟨thrown, rfl, rfl⟩ | ⟨e, part, hp, hsearched, t', ht', rfl⟩
  · exact ⟨[], thrown, .here _, by simp, rfl⟩
  · -- A part is smaller than the whole, which ends the recursion.
    have hlt := sizeOf_lt_of_mem_parts hp
    obtain ⟨es, thrown, ho, hes, rfl⟩ := occurs_of_mem_sites ht'
    refine ⟨es ++ [e], thrown, .inside hp ho, ?_, around_siteUnder e es thrown⟩
    intro e' he
    rcases List.mem_append.mp he with he | he
    · exact hes e' he
    · rw [List.mem_singleton.mp he]
      exact hsearched
termination_by sizeOf s

theorem mem_sitesOf_iff {body : List Statement} {t : ThrowSite} :
    t ∈ sitesOf body ↔
      ∃ es thrown, OccursIn es (.expression (.throw thrown)) body ∧
        (∀ e ∈ es, e.isSearched = true) ∧ t = siteUnder es thrown := by
  constructor
  · intro h
    obtain ⟨s, hs, ht⟩ := List.mem_flatMap.mp h
    obtain ⟨es, thrown, ho, hes, rfl⟩ := occurs_of_mem_sites ht
    exact ⟨es, thrown, ⟨s, hs, ho⟩, hes, rfl⟩
  · rintro ⟨es, thrown, ⟨s, hs, ho⟩, hes, rfl⟩
    exact List.mem_flatMap.mpr ⟨s, hs, mem_sites_of_occurs ho hes⟩

theorem mem_names_siteUnder {es : List Enclosure} {thrown : Expression} {name : String} :
    name ∈ (siteUnder es thrown).names ↔
      thrown = .instance name ∨
        ∃ v h, thrown = .variable v ∧ Enclosure.boundBy? es v = some h ∧ name ∈ h.types := by
  match thrown with
  | .instance c => simp [siteUnder, raised, ThrowSite.names, eq_comm]
  | .variable v =>
      have hnames : (siteUnder es (.variable v)).names =
          (Enclosure.boundBy? es v).elim [] Handler.types := rfl
      rw [hnames]
      cases hb : Enclosure.boundBy? es v <;> simp [hb]
  | .name text => simp [siteUnder, raised, ThrowSite.names]
  | .throw inner => simp [siteUnder, raised, ThrowSite.names]
  | .other => simp [siteUnder, raised, ThrowSite.names]

theorem mem_throwsOf {body : List ThrowTree} {name : String} :
    name ∈ throwsOf body ↔ ∃ t ∈ sitesOfAll body, name ∈ t.names := by
  simp [throwsOf, ThrowWalk.visitAll_eq, ThrowWalk.found_addAll, ThrowSite.namesUnder_nil]

end ThrowTree

namespace Method

open Php Php.Statement

theorem mem_throws_iff (m : Method) (name : String) :
    name ∈ m.signature.throws ↔
      ∃ body, m.body? = some body ∧ ∃ es : List Enclosure, (∀ e ∈ es, e.isSearched = true) ∧
        (OccursIn es (.expression (.throw (.instance name))) body ∨
          ∃ v h, OccursIn es (.expression (.throw (.variable v))) body ∧
            Enclosure.boundBy? es v = some h ∧ name ∈ h.types) := by
  cases hb : m.body? with
  | none => simp [signature, hb]
  | some body =>
      have hthrows : m.signature.throws = throwsOf (ThrowTree.ofStatements body) := by
        simp [signature, hb]
      rw [hthrows, ThrowTree.mem_throwsOf, ThrowTree.sitesOfAll_ofStatements]
      simp only [ThrowTree.mem_sitesOf_iff]
      constructor
      · rintro ⟨t, ⟨es, thrown, ho, hes, rfl⟩, hn⟩
        refine ⟨body, rfl, es, hes, ?_⟩
        rcases ThrowTree.mem_names_siteUnder.mp hn with rfl | ⟨v, h, rfl, hbound, hn⟩
        · exact .inl ho
        · exact .inr ⟨v, h, ho, hbound, hn⟩
      · rintro ⟨body', hb', es, hes, ho⟩
        obtain rfl := Option.some.inj hb'
        rcases ho with ho | ⟨v, h, ho, hbound, hn⟩
        · exact ⟨_, ⟨es, _, ho, hes, rfl⟩, ThrowTree.mem_names_siteUnder.mpr (.inl rfl)⟩
        · exact ⟨_, ⟨es, _, ho, hes, rfl⟩,
            ThrowTree.mem_names_siteUnder.mpr (.inr ⟨v, h, rfl, hbound, hn⟩)⟩

theorem throws_of_switch :
    let body : List Statement := [.switch [[.expression (.throw (.instance "B"))]]]
    OccursIn [.switchCase] (.expression (.throw (.instance "B"))) body ∧
      (Method.mk "f" [] none (some body)).signature.throws = [] := by
  intro body
  have ho : Occurs ([] ++ [.switchCase]) (.expression (.throw (.instance "B")))
      (.switch [[.expression (.throw (.instance "B"))]]) :=
    .inside (List.mem_singleton_self _) (.here _)
  exact ⟨⟨_, List.mem_singleton_self _, ho⟩, by decide⟩

end Method

end Scaffold
