import Scaffold.Proofs.Distinct
import Scaffold.ThrowTree
/-!
What a body throws, told without a walk: its throws in the order of the source, each with the
handlers around it. A variable stands for the types of the innermost of them that binds it. A walk
finds these names, each at its first throw, and leaves the bindings as it found them.
-/
namespace Scaffold

structure Handler where
  types : List String
  bound? : Option String
  deriving DecidableEq, Repr

structure ThrowSite where
  target : Raised
  /-- Innermost first. -/
  handlers : List Handler
  deriving DecidableEq, Repr

namespace ThrowSite

def inside (h : Handler) (t : ThrowSite) : ThrowSite :=
  { t with handlers := t.handlers ++ [h] }

def names (t : ThrowSite) : List String :=
  match t.target with
  | .new name => [name]
  | .variable v => (t.handlers.find? fun h => h.bound? == some v).elim [] Handler.types
  | .unknown => []

end ThrowSite

namespace ThrowTree

mutual

def sites : ThrowTree → List ThrowSite
  | .throw target => [⟨target, []⟩]
  | .block body => sitesOfAll body
  | .conditional first alternates => sitesOfAll first ++ sitesOfBranches alternates
  | .tryCatch tried handlers last =>
      sitesOfAll tried ++ sitesOfHandlers handlers ++ sitesOfAll last
  | .other => []

def sitesOfAll : List ThrowTree → List ThrowSite
  | [] => []
  | t :: ts => sites t ++ sitesOfAll ts

def sitesOfBranches : List (List ThrowTree) → List ThrowSite
  | [] => []
  | b :: bs => sitesOfAll b ++ sitesOfBranches bs

def sitesOfHandlers : List (List String × Option String × List ThrowTree) → List ThrowSite
  | [] => []
  | (types, bound?, body) :: hs =>
      (sitesOfAll body).map (ThrowSite.inside ⟨types, bound?⟩) ++ sitesOfHandlers hs

end

end ThrowTree

namespace Handler

def binding? (h : Handler) : Option (String × List String) :=
  h.bound?.map fun v => (v, h.types)

theorem lookup_binding? (hs : List Handler) (v : String) :
    (hs.filterMap binding?).lookup v =
      (hs.find? fun h => h.bound? == some v).map Handler.types := by
  induction hs with
  | nil => rfl
  | cons h hs ih =>
      obtain ⟨types, bound?⟩ := h
      rw [List.filterMap_cons]
      cases bound? with
      | none => simpa [binding?] using ih
      | some u =>
          by_cases hu : v = u
          · simp [binding?, hu]
          · have hne : (v == u) = false := beq_eq_false_iff_ne.mpr hu
            simpa [binding?, List.lookup_cons, hne, Ne.symm hu] using ih

end Handler

namespace ThrowSite

def namesUnder (bindings : List (String × List String)) (t : ThrowSite) : List String :=
  match t.target with
  | .new name => [name]
  | .variable v => ((t.handlers.filterMap Handler.binding? ++ bindings).lookup v).getD []
  | .unknown => []

theorem namesUnder_nil (t : ThrowSite) : t.namesUnder [] = t.names := by
  obtain ⟨target, handlers⟩ := t
  match target with
  | .new name => rfl
  | .unknown => rfl
  | .variable v =>
      simp only [namesUnder, names, List.append_nil, Handler.lookup_binding?]
      cases handlers.find? fun h => h.bound? == some v <;> rfl

theorem namesUnder_inside (bindings : List (String × List String)) (h : Handler) (t : ThrowSite) :
    (t.inside h).namesUnder bindings = t.namesUnder (h.binding?.toList ++ bindings) := by
  have hlist : [h].filterMap Handler.binding? = h.binding?.toList := by
    cases hb : h.binding? <;> simp [hb]
  simp only [namesUnder, inside, List.filterMap_append, hlist, List.append_assoc]

end ThrowSite

namespace ThrowWalk

def addAll (w : ThrowWalk) (names : List String) : ThrowWalk :=
  names.foldl add w

theorem addAll_append (w : ThrowWalk) (ns ms : List String) :
    w.addAll (ns ++ ms) = (w.addAll ns).addAll ms :=
  List.foldl_append

theorem bindings_add (w : ThrowWalk) (name : String) : (w.add name).bindings = w.bindings := by
  unfold add
  split <;> rfl

@[simp] theorem bindings_addAll (w : ThrowWalk) (names : List String) :
    (w.addAll names).bindings = w.bindings := by
  induction names generalizing w with
  | nil => rfl
  | cons n ns ih => exact (ih (w.add n)).trans (bindings_add w n)

theorem unbind_addAll_bind (w : ThrowWalk) (v : String) (types names : List String) :
    ((w.bind v types).addAll names).unbind = w.addAll names := by
  -- Adding a name does not look at the bindings.
  have hadd (w : ThrowWalk) (n : String) : (w.bind v types).add n = (w.add n).bind v types := by
    unfold add bind
    dsimp only
    split <;> rfl
  induction names generalizing w with
  | nil => rfl
  | cons n ns ih =>
      have ih := ih (w.add n)
      rwa [← hadd] at ih

theorem found_eq_foldl (w : ThrowWalk) (names : List String) :
    (w.addAll names).found = names.foldl appendNew w.found := by
  induction names generalizing w with
  | nil => rfl
  | cons n ns ih =>
      have hadd : (w.add n).found = appendNew w.found n := by
        unfold add appendNew
        split <;> rfl
      exact (ih (w.add n)).trans (by rw [hadd, List.foldl_cons])

theorem found_addAll (w : ThrowWalk) (names : List String) :
    (w.addAll names).found = w.found ++ (names.removeAll w.found).eraseDups := by
  rw [found_eq_foldl, foldl_appendNew]

theorem nodup_addAll {w : ThrowWalk} (h : w.found.Nodup) (names : List String) :
    (w.addAll names).found.Nodup := by
  rw [found_eq_foldl]
  exact nodup_foldl_appendNew h names

theorem raise_eq (w : ThrowWalk) (target : Raised) :
    w.raise target = w.addAll (ThrowSite.namesUnder w.bindings ⟨target, []⟩) := by
  match target with
  | .new name => rfl
  | .variable v => rfl
  | .unknown => rfl

mutual

theorem visit_eq (w : ThrowWalk) : (t : ThrowTree) →
    w.visit t = w.addAll (t.sites.flatMap (ThrowSite.namesUnder w.bindings))
  | .throw target => by
      simp [visit, ThrowTree.sites, raise_eq]
  | .block body => by
      rw [visit, visitAll_eq w body, ThrowTree.sites]
  | .conditional first alternates => by
      rw [visit, visitAll_eq w first, visitBranches_eq _ alternates, bindings_addAll,
        ← addAll_append, ThrowTree.sites, List.flatMap_append]
  | .tryCatch tried handlers last => by
      rw [visit, visitAll_eq w tried, visitHandlers_eq _ handlers, visitAll_eq _ last]
      simp only [bindings_addAll, ← addAll_append, ThrowTree.sites, List.flatMap_append,
        List.append_assoc]
  | .other => rfl

theorem visitAll_eq (w : ThrowWalk) : (ts : List ThrowTree) →
    w.visitAll ts = w.addAll ((ThrowTree.sitesOfAll ts).flatMap (ThrowSite.namesUnder w.bindings))
  | [] => rfl
  | t :: ts => by
      rw [visitAll, visit_eq w t, visitAll_eq _ ts, bindings_addAll, ← addAll_append,
        ThrowTree.sitesOfAll, List.flatMap_append]

theorem visitBranches_eq (w : ThrowWalk) : (bs : List (List ThrowTree)) →
    w.visitBranches bs =
      w.addAll ((ThrowTree.sitesOfBranches bs).flatMap (ThrowSite.namesUnder w.bindings))
  | [] => rfl
  | b :: bs => by
      rw [visitBranches, visitAll_eq w b, visitBranches_eq _ bs, bindings_addAll, ← addAll_append,
        ThrowTree.sitesOfBranches, List.flatMap_append]

theorem visitHandlers_eq (w : ThrowWalk) :
    (hs : List (List String × Option String × List ThrowTree)) →
    w.visitHandlers hs =
      w.addAll ((ThrowTree.sitesOfHandlers hs).flatMap (ThrowSite.namesUnder w.bindings))
  | [] => rfl
  | (types, some v, body) :: hs => by
      rw [visitHandlers, visitAll_eq _ body, unbind_addAll_bind, visitHandlers_eq _ hs,
        bindings_addAll, ← addAll_append, ThrowTree.sitesOfHandlers, List.flatMap_append,
        List.flatMap_map]
      simp only [ThrowSite.namesUnder_inside]
      rfl
  | (types, none, body) :: hs => by
      rw [visitHandlers, visitAll_eq _ body, visitHandlers_eq _ hs, bindings_addAll,
        ← addAll_append, ThrowTree.sitesOfHandlers, List.flatMap_append, List.flatMap_map]
      simp only [ThrowSite.namesUnder_inside]
      rfl

end

structure KeepsBindings (w : ThrowWalk) : Prop where
  visit : ∀ t, (w.visit t).bindings = w.bindings
  visitAll : ∀ ts, (w.visitAll ts).bindings = w.bindings
  visitBranches : ∀ bs, (w.visitBranches bs).bindings = w.bindings
  visitHandlers : ∀ hs, (w.visitHandlers hs).bindings = w.bindings

theorem keepsBindings (w : ThrowWalk) : w.KeepsBindings where
  visit t := by rw [visit_eq, bindings_addAll]
  visitAll ts := by rw [visitAll_eq, bindings_addAll]
  visitBranches bs := by rw [visitBranches_eq, bindings_addAll]
  visitHandlers hs := by rw [visitHandlers_eq, bindings_addAll]

end ThrowWalk

theorem throwsOf_eq_eraseDups (body : List ThrowTree) :
    throwsOf body = ((ThrowTree.sitesOfAll body).flatMap ThrowSite.names).eraseDups ∧
      (throwsOf body).Nodup ∧ ∀ w : ThrowWalk, w.KeepsBindings := by
  have hwalk : ThrowWalk.visitAll {} body =
      ThrowWalk.addAll {} ((ThrowTree.sitesOfAll body).flatMap ThrowSite.names) := by
    rw [ThrowWalk.visitAll_eq]
    congr 2
    funext t
    exact t.namesUnder_nil
  refine ⟨?_, ?_, ThrowWalk.keepsBindings⟩
  · rw [throwsOf, hwalk, ThrowWalk.found_addAll]
    simp
  · rw [throwsOf, hwalk]
    exact ThrowWalk.nodup_addAll List.nodup_nil _

-- The inner handler hides the outer one in its own body only.
example :
    throwsOf [.tryCatch [] [(["A"], some "$e", [.tryCatch [.throw (.variable "$e")]
      [(["B", "A"], some "$e", [.throw (.variable "$e")])] [.throw (.variable "$e")]])]
        [.throw (.variable "$e")]] = ["A", "B"] := by
  decide

end Scaffold
