import Scaffold.Proofs.DeclaredClasses
/-!
Names and types in a syntax tree: whatever the source is, those of class-likes and of their members
are never empty and hold no blanks.
-/
namespace Scaffold.Php

open Reader Grammar

def Hint.Solid : Hint → Prop
  | named t => IsSolid t.toList
  | nullable h => h.Solid
  | union l r => l.Solid ∧ r.Solid
  | intersection l r => l.Solid ∧ r.Solid
  | group h => h.Solid

def Parameter.Solid (p : Parameter) : Prop :=
  IsSolid p.name.toList ∧ ∀ h ∈ p.hint, h.Solid

def Member.Solid : Member → Prop
  | method name ps returns _ =>
      IsSolid name.toList ∧ (∀ p ∈ ps, p.Solid) ∧ ∀ h ∈ returns, h.Solid
  | property name hint => IsSolid name.toList ∧ ∀ h ∈ hint, h.Solid
  | constant name hint => IsSolid name.toList ∧ ∀ h ∈ hint, h.Solid
  | other => True

def ClassLike.Solid (c : ClassLike) : Prop :=
  IsSolid c.name.toList ∧ ∀ m ∈ c.members, m.Solid

namespace Grammar

variable {source : List Char}

theorem spells_of_startsHint {k : Kind} (h : startsHint k = true)
    (hq : k ≠ .mark .question) (hp : k ≠ .mark .openParen) {cs : List Char} (hs : k.Spells cs) :
    IsSolid cs := by
  unfold startsHint at h
  split at h
  · exact absurd rfl hq
  · exact absurd rfl hp
  · exact hs
  · exact hs
  · exact hs
  · exact absurd h (by simp)

theorem yields_joined {n : Nat} (h : Yields (Item.IsOf source) Hint.Solid (hintFrom n))
    {left : Hint} (hl : left.Solid) : Yields (Item.IsOf source) Hint.Solid (hintFrom.joined n left) := by
  unfold hintFrom.joined
  refine yields_then fun k? => ?_
  split
  · exact yields_then fun _ => yields_bind h fun right hr => yields_pure ⟨hl, hr⟩
  · refine yields_then fun second => ?_
    split
    · exact yields_pure hl
    · exact yields_then fun _ => yields_bind h fun right hr => yields_pure ⟨hl, hr⟩
  · exact yields_pure hl

theorem yields_hintFrom (n : Nat) : Yields (Item.IsOf source) Hint.Solid (hintFrom n) := by
  induction n with
  | zero =>
      unfold hintFrom
      exact yields_fail
  | succ n ih =>
      unfold hintFrom
      refine yields_peek yields_fail fun k => ?_
      split
      · refine Yields.at ?_ _
        exact yields_then fun _ => yields_bind ih fun inner hi => yields_pure hi
      · refine Yields.at ?_ _
        exact yields_then fun _ => yields_bind ih fun inner hi =>
          yields_then fun _ => yields_joined ih hi
      · next hq hp heq =>
          cases heq
          split
          · next hstart =>
              refine yieldsAt_advance fun t hk hs => yields_joined ih ?_
              exact spells_of_startsHint hstart (by simpa using hq) (by simpa using hp) (hk ▸ hs.1)
          · exact yields_fail.at _
      · exact yields_fail.at k

theorem yields_hint : Yields (Item.IsOf source) Hint.Solid hint :=
  yields_rounds yields_hintFrom

theorem yields_hint? : Yields (Item.IsOf source) (fun h? => ∀ h ∈ h?, Hint.Solid h) hint? := by
  unfold hint?
  refine yields_then fun k? => ?_
  split
  · split
    · exact yields_bind yields_hint fun h hh => yields_pure (by simpa using hh)
    · exact yields_pure (by simp)
  · exact yields_pure (by simp)

theorem yields_returns? :
    Yields (Item.IsOf source) (fun h? => ∀ h ∈ h?, Hint.Solid h) returns? := by
  unfold returns?
  refine yields_then fun colon => ?_
  split
  · exact yields_bind yields_hint fun h hh => yields_pure (by simpa using hh)
  · exact yields_pure (by simp)

theorem isSolid_bareName {t : Token} (h : t.kind = .variable ∧ Item.IsOf source (.token t)) :
    IsSolid (bareName t).toList := by
  obtain ⟨hkind, hspells, -⟩ := h
  rw [hkind] at hspells
  rw [bareName, String.toList_ofList]
  exact hspells

theorem yields_parameter (r : Rules) (n : Nat) :
    Yields (Item.IsOf source) Parameter.Solid (parameter r n) := by
  cases n with
  | zero =>
      unfold parameter
      exact yields_fail
  | succ n =>
      unfold parameter
      refine yields_then fun _ => yields_then fun _ => yields_bind yields_hint? fun h? hh => ?_
      refine yields_then fun _ => yields_then fun _ => yields_bind (yields_eat _) fun v hv => ?_
      have hp : Parameter.Solid ⟨bareName v, h?⟩ := ⟨isSolid_bareName hv, hh⟩
      refine yields_then fun assigned => ?_
      dsimp only
      split
      · refine yields_then fun _ => yields_then fun k? => ?_
        split
        · exact yields_then fun _ => yields_pure hp
        · exact yields_pure hp
      · refine yields_then fun k? => ?_
        split
        · exact yields_then fun _ => yields_pure hp
        · exact yields_pure hp

theorem yields_parameters (r : Rules) :
    Yields (Item.IsOf source) (fun ps => ∀ p ∈ ps, Parameter.Solid p) (parameters r) :=
  yields_then fun n => yields_listed (yields_parameter r n) _ _

theorem yields_method (r : Rules) : Yields (Item.IsOf source) Member.Solid (method r) := by
  refine yields_then fun _ => yields_then fun _ => yields_bind yields_anyName fun name hn => ?_
  refine yields_bind (yields_parameters r) fun ps hps => ?_
  refine yields_bind yields_returns? fun returns hr => yields_then fun k? => ?_
  split
  · exact yields_then fun _ => yields_pure ⟨hn, hps, hr⟩
  · exact yields_then fun body => yields_pure ⟨hn, hps, hr⟩

theorem yields_constantItem (r : Rules) :
    Yields (Item.IsOf source) (fun name => IsSolid name.toList) (constantItem r) :=
  yields_bind yields_anyName fun _ hn => yields_then fun _ => yields_then fun _ => yields_pure hn

theorem solid_firstConstant {h? : Option Hint} (hh : ∀ h ∈ h?, h.Solid) {names : List String}
    (hn : ∀ name ∈ names, IsSolid name.toList) : (firstConstant h? names).Solid := by
  cases names with
  | nil => exact trivial
  | cons name names => exact ⟨hn name List.mem_cons_self, hh⟩

theorem yields_constants (r : Rules) : Yields (Item.IsOf source) Member.Solid (constants r) := by
  have hnamed (h? : Option Hint) (hh : ∀ h ∈ h?, h.Solid) :
      Yields (Item.IsOf source) Member.Solid (do
      let names ← rounds (separatedUntil isTerminator (constantItem r))
      terminator
      pure (firstConstant h? names)) :=
    yields_bind (yields_rounds (yields_separatedUntil (yields_constantItem r) _))
      fun _ hnames => yields_then fun _ => yields_pure (solid_firstConstant hh hnames)
  refine yields_then fun _ => yields_then fun second => ?_
  dsimp only
  split
  · exact hnamed none (by simp)
  · exact yields_bind (yields_some yields_hint) hnamed

theorem yields_enumCase (r : Rules) : Yields (Item.IsOf source) Member.Solid (enumCase r) := by
  refine yields_then fun _ => yields_then fun _ => yields_then fun assigned => ?_
  dsimp only
  split
  · exact yields_then fun _ => yields_then fun _ => yields_pure trivial
  · exact yields_then fun _ => yields_pure trivial

theorem yields_traitUse : Yields (Item.IsOf source) Member.Solid traitUse := by
  refine yields_then fun _ => yields_then fun _ => yields_then fun k? => ?_
  split
  · exact yields_then fun _ => yields_then fun _ => yields_then fun _ => yields_pure trivial
  · exact yields_then fun _ => yields_pure trivial

theorem yields_propertyItem (r : Rules) :
    Yields (Item.IsOf source) (fun name => IsSolid name.toList) (propertyItem r) := by
  refine yields_bind (yields_eat _) fun v hv => yields_then fun assigned => ?_
  dsimp only
  split
  · exact yields_then fun _ => yields_pure (isSolid_bareName hv)
  · exact yields_pure (isSolid_bareName hv)

theorem yields_property (r : Rules) : Yields (Item.IsOf source) Member.Solid (property r) := by
  refine yields_then fun _ => yields_bind yields_hint? fun h? hh => ?_
  refine yields_bind (yields_propertyItem r) fun name hn => yields_then fun k? => ?_
  dsimp only
  split
  · exact yields_then fun _ => yields_then fun _ => yields_pure ⟨hn, hh⟩
  · exact yields_then fun _ => yields_then fun _ => yields_then fun _ => yields_pure ⟨hn, hh⟩
  · exact yields_then fun _ => yields_pure ⟨hn, hh⟩

theorem yields_member (r : Rules) : Yields (Item.IsOf source) Member.Solid (member r) := by
  refine yields_then fun k? => ?_
  split
  · exact yields_traitUse
  · refine yields_then fun _ => yields_then fun k? => ?_
    split
    · exact yields_enumCase r
    · refine yields_then fun _ => yields_then fun k? => ?_
      split
      · exact yields_constants r
      · exact yields_method r
      · exact yields_property r

theorem yields_classBody (r : Rules) :
    Yields (Item.IsOf source) (fun body => ∀ m ∈ body.1, Member.Solid m) (classBody r) :=
  yields_then fun _ =>
    yields_bind (yields_rounds (yields_recovering (yields_member r) _ _)) fun _ hms =>
      yields_then fun _ => yields_pure hms

theorem yields_classLike (r : Rules) (start : Nat) (mods : List Keyword) :
    Yields (Item.IsOf source) (Statement.Declares ClassLike.Solid) (classLike r start mods) := by
  refine yields_then fun word => yields_bind yields_anyName fun name hn => yields_then fun _ => ?_
  refine yields_bind (yields_classBody r) fun body hms => yields_pure ?_
  intro c hc
  obtain rfl := List.mem_singleton.mp hc
  exact ⟨hn, hms⟩

end Grammar

theorem Program.solid_parse (source : String) :
    ∀ c ∈ declaredClasses (Program.parse source).statements, c.Solid :=
  Program.forall_declaredClasses yields_classLike

end Scaffold.Php
