import Scaffold.Proofs.Recognition
import Scaffold.Proofs.Site
import Scaffold.Proofs.Template
/-!
Whatever a line declares has a name, whether the line can be parsed or not. So there is
documentation for each line that declares something, and there are accessors for each that declares
a property.
-/
namespace Scaffold

open Php Text

theorem Php.IsSolid.ne_empty {s : String} (h : IsSolid s.toList) : s ≠ "" := by
  rintro rfl
  exact h.1 rfl

theorem Php.Program.find_of_locate {α : Type} {p : Program} {what : String}
    {find : List Statement → Option α} {a : α} (h : p.locate what find = .ok a) :
    find p.statements = some a := by
  unfold locate at h
  split at h
  · next hfind =>
      cases h
      exact hfind
  · exact nomatch h

theorem solid_of_memberOfFirst {α : Type} {pick : Member → Option α} {source : String} {a : α}
    (h : memberOfFirst pick (Program.parse source).statements = some a) :
    ∃ m : Member, m.Solid ∧ pick m = some a := by
  obtain ⟨c, hc, hm⟩ := Option.bind_eq_some_iff.mp h
  obtain ⟨m, hmem, hpick⟩ := List.exists_of_findSome?_eq_some hm
  exact ⟨m, (Program.solid_parse source c (List.mem_of_head? hc)).2 m hmem, hpick⟩

theorem ClassSignature.isSolid_ofSite {s : Site} {c : ClassSignature}
    (h : ClassSignature.ofSite s = .ok c) : IsSolid c.name.toList := by
  unfold ClassSignature.ofSite at h
  obtain ⟨found, hhead, rfl⟩ := Option.map_eq_some_iff.mp (Program.find_of_locate h)
  exact (Program.solid_parse _ found (List.mem_of_head? hhead)).1

theorem ConstantSignature.isSolid_ofSite {s : Site} {c : ConstantSignature}
    (h : ConstantSignature.ofSite s = .ok c) : IsSolid c.name.toList := by
  unfold ConstantSignature.ofSite at h
  dsimp only [bind, Except.bind] at h
  split at h
  · exact nomatch h
  · next found hfound =>
      cases h
      obtain ⟨m, hm, hpick⟩ := solid_of_memberOfFirst (Program.find_of_locate hfound)
      split at hpick
      · cases hpick
        exact hm.1
      · exact nomatch hpick

theorem PropertySignature.isSolid_ofSite {s : Site} {p : PropertySignature}
    (h : PropertySignature.ofSite s = .ok p) : IsSolid p.name.toList := by
  unfold PropertySignature.ofSite at h
  dsimp only at h
  obtain ⟨m, hm, hpick⟩ := solid_of_memberOfFirst (Program.find_of_locate h)
  split at hpick
  · cases hpick
    exact hm.1
  · exact nomatch hpick

theorem Method.name_of_named? {name : String} {c : ClassLike} {m : Method}
    (h : named? name c = some m) : m.name = name := by
  obtain ⟨member, -, hpick⟩ := List.exists_of_findSome?_eq_some h
  split at hpick
  · split at hpick
    · next hname =>
        cases hpick
        exact hname
    · exact nomatch hpick
  · exact nomatch hpick

theorem Method.name_of_at? {name : String} {byte : Nat} {statements : List Statement} {m : Method}
    (h : at? name byte statements = some m) : m.name = name := by
  unfold at? at h
  rcases Option.or_eq_some_iff.mp h with h | ⟨-, h⟩
  · obtain ⟨c, -, hc⟩ := Option.bind_eq_some_iff.mp h
    exact name_of_named? hc
  · obtain ⟨c, -, hc⟩ := List.exists_of_findSome?_eq_some h
    exact name_of_named? hc

theorem FunctionSignature.isSolid_ofSite {document : String} {s : Site} {f : FunctionSignature}
    (h : FunctionSignature.ofSite document s = .ok f) : IsSolid f.name.toList := by
  unfold FunctionSignature.ofSite at h
  split at h
  · next name isStatic hline =>
      obtain ⟨m, hm, rfl⟩ := Option.map_eq_some_iff.mp (Program.find_of_locate h)
      have hname : m.signature.name = name := Method.name_of_at? hm
      rw [hname]
      exact Line.isSolid_of_function? hline
  · exact nomatch h

namespace Signature

def kind : Signature → DeclarationKind
  | classLike _ => .classLike
  | constant _ => .constant
  | property _ => .property
  | function _ => .function

inductive Found (document : String) (s : Site) : Signature → Prop where
  | classLike {c : ClassSignature} (h : ClassSignature.ofSite s = .ok c) :
      Found document s (.classLike c)
  | constant {c : ConstantSignature} (h : ConstantSignature.ofSite s = .ok c) :
      Found document s (.constant c)
  | property {p : PropertySignature} (h : PropertySignature.ofSite s = .ok p) :
      Found document s (.property p)
  | function {f : FunctionSignature} (h : FunctionSignature.ofSite document s = .ok f) :
      Found document s (.function f)

theorem found_ofSite {document : String} {s : Site} {kind : DeclarationKind}
    {signature : Signature} (h : ofSite document s kind = .ok signature) :
    Found document s signature ∧ signature.kind = kind := by
  have hmap {α : Type} {e : Except SignatureError α} {f : α → Signature}
      (h : e.map f = .ok signature) : ∃ a, e = .ok a ∧ f a = signature := by
    cases e with
    | error e => exact nomatch h
    | ok a => exact ⟨a, rfl, Except.ok.inj h⟩
  unfold ofSite at h
  cases kind with
  | classLike =>
      obtain ⟨c, hc, rfl⟩ := hmap h
      exact ⟨.classLike hc, rfl⟩
  | constant =>
      obtain ⟨c, hc, rfl⟩ := hmap h
      exact ⟨.constant hc, rfl⟩
  | property =>
      obtain ⟨p, hp, rfl⟩ := hmap h
      exact ⟨.property hp, rfl⟩
  | function =>
      obtain ⟨f, hf, rfl⟩ := hmap h
      exact ⟨.function hf, rfl⟩

theorem Found.isSolid {document : String} {s : Site} {signature : Signature}
    (h : Found document s signature) : IsSolid signature.name.toList := by
  cases h with
  | classLike h => exact ClassSignature.isSolid_ofSite h
  | constant h => exact ConstantSignature.isSolid_ofSite h
  | property h => exact PropertySignature.isSolid_ofSite h
  | function h => exact FunctionSignature.isSolid_ofSite h

end Signature

namespace Site

theorem isSolid_signature {s : Site} {declared : DeclarationLine}
    (h : DeclarationLine.parse? s.text = some declared) (document : String) :
    IsSolid (s.signature document declared).name.toList := by
  unfold signature
  split
  · next hok => exact (Signature.found_ofSite hok).1.isSolid
  · exact DeclarationLine.isSolid_of_parse? h

theorem exists_property? {s : Site} {declared : DeclarationLine}
    (h : DeclarationLine.property? s.text = some declared) :
    ∃ p, s.property? = some p ∧ IsSolid p.name.toList := by
  unfold property?
  split
  · next p hp => exact ⟨p, rfl, PropertySignature.isSolid_ofSite hp⟩
  · have hk := Line.kind_of_property? h
    cases declared with
    | property type? name =>
        rw [h]
        exact ⟨_, rfl, Line.isSolid_of_property? h⟩
    | classLike keyword name => exact nomatch hk
    | constant type? name => exact nomatch hk
    | function name isStatic => exact nomatch hk

end Site

namespace Template

variable {tab : String} {s : Settings}

theorem docBlock_ne_empty (lines : List String) (tab : String) : docBlock lines tab ≠ "" := by
  intro h
  have hends := endsLine_docBlock lines tab
  rw [h] at hends
  exact absurd hends (by decide)

theorem unless_ne_empty {c : Prop} [Decidable c] {t : String} (hc : ¬ c) (ht : t ≠ "") :
    (if c then "" else t) ≠ "" := by
  rwa [if_neg hc]

theorem doc_ne_empty {signature : Signature} (h : signature.name ≠ "") :
    doc signature tab s ≠ "" := by
  rw [doc_eq]
  exact unless_ne_empty h (docBlock_ne_empty _ _)

theorem getter_ne_empty {p : PropertySignature} (h : p.name ≠ "") : getter p tab s ≠ "" := by
  unfold getter
  exact unless_ne_empty h (by simp [String.append_eq_empty_iff])

theorem setter_ne_empty {p : PropertySignature} (h : p.name ≠ "") (className : Option String) :
    setter p tab className s ≠ "" := by
  unfold setter
  exact unless_ne_empty h (by simp [String.append_eq_empty_iff])

end Template

theorem Site.docText_eq_empty_iff (document : String) (s : Site) (settings : Settings) :
    s.docText document settings = "" ↔ DeclarationLine.parse? s.text = none := by
  unfold docText
  cases hp : DeclarationLine.parse? s.text with
  | none => simp
  | some declared => simpa using Template.doc_ne_empty (isSolid_signature hp document).ne_empty

def declaredOn? (document : String) (line : Nat) : Option DeclarationLine :=
  (lines document)[line]?.bind DeclarationLine.parse?

theorem Site.ofLine?_eq_none_iff {document : String} {line : Nat} :
    Site.ofLine? document line = none ↔ (lines document).length ≤ line := by
  unfold Site.ofLine?
  cases h : (lines document)[line]? with
  | none => simpa using h
  | some text => simpa using (List.getElem?_eq_some_iff.mp h).1

theorem docOn_eq_nil {document : String} {line : Nat}
    (h : declaredOn? document line = none) (settings : Settings) :
    docOn settings document line = [] := by
  unfold docOn
  split
  · next s hs =>
      rw [declaredOn?, Site.text_of_ofLine? hs, Option.bind_some] at h
      rw [if_pos ((s.docText_eq_empty_iff document settings).mpr h)]
  · rfl

theorem docOn_eq_singleton {document : String} {line : Nat} {declared : DeclarationLine}
    (h : declaredOn? document line = some declared) (settings : Settings) :
    ∃ s, Site.ofLine? document line = some s ∧ DeclarationLine.parse? s.text = some declared ∧
      docOn settings document line = [⟨line, s.docText document settings⟩] := by
  cases hs : Site.ofLine? document line with
  | none =>
      rw [declaredOn?, List.getElem?_eq_none (Site.ofLine?_eq_none_iff.mp hs)] at h
      exact nomatch h
  | some s =>
      rw [declaredOn?, Site.text_of_ofLine? hs, Option.bind_some] at h
      have hne : s.docText document settings ≠ "" := by
        rw [Ne, s.docText_eq_empty_iff, h]
        simp
      refine ⟨s, rfl, h, ?_⟩
      unfold docOn
      rw [hs]
      exact if_neg hne

theorem startsPropertyAt_of_declaredOn? {document : String} {line : Nat}
    {declared : DeclarationLine} (h : declaredOn? document line = some declared)
    (hk : declared.kind = .property) : startsPropertyAt document line = true := by
  obtain ⟨text, ht, hparse⟩ := Option.bind_eq_some_iff.mp h
  obtain ⟨head, hhead, -⟩ :=
    Option.bind_eq_some_iff.mp (DeclarationLine.property?_of_parse? hparse hk)
  unfold startsPropertyAt startsProperty
  rw [ht]
  simp [hhead]

theorem accessorsOf_ne_nil {p : PropertySignature} (h : p.name ≠ "") (ctx : Context)
    (which : Accessors) (s : Site) : accessorsOf ctx which s p ≠ [] := by
  have hg : Template.getter p s.tab ctx.settings ≠ "" := Template.getter_ne_empty h
  have hs : Template.setter p s.tab s.className ctx.settings ≠ "" :=
    Template.setter_ne_empty h s.className
  cases which with
  | getter => simp [accessorsOf, Accessors.hasGetter, noticed, hg]
  | setter => simp [accessorsOf, Accessors.hasSetter, noticed, hs]
  | both => simp [accessorsOf, Accessors.hasGetter, noticed, hg]

theorem accessorsOn_ne_nil {document : String} {line : Nat} {declared : DeclarationLine}
    (h : declaredOn? document line = some declared) (hk : declared.kind = .property)
    (ctx : Context) (which : Accessors) : accessorsOn ctx which document line ≠ [] := by
  obtain ⟨s, hs, hparse, -⟩ := docOn_eq_singleton h ctx.settings
  obtain ⟨p, hp, hsolid⟩ := s.exists_property? (DeclarationLine.property?_of_parse? hparse hk)
  unfold accessorsOn
  rw [hs]
  dsimp only
  rw [hp]
  exact accessorsOf_ne_nil hsolid.ne_empty ctx which s

end Scaffold
