import Scaffold.Declaration.Lookup
import Scaffold.Proofs.DeclaredClasses
import Scaffold.Proofs.Lines
/-!
Methods of one name in several class-likes. A line finds the method of the class-like that it stands
in, and another one only if that has none. Both ends of a class-like count as covered; still no line
is covered by two that stand side by side, because a closing brace ends each of them and no line
starts right after one.
-/
namespace Scaffold

open Text

/-! Places of a text by their bytes -/

namespace Php

theorem byteSize_eq_zero {cs : List Char} (h : byteSize cs = 0) : cs = [] := by
  by_cases hne : cs = []
  · exact hne
  · exact absurd h (Nat.ne_of_gt (byteSize_pos hne))

theorem eq_of_byteSize_eq {a a' b b' : List Char} (h : a ++ b = a' ++ b')
    (hsize : byteSize a = byteSize a') : a = a' := by
  rcases List.append_eq_append_iff.mp h with ⟨more, rfl, -⟩ | ⟨more, rfl, -⟩
  · rw [byteSize_append] at hsize
    obtain rfl : more = [] := byteSize_eq_zero (by omega)
    rw [List.append_nil]
  · rw [byteSize_append] at hsize
    obtain rfl : more = [] := byteSize_eq_zero (by omega)
    rw [List.append_nil]

/-- No line starts right after a closing brace. -/
theorem byteSize_ne_of_isWhole {a b before after : List Char} (ha : IsWhole a)
    (h : a ++ b = before ++ '\x7d' :: after) : byteSize a ≠ byteSize before + 1 := by
  intro hsize
  have hbrace : byteSize (before ++ ['\x7d']) = byteSize before + 1 := byteSize_append _ _
  rw [List.append_cons] at h
  obtain rfl := eq_of_byteSize_eq h (hsize.trans hbrace.symm)
  rcases ha with hnil | hlast
  · simp at hnil
  · simp at hlast

end Php

theorem utf8ByteSize_ofList (cs : List Char) :
    (String.ofList cs).utf8ByteSize = Php.byteSize cs := by
  induction cs with
  | nil => rfl
  | cons c cs ih =>
      rw [String.ofList_cons, String.utf8ByteSize_append, ih, String.utf8ByteSize_singleton]
      rfl

/-- The lines of a text with a line feed for each have one byte more than the text. -/
theorem byteSize_splitChars (cs : List Char) :
    ((splitChars cs).map String.ofList).foldr (fun l size => l.utf8ByteSize + 1 + size) 0 =
      Php.byteSize cs + 1 := by
  induction cs with
  | nil => rfl
  | cons c cs ih =>
      change _ = c.utf8Size + Php.byteSize cs + 1
      rw [splitChars_cons]
      by_cases hc : c = '\n'
      · rw [if_pos hc, List.map_cons, List.foldr_cons, ih, hc]
        change 0 + 1 + (Php.byteSize cs + 1) = 1 + Php.byteSize cs + 1
        omega
      · obtain ⟨l, ls, hl⟩ := List.exists_cons_of_ne_nil (splitChars_ne_nil cs)
        rw [hl, List.map_cons, List.foldr_cons, utf8ByteSize_ofList] at ih
        rw [if_neg hc, hl, List.modifyHead_cons, List.map_cons, List.foldr_cons, utf8ByteSize_ofList]
        change c.utf8Size + Php.byteSize l + 1 + _ = _
        omega

theorem byteOfLine_append {a : List Char} (ha : IsWhole a) (b : List Char) :
    byteOfLine (String.ofList (a ++ b)) (wholeLines a).length = Php.byteSize a := by
  unfold byteOfLine splitLines
  rw [String.toList_ofList, splitChars_append ha, List.map_append, List.take_left' (by simp)]
  by_cases hne : a = []
  · rw [hne]
    rfl
  · obtain ⟨body, rfl⟩ := ha.eq_snoc hne
    rw [wholeLines_snoc, byteSize_splitChars, Php.byteSize_append]
    rfl

theorem byteOfLine_word {document : String} {line : Nat}
    (hline : line < (splitChars document.toList).length)
    (hsize : document.utf8ByteSize < UInt32.size) :
    (UInt32.ofNat (byteOfLine document line)).toNat = byteOfLine document line := by
  obtain ⟨a, b, rfl, ha, rfl⟩ := exists_whole document hline
  rw [utf8ByteSize_ofList, Php.byteSize_append] at hsize
  rw [byteOfLine_append ha]
  exact UInt32.toNat_ofNat_of_lt' (by omega)

/-! Where class-likes end -/

namespace Php

def ClassLike.EndsInBrace (source : List Char) (c : ClassLike) : Prop :=
  ∃ before after, source = before ++ '\x7d' :: after ∧ c.stop = byteSize before + 1

open Reader

theorem Grammar.yields_stop {source : List Char} (r : Rules) :
    Yields (Item.IsOf source) (fun body => ∃ before after, source = before ++ '\x7d' :: after ∧
      body.2 = byteSize before + 1) (classBody r) := by
  refine yields_then fun _ => yields_then fun ms => ?_
  refine yields_bind (yields_eat _) fun close hclose => ?_
  obtain ⟨hkind, hspells, before, after, hsource, -, hstop⟩ := hclose
  rw [hkind] at hspells
  have hbrace : close.text.toList = ['\x7d'] := hspells
  rw [hbrace] at hsource hstop
  exact yields_pure ⟨before, after, by simpa using hsource, hstop⟩

theorem Grammar.yields_endsInBrace {source : List Char} (r : Rules) (start : Nat)
    (mods : List Keyword) :
    Yields (Item.IsOf source) (Statement.Declares (ClassLike.EndsInBrace source))
      (classLike r start mods) := by
  refine yields_then fun word => yields_then fun name => yields_then fun _ => ?_
  refine yields_bind (yields_stop r) fun body hstop => yields_pure ?_
  intro c hc
  obtain rfl := List.mem_singleton.mp hc
  exact hstop

theorem Program.endsInBrace (source : String) :
    ∀ c ∈ declaredClasses (Program.parse source).statements, c.EndsInBrace source.toList :=
  Program.forall_declaredClasses Grammar.yields_endsInBrace

end Php

theorem byteOfLine_ne_stop {document : String} {line : Nat}
    (hline : line < (splitChars document.toList).length) :
    ∀ c ∈ Php.declaredClasses (Php.Program.parse document).statements,
      byteOfLine document line ≠ c.stop := by
  intro c hc
  obtain ⟨before, after, hbrace, hstop⟩ := Php.Program.endsInBrace document c hc
  obtain ⟨a, b, hdocument, ha, rfl⟩ := exists_whole document hline
  rw [hdocument, byteOfLine_append ha, hstop]
  rw [hdocument, String.toList_ofList] at hbrace
  exact Php.byteSize_ne_of_isWhole ha hbrace

/-! Which method is found -/

namespace Php.ClassLike

def HasMethod (name : String) (c : ClassLike) : Prop :=
  ∃ parameters returns body?, .method name parameters returns body? ∈ c.members

def Contains (byte : Nat) (c : ClassLike) : Prop :=
  c.start ≤ byte ∧ byte < c.stop

def Disjoint (c d : ClassLike) : Prop :=
  c.stop ≤ d.start ∨ d.stop ≤ c.start

instance (byte : Nat) (c : ClassLike) : Decidable (c.Contains byte) :=
  inferInstanceAs (Decidable (_ ∧ _))

instance (c d : ClassLike) : Decidable (c.Disjoint d) :=
  inferInstanceAs (Decidable (_ ∨ _))

theorem covers_iff {c : ClassLike} {byte : Nat} (h : byte ≠ c.stop) :
    c.covers byte = true ↔ c.Contains byte := by
  simp only [covers, Contains, Bool.and_eq_true, decide_eq_true_eq]
  omega

theorem find?_covers {classes : List ClassLike} {byte : Nat}
    (hdisjoint : classes.Pairwise Disjoint) (hstop : ∀ d ∈ classes, byte ≠ d.stop) {c : ClassLike}
    (hc : c ∈ classes) (hcontains : c.Contains byte) :
    classes.find? (·.covers byte) = some c := by
  obtain ⟨before, after, rfl⟩ := List.append_of_mem hc
  rw [List.find?_eq_some_iff_append]
  refine ⟨(covers_iff (hstop c hc)).mpr hcontains, before, after, rfl, ?_⟩
  intro d hd
  -- An earlier class-like could cover the byte with its end only.
  have hapart : d.Disjoint c := (List.pairwise_append.mp hdisjoint).2.2 d hd c List.mem_cons_self
  have hout : ¬d.Contains byte := by
    unfold Contains Disjoint at *
    omega
  rw [Bool.not_eq_true', ← Bool.not_eq_true, covers_iff (hstop d (List.mem_append_left _ hd))]
  exact hout

end Php.ClassLike

namespace Method

def IsFirstIn (m : Method) (c : Php.ClassLike) : Prop :=
  ∃ before after, c.members = before ++ .method m.name m.parameters m.returns m.body? :: after ∧
    ∀ parameters returns body?, .method m.name parameters returns body? ∉ before

def ofMember? (name : String) : Php.Member → Option Method
  | .method name' parameters returns body? =>
      if name' = name then some ⟨name', parameters, returns, body?⟩ else none
  | _ => none

theorem ofMember?_eq_some {name : String} {member : Php.Member} {m : Method} :
    ofMember? name member = some m ↔
      m.name = name ∧ member = .method m.name m.parameters m.returns m.body? := by
  constructor
  · intro h
    unfold ofMember? at h
    split at h
    · obtain ⟨hname, rfl⟩ := by simpa using h
      exact ⟨hname, rfl⟩
    · cases h
  · rintro ⟨rfl, rfl⟩
    exact if_pos rfl

theorem ofMember?_eq_none {name : String} {member : Php.Member} :
    ofMember? name member = none ↔
      ∀ parameters returns body?, member ≠ .method name parameters returns body? := by
  simp only [Option.eq_none_iff_forall_ne_some, ne_eq, ofMember?_eq_some]
  constructor
  · rintro h parameters returns body? rfl
    exact h ⟨name, parameters, returns, body?⟩ ⟨rfl, rfl⟩
  · rintro h m ⟨rfl, hmember⟩
    exact h m.parameters m.returns m.body? hmember

theorem named?_eq (name : String) (c : Php.ClassLike) :
    named? name c = c.members.findSome? (ofMember? name) :=
  rfl

theorem named?_eq_none {name : String} {c : Php.ClassLike} :
    named? name c = none ↔ ¬c.HasMethod name := by
  simp only [named?_eq, List.findSome?_eq_none_iff, ofMember?_eq_none]
  constructor
  · rintro h ⟨parameters, returns, body?, hmem⟩
    exact h _ hmem parameters returns body? rfl
  · rintro h member hmem parameters returns body? rfl
    exact h ⟨parameters, returns, body?, hmem⟩

theorem named?_eq_some {name : String} {c : Php.ClassLike} {m : Method} :
    named? name c = some m ↔ m.name = name ∧ m.IsFirstIn c := by
  simp only [named?_eq, List.findSome?_eq_some_iff, ofMember?_eq_some, ofMember?_eq_none]
  constructor
  · rintro ⟨before, member, after, hmembers, ⟨rfl, rfl⟩, hfresh⟩
    exact ⟨rfl, before, after, hmembers, fun ps returns body? hmem =>
      hfresh _ hmem ps returns body? rfl⟩
  · rintro ⟨rfl, before, after, hmembers, hfresh⟩
    refine ⟨before, _, after, hmembers, ⟨rfl, rfl⟩, ?_⟩
    rintro member hmem parameters returns body? rfl
    exact hfresh parameters returns body? hmem

section

variable {statements : List Php.Statement} {byte : Nat}
  (hdisjoint : (Php.declaredClasses statements).Pairwise Php.ClassLike.Disjoint)
  (hstop : ∀ c ∈ Php.declaredClasses statements, byte ≠ c.stop)

include hdisjoint hstop in
theorem at?_of_contains {c : Php.ClassLike} (hc : c ∈ Php.declaredClasses statements)
    (hcontains : c.Contains byte) {m : Method} (hm : m.IsFirstIn c) :
    at? m.name byte statements = some m := by
  unfold at?
  dsimp only
  rw [Php.ClassLike.find?_covers hdisjoint hstop hc hcontains, Option.bind_some,
    named?_eq_some.mpr ⟨rfl, hm⟩, Option.some_or]

include hstop in
theorem at?_of_not_contains {name : String}
    (h : ∀ c ∈ Php.declaredClasses statements, c.Contains byte → ¬c.HasMethod name) :
    at? name byte statements = (Php.declaredClasses statements).findSome? (named? name) := by
  have hown :
      ((Php.declaredClasses statements).find? (·.covers byte)).bind (named? name) = none := by
    cases hfind : (Php.declaredClasses statements).find? (·.covers byte) with
    | none => rfl
    | some c =>
        have hc := List.mem_of_find?_eq_some hfind
        have hcovers : c.covers byte = true := by simpa using List.find?_some hfind
        exact named?_eq_none.mpr (h c hc ((Php.ClassLike.covers_iff (hstop c hc)).mp hcovers))
  unfold at?
  dsimp only
  rw [hown, Option.none_or]

include hstop in
theorem at?_eq_none {name : String} :
    at? name byte statements = none ↔
      ∀ c ∈ Php.declaredClasses statements, ¬c.HasMethod name := by
  constructor
  · intro h c hc
    obtain ⟨-, hnone⟩ := Option.or_eq_none_iff.mp h
    exact named?_eq_none.mp (List.findSome?_eq_none_iff.mp hnone c hc)
  · intro h
    rw [at?_of_not_contains hstop fun c hc _ => h c hc, List.findSome?_eq_none_iff]
    exact fun c hc => named?_eq_none.mpr (h c hc)

end

end Method

namespace FunctionSignature

theorem ofSite_eq {document : String} {line : Nat} {s : Site}
    (hsite : Site.ofLine? document line = some s) {name : String} {isStatic : Bool}
    (hname : DeclarationLine.function? s.text = some (.function name isStatic)) :
    ofSite document s = (Php.Program.parse document).locate "Method" fun statements =>
      (Method.at? name (byteOfLine document line) statements).map Method.signature := by
  obtain ⟨text, -, hs⟩ := Option.bind_eq_some_iff.mp hsite
  obtain rfl := Option.some.inj hs
  unfold ofSite
  rw [hname]

theorem ofSite_own_class {document : String} {line : Nat} {s : Site}
    (hsite : Site.ofLine? document line = some s) {name : String} {isStatic : Bool}
    (hname : DeclarationLine.function? s.text = some (.function name isStatic))
    {classes : List Php.ClassLike}
    (hclasses : Php.declaredClasses (Php.Program.parse document).statements = classes)
    (hdisjoint : classes.Pairwise Php.ClassLike.Disjoint) :
    -- The place of the line is the same in 32 bits, as long as those can count the document.
    (document.utf8ByteSize < UInt32.size →
      (UInt32.ofNat (byteOfLine document line)).toNat = byteOfLine document line) ∧
    -- The end of a class-like counts as covered, but no line starts there.
    (∀ c ∈ classes, byteOfLine document line ≠ c.stop) ∧
    (∀ c ∈ classes, c.Contains (byteOfLine document line) →
      ∀ m : Method, m.name = name → m.IsFirstIn c → ofSite document s = .ok m.signature) ∧
    ((∀ c ∈ classes, c.Contains (byteOfLine document line) → ¬c.HasMethod name) →
      ∀ before c after, classes = before ++ c :: after → (∀ d ∈ before, ¬d.HasMethod name) →
        ∀ m : Method, m.name = name → m.IsFirstIn c → ofSite document s = .ok m.signature) ∧
    ((∃ e, ofSite document s = .error e) ↔ ∀ c ∈ classes, ¬c.HasMethod name) := by
  subst hclasses
  have hline : line < (splitChars document.toList).length := by
    obtain ⟨text, htext, -⟩ := Option.bind_eq_some_iff.mp hsite
    obtain ⟨hlt, -⟩ := List.getElem?_eq_some_iff.mp htext
    exact Nat.lt_of_lt_of_le hlt (length_lines_le document)
  have hstop := byteOfLine_ne_stop hline
  have hfound {m : Method} (h : Method.at? name (byteOfLine document line)
      (Php.Program.parse document).statements = some m) : ofSite document s = .ok m.signature := by
    rw [ofSite_eq hsite hname, Php.Program.locate, h]
    rfl
  refine ⟨byteOfLine_word hline, hstop, ?_, ?_, ?_⟩
  · rintro c hc hcontains m rfl hm
    exact hfound (Method.at?_of_contains hdisjoint hstop hc hcontains hm)
  · rintro hnone before c after hsplit hbefore m rfl hm
    refine hfound ?_
    rw [Method.at?_of_not_contains hstop hnone, List.findSome?_eq_some_iff]
    exact ⟨before, c, after, hsplit, Method.named?_eq_some.mpr ⟨rfl, hm⟩,
      fun d hd => Method.named?_eq_none.mpr (hbefore d hd)⟩
  · rw [← Method.at?_eq_none hstop]
    constructor
    · rintro ⟨e, he⟩
      cases hat : Method.at? name (byteOfLine document line)
          (Php.Program.parse document).statements with
      | none => rfl
      | some m =>
          rw [hfound hat] at he
          cases he
    · intro hnone
      rw [ofSite_eq hsite hname, Php.Program.locate, hnone]
      exact ⟨_, rfl⟩

def sampleTwins : String :=
  "<?php // é\nclass A \x7b function f($a) \x7b\x7d \x7dclass B\n\x7b\n" ++
    "\tpublic function f($b) \x7b\x7d\n\x7d\n"

theorem ofSite_own_class_adjacent :
    ofSite sampleTwins ⟨"\tpublic function f($b) \x7b\x7d", "\t", 3, some "A"⟩ =
      .ok ⟨"f", [⟨"b", "mixed"⟩], "mixed", []⟩ := by
  have hsite : Site.ofLine? sampleTwins 3 =
      some ⟨"\tpublic function f($b) \x7b\x7d", "\t", 3, some "A"⟩ := by decide +kernel
  have hname : DeclarationLine.function? "\tpublic function f($b) \x7b\x7d" =
      some (.function "f" false) := by decide +kernel
  have hdisjoint : (Php.declaredClasses (Php.Program.parse sampleTwins).statements).Pairwise
      Php.ClassLike.Disjoint := by decide +kernel
  obtain ⟨c, hc, hcontains, hsome⟩ :
      ∃ c ∈ Php.declaredClasses (Php.Program.parse sampleTwins).statements,
        c.Contains (byteOfLine sampleTwins 3) ∧ (Method.named? "f" c).map Method.signature =
          some ⟨"f", [⟨"b", "mixed"⟩], "mixed", []⟩ := by
    decide +kernel
  obtain ⟨m, hm, hsignature⟩ := Option.map_eq_some_iff.mp hsome
  obtain ⟨hmname, hfirst⟩ := Method.named?_eq_some.mp hm
  rw [← hsignature]
  exact (ofSite_own_class hsite hname rfl hdisjoint).2.2.1 c hc hcontains m hmname hfirst

end FunctionSignature

end Scaffold
