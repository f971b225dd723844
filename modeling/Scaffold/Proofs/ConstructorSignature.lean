import Scaffold.Proofs.ConstructorText
import Scaffold.Proofs.Site
/-!
The signature of a written constructor. In a class that holds nothing else, the line that starts the
constructor leads back to the properties that it was written for: their names, and their types with
`null` last.
-/
namespace Scaffold

open Php Text Template

/-! The line that starts a constructor -/

theorem DeclarationLine.function?_constructor {tab : String}
    (htab : ∀ c ∈ tab.toList, c = ' ' ∨ c = '\t') (more : List Char) :
    function? (String.ofList ((tab ++ "public function __construct(").toList ++ more)) =
      some (.function "__construct" false) := by
  have hblank : ∀ c ∈ tab.toList, isBlank c = true := by
    intro c hc
    rcases htab c hc with rfl | rfl <;> decide
  have hdrop : dropBlanks (tab.toList ++ ("public function __construct(".toList ++ more)) =
      "public function __construct(".toList ++ more :=
    (takeWhile_append_of_stop hblank (by rintro _ ⟨⟩; decide)).2
  have hpublic : spaced? ["public", "protected", "private", "static", "final", "abstract"]
      ("public function __construct(".toList ++ more) =
        some ("public", "function __construct(".toList ++ more) := rfl
  have hshorter : ("function __construct(".toList ++ more).length <
      ("public function __construct(".toList ++ more).length := by
    simp
  have hfunction : spaced? ["public", "protected", "private", "static", "final", "abstract"]
      ("function __construct(".toList ++ more) = none := rfl
  unfold function? Line.function?
  rw [String.toList_ofList, String.toList_append, List.append_assoc, hdrop,
    spacedRun_cons hpublic hshorter, spacedRun_nil hfunction]
  rfl

/-! The method of the only class -/

theorem throwsOf_others (xs : List String) :
    throwsOf (ThrowTree.ofStatements (xs.map fun _ => .expression .other)) = [] := by
  have hvisit : ∀ w : ThrowWalk,
      w.visitAll (ThrowTree.ofStatements (xs.map fun _ => .expression .other)) = w := by
    intro w
    induction xs with
    | nil => rfl
    | cons x xs ih => exact ih
  unfold throwsOf
  rw [hvisit]

theorem Method.at?_single {name : String} {c : ClassLike} {m : Method} {statements : List Statement}
    (hclasses : declaredClasses statements = [c]) (hm : named? name c = some m) (byte : Nat) :
    at? name byte statements = some m := by
  unfold at?
  rw [hclasses]
  by_cases hcovers : c.covers byte = true <;> simp [hcovers, hm]

/-! The class around a constructor -/

def classDocument (c member : String) : String :=
  "<?php\nclass " ++ c ++ "\n\x7b\n" ++ member ++ "\x7d\n"

theorem classDocument_text (c tab doc : String) (l : Layout) (ps : List PropertySignature) :
    classDocument c (l.text tab doc ps) =
      String.ofList (("<?php\nclass " ++ c ++ "\n\x7b\n\n" ++ doc).toList ++
        ((tab ++ "public function __construct(").toList ++ (l.tail tab ps ++ "\x7d\n").toList)) := by
  apply String.toList_inj.mp
  unfold classDocument Layout.text
  simp

section

variable {ps : List PropertySignature} {tab c : String} {className : Option String}
  (hps : ∀ p ∈ ps, p.Readable) (htab : ∀ d ∈ tab.toList, d = ' ' ∨ d = '\t')
  (hclass : ∀ n ∈ className, IsIdentifier n.toList)

include htab

theorem isBlankText_of_tab : IsBlankText tab := by
  intro d hd
  rcases htab d hd with rfl | rfl <;> decide

include hps hclass

theorem scans_constructor (s : Settings) {cs : List Char} {ws : List Word} (h : Scans cs ws) :
    Scans ((Template.constructor ps tab className s).toList ++ cs)
      (methodWords "__construct" (ps.map PropertySignature.parameter)
        (ps.map PropertySignature.name) ++ ws) := by
  have hblank := isBlankText_of_tab htab
  obtain ⟨l, doc, htext, hl, hempty, hdoc⟩ := exists_layout hblank ps className s
  have hcomment : ∀ {cs ws}, Scans cs ws → Scans (doc.toList ++ cs) ws := by
    intro cs ws h
    rcases hdoc with rfl | rfl
    · exact h
    · exact scans_docBlock hblank (lacks_constructorLines (.inl rfl) hps hclass s) h
  have hheader := scans_blanks hblank (scans_header hblank hl hps hempty h)
  have hfeed := scans_blank (c := '\n') rfl (hcomment hheader)
  rw [htext]
  simpa [Layout.text] using hfeed

theorem statements_classDocument (hc : IsIdentifier c.toList)
    (hname : Keyword.ofWord? c.toList = none) (s : Settings) :
    ∃ start stop,
      (Program.parse (classDocument c (Template.constructor ps tab className s))).statements =
      [.other, .classLike (.mk .plain c [.method "__construct"
        ((ps.map PropertySignature.parameter).map Argument.parameter) none
        (some ((ps.map PropertySignature.name).map fun _ => .expression .other))] start stop)] := by
  have hsource : ∀ member : String, (classDocument c member).toList =
      '<' :: '?' :: 'p' :: 'h' :: 'p' :: (['\n'] ++ ("class".toList ++ ' ' :: (c.toList ++ '\n' ::
        '\x7b' :: (['\n'] ++ (member.toList ++ ([] ++ '\x7d' :: ['\n'])))))) := by
    intro member
    unfold classDocument
    simp
  have harguments : ∀ a ∈ ps.map PropertySignature.parameter, a.Written := by
    intro _ hmem
    obtain ⟨p, hp, rfl⟩ := List.mem_map.1 hmem
    exact (hps p hp).written
  exact statements_class (hsource _) (by decide) (.inr rfl) hc hname
    (w := (.keyword .public_, "public")) (by decide) (fun h => scans_constructor hps htab hclass s h)
    fun n => takes_method (by decide) rfl "__construct" harguments _

theorem exists_headerLine (hc : IsIdentifier c.toList) (s : Settings) :
    ∃ (n : Nat) (more : List Char),
      (lines (classDocument c (Template.constructor ps tab className s)))[n]? =
        some (String.ofList ((tab ++ "public function __construct(").toList ++ more)) ∧
      ∀ text ∈ lines (classDocument c (Template.constructor ps tab className s)), '(' ∈ text.toList →
        text = String.ofList ((tab ++ "public function __construct(").toList ++ more) := by
  have hblank := isBlankText_of_tab htab
  have hparen : IsOutside '(' := .inr (.inl rfl)
  obtain ⟨l, doc, htext, hl, -, hdoc⟩ := exists_layout hblank ps className s
  have hcomment : IsWhole doc.toList ∧ Lacks '(' doc := by
    rcases hdoc with rfl | rfl
    · exact ⟨isWhole_nil, by decide⟩
    · exact ⟨(endsLine_docBlock _ tab).isWhole, lacks_constructorDoc hblank hps hclass s⟩
  have hwhole : IsWhole ("<?php\nclass " ++ c ++ "\n\x7b\n\n" ++ doc).toList := by
    rw [String.toList_append]
    exact (EndsLine.append _ (by decide)).isWhole.append hcomment.1
  have hopening : Lacks '(' ("<?php\nclass " ++ c ++ "\n\x7b\n\n" ++ doc) :=
    (((by decide : Lacks '(' "<?php\nclass ").append (hparen.lacks_name hc)).append
      (by decide)).append hcomment.2
  have hfeed : Lacks '\n' (tab ++ "public function __construct(") := by
    refine Lacks.append (fun hmem => ?_) (by decide)
    exact absurd (htab _ hmem) (by decide)
  have hlast : (tab ++ "public function __construct(").toList.getLast? = some '(' := by simp
  rw [htext, classDocument_text]
  exact exists_line_of_mem hwhole hfeed hlast (by decide) hopening
    ((lacks_tail hl hblank hps).append (by decide))

end

theorem FunctionSignature.ofSite_method {document : String} {s : Site} {m : Method} {c : ClassLike}
    {statements : List Statement} {isStatic : Bool}
    (hline : DeclarationLine.function? s.text = some (.function m.name isStatic))
    (hstatements : (Program.parse document).statements = statements)
    (hclasses : declaredClasses statements = [c]) (hm : Method.named? m.name c = some m) :
    FunctionSignature.ofSite document s = .ok m.signature := by
  unfold FunctionSignature.ofSite Program.locate
  rw [hline]
  dsimp only
  rw [hstatements, Method.at?_single hclasses hm]
  rfl

/-- The type that is read for a property's parameter: none at all if it is spelled `static`. -/
def UnionType.readText (u : UnionType) : String :=
  if u.modifier?.isSome then mixed else u.docTextNullLast

theorem PropertySignature.Readable.readText_eq {p : PropertySignature} (hp : p.Readable) :
    (UnionType.ofHint? p.parameter.parameter.hint).docText = p.types.readText := by
  unfold parameter UnionType.readText
  split
  · next hmodifier =>
      rw [hmodifier]
      rfl
  · next hmodifier =>
      rw [hmodifier]
      exact (UnionType.declared p.types).docText hp.distinct

theorem PropertySignature.name_parameter (p : PropertySignature) :
    p.parameter.parameter.name = p.name := by
  unfold parameter
  split <;> rfl

theorem Method.signature_constructor {ps : List PropertySignature} (hps : ∀ p ∈ ps, p.Readable)
    (xs : List String) :
    (⟨"__construct", (ps.map PropertySignature.parameter).map Argument.parameter, none,
      some (xs.map fun _ => .expression .other)⟩ : Method).signature =
      ⟨"__construct", ps.map fun p => ⟨p.name, p.types.readText⟩, "void", []⟩ := by
  have hparameters : ∀ p ∈ ps, (⟨p.parameter.parameter.name,
      (UnionType.ofHint? p.parameter.parameter.hint).docText⟩ : ParameterSignature) =
        ⟨p.name, p.types.readText⟩ := by
    intro p hp
    rw [p.name_parameter, (hps p hp).readText_eq]
  have hreturn : ∀ parameters body?,
      (⟨"__construct", parameters, none, body?⟩ : Method).returnHint = "void" :=
    fun _ _ => if_pos rfl
  have hthrows := throwsOf_others xs
  unfold Method.signature
  rw [hreturn, List.map_map, List.map_map, Option.elim_some, hthrows]
  exact congrArg (FunctionSignature.mk _ · _ _) (List.map_congr_left hparameters)

section

variable {ps : List PropertySignature} {tab c : String} {className : Option String}
  (hps : ∀ p ∈ ps, p.Readable) (htab : ∀ d ∈ tab.toList, d = ' ' ∨ d = '\t')
  (hc : IsIdentifier c.toList) (hname : Keyword.ofWord? c.toList = none)
  (hclass : ∀ n ∈ className, IsIdentifier n.toList)

include hps htab hc hname hclass

theorem FunctionSignature.ofSite_header (settings : Settings) {s : Site} {more : List Char}
    (htext : s.text = String.ofList ((tab ++ "public function __construct(").toList ++ more)) :
    FunctionSignature.ofSite (classDocument c (Template.constructor ps tab className settings)) s =
      .ok ⟨"__construct", ps.map fun p => ⟨p.name, p.types.readText⟩, "void", []⟩ := by
  obtain ⟨start, stop, hstatements⟩ := statements_classDocument hps htab hclass hc hname settings
  have hfunction := DeclarationLine.function?_constructor htab more
  rw [← htext] at hfunction
  have hmethod := FunctionSignature.ofSite_method (m := ⟨"__construct", _, none, _⟩) hfunction
    hstatements rfl rfl
  rw [hmethod, Method.signature_constructor hps]

end

theorem FunctionSignature.ofSite_constructor {ps : List PropertySignature} {tab c : String}
    {className : Option String} (hps : ∀ p ∈ ps, p.Readable)
    (htab : ∀ d ∈ tab.toList, d = ' ' ∨ d = '\t') (hc : IsIdentifier c.toList)
    (hname : Keyword.ofWord? c.toList = none) (hclass : ∀ n ∈ className, IsIdentifier n.toList)
    (settings : Settings) :
    let document := classDocument c (Template.constructor ps tab className settings)
    (∃ n s, Site.ofLine? document n = some s ∧
      (tab ++ "public function __construct(").toList <+: s.text.toList) ∧
    ∀ n s, Site.ofLine? document n = some s →
      "public function __construct(".toList <:+: s.text.toList →
      FunctionSignature.ofSite document s =
        .ok ⟨"__construct", ps.map fun p => ⟨p.name, p.types.readText⟩, "void", []⟩ := by
  intro document
  obtain ⟨line, more, hline, honly⟩ := exists_headerLine hps htab hclass hc settings
  obtain ⟨site, hsite, htext⟩ := Site.exists_ofLine? hline
  refine ⟨⟨line, site, hsite, ?_⟩, fun n s hs hheader => ?_⟩
  · rw [htext, String.toList_ofList]
    exact List.prefix_append _ _
  · have hmem := List.mem_of_getElem? (Site.text_of_ofLine? hs)
    have htext := honly s.text hmem (hheader.subset (by decide))
    exact FunctionSignature.ofSite_header hps htab hc hname hclass settings htext

theorem FunctionSignature.ofSite_constructor_sample :
    let properties : List PropertySignature :=
      [⟨"owner", ⟨["null", "User", "int"], false⟩⟩, ⟨"next", ⟨["static"], true⟩⟩,
        ⟨"class", ⟨["static"], false⟩⟩, ⟨"rest", ⟨[], true⟩⟩]
    let document := classDocument "Node" (Template.constructor properties "\t " (some "Node") {})
    ∃ n s, Site.ofLine? document n = some s ∧ FunctionSignature.ofSite document s =
      .ok ⟨"__construct", [⟨"owner", "User|int|null"⟩, ⟨"next", "static|null"⟩, ⟨"class", "mixed"⟩,
        ⟨"rest", "mixed"⟩], "void", []⟩ := by
  intro properties document
  have hps : ∀ p ∈ properties, p.Readable := by decide
  have htab : ∀ d ∈ "\t ".toList, d = ' ' ∨ d = '\t' := by simp
  have hclass : ∀ n ∈ some "Node", IsIdentifier n.toList := by decide
  obtain ⟨⟨n, s, hs, hprefix⟩, hall⟩ :=
    FunctionSignature.ofSite_constructor (c := "Node") hps htab (by decide) (by decide) hclass {}
  have hheader : "public function __construct(".toList <:+
      ("\t " ++ "public function __construct(").toList := by
    rw [String.toList_append]
    exact List.suffix_append _ _
  exact ⟨n, s, hs, hall n s hs (hheader.isInfix.trans hprefix.isInfix)⟩

/-- A lone `static` is taken for a modifier, so its parameter has no type. -/
theorem FunctionSignature.ofSite_constructor_static :
    let properties : List PropertySignature := [⟨"x", ⟨["static"], false⟩⟩]
    let document := classDocument "C" (Template.constructor properties "    " none {})
    ∃ n s, Site.ofLine? document n = some s ∧
      ("    " ++ "public function __construct(").toList <+: s.text.toList ∧
      FunctionSignature.ofSite document s = .ok ⟨"__construct", [⟨"x", "mixed"⟩], "void", []⟩ ∧
      properties.map (·.types.docTextNullLast) = ["static"] := by
  intro properties document
  have hps : ∀ p ∈ properties, p.Readable := by decide
  have htab : ∀ d ∈ "    ".toList, d = ' ' ∨ d = '\t' := by simp
  have hclass : ∀ n ∈ (none : Option String), IsIdentifier n.toList := nofun
  obtain ⟨n, more, hline, -⟩ := exists_headerLine (c := "C") hps htab hclass (by decide) {}
  obtain ⟨s, hs, htext⟩ := Site.exists_ofLine? hline
  refine ⟨n, s, hs, ?_, ?_, by decide⟩
  · rw [htext, String.toList_ofList]
    exact List.prefix_append _ _
  · exact FunctionSignature.ofSite_header hps htab (by decide) (by decide) hclass {} htext

end Scaffold
