import Scaffold.Proofs.ConstructorText
import Scaffold.Proofs.DocComment
/-!
The two layouts of a constructor, line by line. They differ in the rows of the signature alone, and
the limit on its length decides between them; all else is the same, in the order of the properties.
-/
namespace Scaffold

open Text

namespace Text

/-! Texts without their blanks -/

def unspaced (s : String) : String :=
  String.ofList (s.toList.filter fun c => !isBlank c)

theorem unspaced_append (a b : String) : unspaced (a ++ b) = unspaced a ++ unspaced b := by
  simp [unspaced]

theorem unspaced_eq_empty {s : String} (h : s.toList.all isBlank = true) : unspaced s = "" := by
  have hnone : (s.toList.filter fun c => !isBlank c) = [] := by
    simpa [List.filter_eq_nil_iff] using h
  rw [unspaced, hnone]

theorem unspaced_intercalate {sep : String} (hsep : unspaced sep = "") (texts : List String) :
    unspaced (String.intercalate sep texts) = String.join (texts.map unspaced) := by
  induction texts with
  | nil => rfl
  | cons t ts ih =>
      rw [List.map_cons, String.join_cons, ← ih]
      cases ts with
      | nil => simp [unspaced]
      | cons u us =>
          rw [String.intercalate_cons_cons, unspaced_append, unspaced_append, hsep,
            String.append_empty]

/-! Texts joined by line feeds -/

theorem intercalate_feed {texts : List String} (h : texts ≠ []) :
    String.intercalate "\n" texts ++ "\n" = String.join (texts.map (· ++ "\n")) := by
  induction texts with
  | nil => exact absurd rfl h
  | cons t ts ih =>
      cases ts with
      | nil => simp
      | cons u us =>
          rw [String.intercalate_cons_cons, List.map_cons, String.join_cons, ← ih (by simp)]
          simp only [String.append_assoc]

theorem intercalate_indented (lead : String) {texts : List String} (h : texts ≠ []) :
    lead ++ String.intercalate ("\n" ++ lead) texts =
      String.intercalate "\n" (texts.map (lead ++ ·)) := by
  induction texts with
  | nil => exact absurd rfl h
  | cons t ts ih =>
      cases ts with
      | nil => simp
      | cons u us =>
          rw [String.intercalate_cons_cons, List.map_cons, List.map_cons,
            String.intercalate_cons_cons, ← List.map_cons, ← ih (by simp)]
          simp only [String.append_assoc]

end Text

namespace Template

/-! The rows of a constructor, without their indentation -/

def starred (row : String) : String :=
  if row = "" then " *" else " * " ++ row

def paramRow (p : PropertySignature) : String :=
  " * @param " ++ p.types.docText ++ " $" ++ p.name

def assignmentRow (tab : String) (p : PropertySignature) : String :=
  tab ++ "$this->" ++ p.name ++ " = $" ++ p.name ++ ";"

def signatureRow (ps : List PropertySignature) : String :=
  "public function __construct(" ++ String.intercalate ", " (ps.map argument) ++ ")"

def flatHead (ps : List PropertySignature) : List String :=
  [signatureRow ps, "\x7b"]

def tallHead (tab : String) (ps : List PropertySignature) : List String :=
  ["public function __construct("]
    ++ (ps.dropLast.map fun p => tab ++ (argument p ++ ","))
    ++ (ps.getLast?.toList.map fun p => tab ++ argument p)
    ++ [") \x7b"]

def constructorRows (head : List String) (ps : List PropertySignature) (tab : String)
    (className : Option String) (s : Settings) : List String :=
  "/**" :: (constructorDescription className s).map starred ++ ps.map paramRow ++ [" */"] ++ head ++
    ps.map (assignmentRow tab) ++ ["\x7d"]

/-- The lines of a constructor, given the rows of its signature. The name of the class may run over
several lines. -/
def constructorLines (head : List String) (ps : List PropertySignature) (tab : String)
    (className : Option String) (s : Settings) : List String :=
  ["", tab ++ "/**"]
    ++ ((constructorDescription className s).flatMap fun row => splitLines (tab ++ starred row))
    ++ ps.map (tab ++ paramRow ·)
    ++ [tab ++ " */"]
    ++ head.map (tab ++ ·)
    ++ ps.map (tab ++ assignmentRow tab ·)
    ++ [tab ++ "\x7d", ""]

theorem intercalate_arguments_eq (sep : String) (ps : List PropertySignature) :
    String.intercalate sep (arguments ps) = String.intercalate ("," ++ sep) (ps.map argument) := by
  induction ps with
  | nil => rfl
  | cons p ps ih =>
      cases ps with
      | nil => simp [arguments]
      | cons q qs =>
          rw [intercalate_arguments, ih, List.map_cons, List.map_cons, List.map_cons,
            String.intercalate_cons_cons]
          simp only [String.append_assoc]

theorem arguments_eq (ps : List PropertySignature) :
    arguments ps = ps.dropLast.map (argument · ++ ",") ++ ps.getLast?.toList.map argument := by
  induction ps with
  | nil => rfl
  | cons p ps ih =>
      cases ps with
      | nil => rfl
      | cons q qs => simp [arguments, ih]

theorem constructorOneLine_eq (ps : List PropertySignature) (tab : String) :
    constructorOneLine ps tab = tab ++ signatureRow ps := by
  have hsep : "," ++ " " = ", " := by decide
  unfold constructorOneLine signatureRow
  rw [intercalate_arguments_eq, hsep]
  apply String.toList_inj.mp
  simp

theorem tallHead_eq (tab : String) (ps : List PropertySignature) :
    tallHead tab ps =
      "public function __construct(" :: (arguments ps).map (tab ++ ·) ++ [") \x7b"] := by
  simp [tallHead, arguments_eq, Function.comp_def]

theorem starred_param (p : PropertySignature) :
    starred ("@param " ++ p.types.docText ++ " $" ++ p.name) = paramRow p := by
  rw [starred, if_neg (by simp)]
  apply String.toList_inj.mp
  simp [paramRow]

theorem constructorDoc_eq (ps : List PropertySignature) (tab : String) (className : Option String)
    (s : Settings) :
    constructorDoc ps tab className s =
      String.join (("/**" :: (constructorDescription className s).map starred ++ ps.map paramRow ++
        [" */"]).map (tabbed tab)) := by
  have hrows (rows : List String) :
      rows.map (docLine tab) = (rows.map starred).map (tabbed tab) := by
    rw [List.map_map]
    exact List.map_congr_left fun row _ => docLine_eq tab row
  rw [constructorDoc, docBlock_eq, hrows, List.map_append, List.map_map]
  simp only [Function.comp_def, starred_param]
  simp only [List.map_append, List.map_cons, List.map_nil, List.cons_append, String.join_append,
    String.join_cons, String.join_nil, String.append_assoc, String.append_empty]

section

variable {ps : List PropertySignature} {tab : String} {s : Settings}

theorem constructorHead_flat (h : (tab ++ signatureRow ps).length ≤ s.constructorLineLength.toNat) :
    constructorHead ps tab s = String.join ((flatHead ps).map (tabbed tab)) := by
  rw [← constructorOneLine_eq] at h
  rw [constructorHead, if_pos h, constructorOneLine_eq]
  apply String.toList_inj.mp
  simp [flatHead, tabbed]

theorem constructor_unspaced (hblank : tab.toList.all isBlank = true) (ps : List PropertySignature)
    (className : Option String) (s : Settings) (limit : UInt64) :
    unspaced (constructor ps tab className { s with constructorLineLength := limit }) =
      unspaced (constructor ps tab className s) := by
  have htab := unspaced_eq_empty hblank
  have hlead : unspaced ("\n" ++ (tab ++ tab)) = "" := by
    rw [unspaced_append, unspaced_append, htab]
    decide
  have hhead (s : Settings) : unspaced (constructorHead ps tab s) =
      "publicfunction__construct(" ++ (String.join ((arguments ps).map unspaced) ++ ")\x7b") := by
    have hopen : unspaced "public function __construct(" = "publicfunction__construct(" ∧
        unspaced "public function __construct(\n" = "publicfunction__construct(" := by decide
    unfold constructorHead
    dsimp only
    split
    · have hclose : unspaced ")" ++ (unspaced "\n" ++ unspaced "\x7b\n") = ")\x7b" := by decide
      simp only [constructorOneLine, unspaced_append, htab, hopen,
        unspaced_intercalate (by decide : unspaced " " = ""), String.append_assoc,
        String.empty_append, hclose]
    · have hclose : unspaced "\n" ++ unspaced ") \x7b\n" = ")\x7b" := by decide
      simp only [unspaced_append, htab, hopen, unspaced_intercalate hlead, String.append_assoc,
        String.empty_append, hclose]
  cases ps with
  | nil => rfl
  | cons p ps =>
      simp only [constructor, unspaced_append, hhead]
      rfl

/-! The lines -/

section

variable (hne : ps ≠ [])
include hne

theorem arguments_ne_nil : arguments ps ≠ [] := by
  obtain ⟨p, ps, rfl⟩ := List.exists_cons_of_ne_nil hne
  cases ps <;> exact List.cons_ne_nil _ _

theorem constructorHead_tall (h : s.constructorLineLength.toNat < (tab ++ signatureRow ps).length) :
    constructorHead ps tab s = String.join ((tallHead tab ps).map (tabbed tab)) := by
  rw [← constructorOneLine_eq] at h
  have hlead : "\n" ++ tab ++ tab = "\n" ++ (tab ++ tab) := String.append_assoc
  have hargs := arguments_ne_nil hne
  have hlines : tab ++ tab ++ String.intercalate ("\n" ++ tab ++ tab) (arguments ps) ++ "\n" =
      String.join (((arguments ps).map (tab ++ ·)).map (tabbed tab)) := by
    rw [hlead, intercalate_indented _ hargs, intercalate_feed (by simpa using hargs), List.map_map,
      List.map_map]
    congr 1
    refine List.map_congr_left fun a _ => ?_
    simp only [Function.comp_apply, tabbed, String.append_assoc]
  have hopen : tab ++ "public function __construct(\n" =
      tabbed tab "public function __construct(" := by
    apply String.toList_inj.mp
    simp [tabbed]
  have hclose : tab ++ ") \x7b\n" = tabbed tab ") \x7b" := by
    apply String.toList_inj.mp
    simp [tabbed]
  rw [constructorHead, if_neg (Nat.not_le.mpr h), tallHead_eq, List.map_append, List.map_cons,
    String.join_append, String.join_cons, ← hlines, ← hopen]
  simp only [List.map_cons, List.map_nil, String.join_cons, String.join_nil, ← hclose,
    String.append_assoc, String.append_empty]

theorem assignments_eq :
    String.intercalate "\n" (ps.map (assignment tab)) ++ "\n" =
      String.join ((ps.map (assignmentRow tab)).map (tabbed tab)) := by
  rw [intercalate_feed (by simpa using hne), List.map_map, List.map_map]
  congr 1
  refine List.map_congr_left fun p _ => ?_
  simp only [Function.comp_apply, tabbed, assignment, assignmentRow, String.append_assoc]

theorem constructor_eq_join {head : List String} (className : Option String)
    (hhead : constructorHead ps tab s = String.join (head.map (tabbed tab))) :
    constructor ps tab className s =
      "\n" ++ String.join ((constructorRows head ps tab className s).map (tabbed tab)) := by
  have hclose : tab ++ "\x7d\n" = tabbed tab "\x7d" := by
    apply String.toList_inj.mp
    simp [tabbed]
  have hparts : constructor ps tab className s = "\n" ++ constructorDoc ps tab className s ++
      constructorHead ps tab s ++ (String.intercalate "\n" (ps.map (assignment tab)) ++ "\n") ++
      (tab ++ "\x7d\n") := by
    obtain ⟨p, ps, rfl⟩ := List.exists_cons_of_ne_nil hne
    simp only [constructor, String.append_assoc]
  rw [hparts, assignments_eq hne, constructorDoc_eq, hhead, hclose]
  simp only [constructorRows, List.map_append, List.map_cons, List.map_nil, List.cons_append,
    String.join_append, String.join_cons, String.join_nil, String.append_assoc, String.append_empty]

theorem flat_ne_tall (className : Option String) :
    constructorLines (flatHead ps) ps tab className s ≠
      constructorLines (tallHead tab ps) ps tab className s := by
  intro heq
  have hpos := List.length_pos_iff.mpr (arguments_ne_nil hne)
  have hlength := congrArg List.length heq
  simp only [constructorLines, tallHead_eq, flatHead, List.length_append, List.length_map,
    List.length_cons, List.length_nil] at hlength
  omega

end

section

variable {p : PropertySignature}

theorem onOneLine_paramRow (hp : p.OnOneLine) : Lacks '\n' (paramRow p) :=
  ((Lacks.append (by decide) (UnionType.onOneLine_docText hp.2)).append (by decide)).append hp.1

theorem onOneLine_assignmentRow (htab : Lacks '\n' tab) (hp : p.OnOneLine) :
    Lacks '\n' (assignmentRow tab p) :=
  ((((htab.append (by decide)).append hp.1).append (by decide)).append hp.1).append (by decide)

theorem onOneLine_argument (hp : p.OnOneLine) : Lacks '\n' (argument p) :=
  ((UnionType.onOneLine_declaredText hp.2).append (by decide)).append hp.1

end

variable (hps : ∀ p ∈ ps, p.OnOneLine)
include hps

theorem onOneLine_flatHead : ∀ row ∈ flatHead ps, Lacks '\n' row := by
  have hargs : ∀ a ∈ ps.map argument, Lacks '\n' a :=
    List.forall_mem_map.mpr fun p hp => onOneLine_argument (hps p hp)
  have hlist : Lacks '\n' (String.intercalate ", " (ps.map argument)) :=
    Lacks.intercalate (by decide) hargs
  have hsignature : Lacks '\n' (signatureRow ps) :=
    (Lacks.append (by decide) hlist).append (by decide)
  simpa [flatHead] using ⟨hsignature, (by decide : Lacks '\n' "\x7b")⟩

variable (htab : Lacks '\n' tab)
include htab

theorem onOneLine_tallHead : ∀ row ∈ tallHead tab ps, Lacks '\n' row := by
  intro row hrow
  simp only [tallHead, List.mem_append, List.mem_cons, List.mem_map, List.not_mem_nil, or_false,
    Option.mem_toList] at hrow
  rcases hrow with ((rfl | ⟨p, hp, rfl⟩) | ⟨p, hp, rfl⟩) | rfl
  · decide
  · have harg := onOneLine_argument (hps p (List.dropLast_subset ps hp))
    exact htab.append (harg.append (by decide))
  · exact htab.append (onOneLine_argument (hps p (List.mem_of_getLast? hp)))
  · decide

theorem splitLines_rows {head : List String} (hhead : ∀ row ∈ head, Lacks '\n' row)
    (className : Option String) :
    splitLines ("\n" ++ String.join ((constructorRows head ps tab className s).map (tabbed tab))) =
      constructorLines head ps tab className s := by
  have hparams := flatMap_splitLines htab
    (List.forall_mem_map.mpr fun p hp => onOneLine_paramRow (hps p hp))
  have hassignments := flatMap_splitLines htab
    (List.forall_mem_map.mpr fun p hp => onOneLine_assignmentRow htab (hps p hp))
  have hrow (row : String) (hrow : Lacks '\n' row) : splitLines (tab ++ row) = [tab ++ row] :=
    splitLines_of_onOneLine (htab.append hrow)
  have hfirst (rest : String) : splitLines ("\n" ++ rest) = "" :: splitLines rest :=
    splitLines_append_feed "" rest
  rw [List.flatMap_map] at hparams hassignments
  rw [hfirst, splitLines_join]
  simp only [constructorRows, constructorLines, List.flatMap_append, List.flatMap_cons,
    List.flatMap_nil, List.flatMap_map, hrow "/**" (by decide),
    hrow " */" (by decide), hrow "\x7d" (by decide), hparams, hassignments,
    flatMap_splitLines htab hhead]
  simp [Function.comp_def]

theorem splitLines_flat (hne : ps ≠ []) (className : Option String)
    (h : (tab ++ signatureRow ps).length ≤ s.constructorLineLength.toNat) :
    splitLines (constructor ps tab className s) =
      constructorLines (flatHead ps) ps tab className s := by
  rw [constructor_eq_join hne className (constructorHead_flat h)]
  exact splitLines_rows hps htab (onOneLine_flatHead hps) className

theorem splitLines_tall (hne : ps ≠ []) (className : Option String)
    (h : s.constructorLineLength.toNat < (tab ++ signatureRow ps).length) :
    splitLines (constructor ps tab className s) =
      constructorLines (tallHead tab ps) ps tab className s := by
  rw [constructor_eq_join hne className (constructorHead_tall hne h)]
  exact splitLines_rows hps htab (onOneLine_tallHead hps htab) className

end

/-- The limit decides about blanks only: the signature stands on one line exactly if that line is not
longer, and else each argument has a line of its own. -/
theorem constructor_layout {ps : List PropertySignature} {tab : String}
    (hblank : tab.toList.all isBlank = true) (htab : Lacks '\n' tab) (hps : ∀ p ∈ ps, p.OnOneLine)
    (className : Option String) (s : Settings) :
    (∀ limit, unspaced (constructor ps tab className { s with constructorLineLength := limit }) =
      unspaced (constructor ps tab className s)) ∧
    (ps ≠ [] →
      (splitLines (constructor ps tab className s) =
          constructorLines (flatHead ps) ps tab className s ↔
        (tab ++ signatureRow ps).length ≤ s.constructorLineLength.toNat) ∧
      (splitLines (constructor ps tab className s) =
          constructorLines (tallHead tab ps) ps tab className s ↔
        s.constructorLineLength.toNat < (tab ++ signatureRow ps).length) ∧
      ∀ limit, s.constructorLineLength ≤ limit →
        splitLines (constructor ps tab className s) =
          constructorLines (flatHead ps) ps tab className s →
        splitLines (constructor ps tab className { s with constructorLineLength := limit }) =
          splitLines (constructor ps tab className s)) := by
  refine ⟨constructor_unspaced hblank ps className s, fun hne => ?_⟩
  have hflat {s : Settings} (h : (tab ++ signatureRow ps).length ≤ s.constructorLineLength.toNat) :=
    splitLines_flat hps htab hne className h
  have htall {s : Settings} (h : s.constructorLineLength.toNat < (tab ++ signatureRow ps).length) :=
    splitLines_tall hps htab hne className h
  have hfits (heq : splitLines (constructor ps tab className s) =
      constructorLines (flatHead ps) ps tab className s) :
      (tab ++ signatureRow ps).length ≤ s.constructorLineLength.toNat := by
    refine Nat.not_lt.mp fun hlong => ?_
    exact flat_ne_tall hne className (heq.symm.trans (htall hlong))
  refine ⟨⟨hfits, hflat⟩, ⟨fun heq => ?_, htall⟩, fun limit hle heq => ?_⟩
  · refine Nat.not_le.mp fun hshort => ?_
    exact flat_ne_tall hne className ((hflat hshort).symm.trans heq)
  · rw [heq]
    exact hflat (Nat.le_trans (hfits heq) (UInt64.le_iff_toNat_le.mp hle))

def sampleSizeAndOwner : List PropertySignature :=
  [⟨"größe", ⟨["int", "string"], false⟩⟩, ⟨"owner", ⟨["User"], true⟩⟩]

theorem onOneLine_sampleSizeAndOwner : ∀ p ∈ sampleSizeAndOwner, p.OnOneLine := by
  simp only [sampleSizeAndOwner, List.forall_mem_cons, PropertySignature.OnOneLine, UnionType.OnOneLine]
  decide

/-- The line has 62 characters and 64 bytes. -/
theorem constructor_layout_umlaut :
    (∀ p ∈ sampleSizeAndOwner, p.OnOneLine) ∧
    splitLines (constructor sampleSizeAndOwner "  " (some "Box")
        { functionDescription := true, constructorLineLength := 62 }) =
      ["", "  /**", "   * Box constructor.", "   * @param int|string $größe",
        "   * @param User|null $owner", "   */",
        "  public function __construct(int|string $größe, ?User $owner)", "  \x7b",
        "    $this->größe = $größe;", "    $this->owner = $owner;", "  \x7d", ""] ∧
    splitLines (constructor sampleSizeAndOwner "  " (some "Box")
        { functionDescription := true, constructorLineLength := 61 }) =
      ["", "  /**", "   * Box constructor.", "   * @param int|string $größe",
        "   * @param User|null $owner", "   */",
        "  public function __construct(", "    int|string $größe,", "    ?User $owner", "  ) \x7b",
        "    $this->größe = $größe;", "    $this->owner = $owner;", "  \x7d", ""] := by
  have hblank : "  ".toList.all isBlank = true := by decide
  have hlayout := constructor_layout hblank (by decide) onOneLine_sampleSizeAndOwner (some "Box")
  refine ⟨onOneLine_sampleSizeAndOwner, ?_, ?_⟩
  · refine (((hlayout _).2 (by decide)).1.mpr (by decide)).trans ?_
    decide
  · refine (((hlayout _).2 (by decide)).2.1.mpr (by decide)).trans ?_
    decide

end Template
end Scaffold
