import Scaffold.Project
import Scaffold.Proofs.RelativePath
/-!
The namespace of a directory, told from the table of a project. The nearest mapping is the one with
the longest directory, the last of several; the names below its directory follow its namespace. A
mapping onto the project itself is never the nearest one.
-/
namespace Scaffold

namespace Mapping

/-! The table -/

def table (json : Json) (name : String) : List (String × Json) :=
  (((json.member? name).bind (·.member? "psr-4")).bind Json.members?).getD []

def directories : Json → List String
  | .string path => [path]
  | .array items => items.filterMap Json.string?
  | _ => []

def written (json : Json) : List Mapping :=
  (table json "autoload" ++ table json "autoload-dev").flatMap fun entry =>
    (directories entry.2).map (⟨entry.1, ·⟩)

def normal (m : Mapping) : Mapping :=
  ⟨closed m.space, normalDirectory m.base⟩

def lengthOf (m : Mapping) : Nat :=
  m.space.utf8ByteSize

structure IsTableOf (ms : List Mapping) (json : Json) : Prop where
  listed : ms.Perm ((written json).map normal)
  descending : ms.Pairwise fun a b => b.lengthOf ≤ a.lengthOf
  stable : ∀ n, ms.filter (·.lengthOf = n) = ((written json).map normal).filter (·.lengthOf = n)
  space_closed : ∀ m ∈ ms, m.space = "" ∨ m.space.toList.getLast? = some '\\'
  base_closed : ∀ m ∈ ms, m.base = "" ∨ m.base.toList.getLast? = some '/'

theorem ofSection_eq (json : Json) (name : String) :
    ofSection json name = (table json name).flatMap fun entry => ofEntry entry.1 entry.2 := by
  unfold ofSection table
  cases ((json.member? name).bind (·.member? "psr-4")).bind Json.members? <;> rfl

theorem ofEntry_eq (space : String) (paths : Json) :
    ofEntry space paths = ((directories paths).map (⟨space, ·⟩)).map normal := by
  cases paths <;> simp [ofEntry, directories, normal]

theorem ofSection_append (json : Json) :
    ofSection json "autoload" ++ ofSection json "autoload-dev" = (written json).map normal := by
  simp only [ofSection_eq, ← List.flatMap_append, ofEntry_eq, written, List.map_flatMap]

theorem space_normal (m : Mapping) :
    m.normal.space = "" ∨ m.normal.space.toList.getLast? = some '\\' := by
  unfold normal closed
  dsimp only
  split
  · next h => simpa using h
  · exact .inr (by simp)

theorem normalDirectory_cases (path : String) :
    normalDirectory path = "" ∨ (normalDirectory path).toList.getLast? = some '/' := by
  have hclosed (cs : List Char) (s : String)
      (h : s = if cs = [] || cs.getLast? = some '/' then String.ofList cs
        else String.ofList (cs ++ ['/'])) : s = "" ∨ s.toList.getLast? = some '/' := by
    split at h
    · next hcs => simpa [h] using hcs
    · exact .inr (by simp [h])
  exact hclosed _ _ rfl

theorem isTableOf_ofJson (json : Json) : IsTableOf (ofJson json) json := by
  have hofJson : ofJson json = ((written json).map normal).mergeSort fun a b =>
      decide (b.lengthOf ≤ a.lengthOf) := by
    rw [ofJson, ofSection_append]
    rfl
  have hperm : (ofJson json).Perm ((written json).map normal) :=
    hofJson ▸ List.mergeSort_perm _ _
  have hnormal {m : Mapping} (h : m ∈ ofJson json) : ∃ w, m = normal w := by
    obtain ⟨w, -, hw⟩ := List.mem_map.mp (hperm.mem_iff.mp h)
    exact ⟨w, hw.symm⟩
  refine ⟨hperm, ?_, fun n => ?_, fun m hm => ?_, fun m hm => ?_⟩
  · rw [hofJson]
    exact (List.pairwise_mergeSort (by simp; omega) (by simp; omega) _).imp of_decide_eq_true
  · rw [hofJson]
    exact filter_mergeSort (by simp; omega) (by simp; omega) (by simp; omega) _ n
  · obtain ⟨w, rfl⟩ := hnormal hm
    exact space_normal w
  · obtain ⟨w, rfl⟩ := hnormal hm
    exact normalDirectory_cases w.base

/-! The nearest mapping -/

def Fits (m : Mapping) (dir : String) : Prop :=
  m.base ≠ "" ∧ m.base.toList <+: dir.toList

instance (m : Mapping) (dir : String) : Decidable (m.Fits dir) :=
  inferInstanceAs (Decidable (_ ∧ _))

structure IsNearest (ms : List Mapping) (dir : String) (m : Mapping) : Prop where
  fits : m.Fits dir
  last : ∃ before after, ms = before ++ m :: after ∧
    (∀ x ∈ before, x.Fits dir → x.base.toList <+: m.base.toList) ∧
    ∀ x ∈ after, x.Fits dir → x.base.toList <+: m.base.toList ∧ x.base ≠ m.base

theorem covers_iff {m : Mapping} {dir : String} : m.covers dir = true ↔ m.Fits dir := by
  simp [covers, Fits, List.isPrefixOf_iff_prefix]

theorem mem_filter_covers {ms : List Mapping} {m : Mapping} {dir : String} (hm : m ∈ ms)
    (hfits : m.Fits dir) : m ∈ ms.filter (·.covers dir) :=
  List.mem_filter.mpr ⟨hm, covers_iff.mpr hfits⟩

def better (best : Option Mapping) (m : Mapping) : Option Mapping :=
  match best with
  | some b => if b.base.utf8ByteSize ≤ m.base.utf8ByteSize then some m else best
  | none => some m

theorem longest_eq (ms : List Mapping) : longest ms = ms.foldl better none := rfl

theorem foldl_better {ms : List Mapping} {b m : Mapping} (h : ms.foldl better (some b) = some m) :
    (m = b ∧ ∀ x ∈ ms, x.base.utf8ByteSize < m.base.utf8ByteSize) ∨
      ∃ before after, ms = before ++ m :: after ∧ b.base.utf8ByteSize ≤ m.base.utf8ByteSize ∧
        (∀ x ∈ before, x.base.utf8ByteSize ≤ m.base.utf8ByteSize) ∧
        ∀ x ∈ after, x.base.utf8ByteSize < m.base.utf8ByteSize := by
  induction ms generalizing b with
  | nil => exact .inl ⟨(Option.some.inj h).symm, by simp⟩
  | cons x ms ih =>
      rw [List.foldl_cons, better] at h
      split at h
      · next hle =>
          rcases ih h with ⟨rfl, hafter⟩ | ⟨before, after, rfl, hxm, hbefore, hafter⟩
          · exact .inr ⟨[], ms, rfl, hle, by simp, hafter⟩
          · refine .inr ⟨x :: before, after, rfl, Nat.le_trans hle hxm, ?_, hafter⟩
            exact List.forall_mem_cons.mpr ⟨hxm, hbefore⟩
      · next hlt =>
          have hlt := Nat.lt_of_not_le hlt
          rcases ih h with ⟨rfl, hafter⟩ | ⟨before, after, rfl, hbm, hbefore, hafter⟩
          · exact .inl ⟨rfl, List.forall_mem_cons.mpr ⟨hlt, hafter⟩⟩
          · refine .inr ⟨x :: before, after, rfl, hbm, ?_, hafter⟩
            exact List.forall_mem_cons.mpr ⟨Nat.le_trans (Nat.le_of_lt hlt) hbm, hbefore⟩

theorem longest_eq_some {ms : List Mapping} {m : Mapping} (h : longest ms = some m) :
    ∃ before after, ms = before ++ m :: after ∧
      (∀ x ∈ before, x.base.utf8ByteSize ≤ m.base.utf8ByteSize) ∧
      ∀ x ∈ after, x.base.utf8ByteSize < m.base.utf8ByteSize := by
  rw [longest_eq] at h
  cases ms with
  | nil => exact absurd h (by simp)
  | cons b ms =>
      rcases foldl_better h with ⟨rfl, hafter⟩ | ⟨before, after, rfl, hbm, hbefore, hafter⟩
      · exact ⟨[], ms, rfl, by simp, hafter⟩
      · exact ⟨b :: before, after, rfl, List.forall_mem_cons.mpr ⟨hbm, hbefore⟩, hafter⟩

theorem longest_eq_none {ms : List Mapping} (h : longest ms = none) : ms = [] := by
  rw [longest_eq] at h
  cases ms with
  | nil => rfl
  | cons b ms =>
      have hsome (ms : List Mapping) (b : Mapping) : ms.foldl better (some b) ≠ none := by
        induction ms generalizing b with
        | nil => simp
        | cons x ms ih =>
            rw [List.foldl_cons, better]
            split
            · exact ih x
            · exact ih b
      exact absurd h (hsome ms b)

theorem base_prefix_of_le {x m : Mapping} {dir : String} (hx : x.Fits dir) (hm : m.Fits dir)
    (hle : x.base.utf8ByteSize ≤ m.base.utf8ByteSize) : x.base.toList <+: m.base.toList := by
  rcases List.prefix_or_prefix_of_prefix hx.2 hm.2 with h | ⟨rest, hrest⟩
  · exact h
  · -- What the shorter one has more takes no bytes.
    have hbase : x.base = m.base ++ String.ofList rest := by
      rw [← String.toList_inj, String.toList_append, String.toList_ofList, hrest]
    rw [hbase, String.utf8ByteSize_append] at hle
    have hempty : String.ofList rest = "" := String.utf8ByteSize_eq_zero_iff.mp (by omega)
    have heq : x.base = m.base := by rw [hbase, hempty, String.append_empty]
    exact heq ▸ List.prefix_rfl

theorem isNearest_of_longest {ms : List Mapping} {dir : String} {m : Mapping}
    (h : longest (ms.filter (·.covers dir)) = some m) : IsNearest ms dir m := by
  obtain ⟨before, after, hfilter, hbefore, hafter⟩ := longest_eq_some h
  obtain ⟨front, back, rfl, hfront, hback⟩ := List.filter_eq_append_iff.mp hfilter
  obtain ⟨skipped, rest, rfl, hskipped, hm, hrest⟩ := List.filter_eq_cons_iff.mp hback
  have hm := covers_iff.mp hm
  refine ⟨hm, front ++ skipped, rest, by simp, fun x hx hfits => ?_, fun x hx hfits => ?_⟩
  · rcases List.mem_append.mp hx with hx | hx
    · exact base_prefix_of_le hfits hm (hbefore x (hfront ▸ mem_filter_covers hx hfits))
    · exact absurd (covers_iff.mpr hfits) (hskipped x hx)
  · have hlt := hafter x (hrest ▸ mem_filter_covers hx hfits)
    refine ⟨base_prefix_of_le hfits hm (Nat.le_of_lt hlt), fun heq => ?_⟩
    rw [heq] at hlt
    exact absurd hlt (Nat.lt_irrefl _)

/-! Whole names only -/

def names (dir : String) : List (List Char) :=
  (dir.toList.splitOn '/').dropLast

theorem names_append (a b : List Char) :
    names (String.ofList (a ++ '/' :: b)) = a.splitOn '/' ++ (b.splitOn '/').dropLast := by
  rw [names, String.toList_ofList, List.splitOn_append_cons_self,
    List.dropLast_append_of_ne_nil (List.splitOn_ne_nil '/' b)]

theorem prefix_iff_names {base : String} (hbase : base.toList.getLast? = some '/') (dir : String) :
    base.toList <+: dir.toList ↔ names base <+: names dir := by
  obtain ⟨front, hfront⟩ := List.getLast?_eq_some_iff.mp hbase
  have hnames : names base = front.splitOn '/' := by
    have h := names_append front []
    rw [← hfront, String.ofList_toList] at h
    simpa using h
  rw [hnames, hfront]
  constructor
  · rintro ⟨rest, hrest⟩
    have h := names_append front rest
    have hdir : front ++ '/' :: rest = dir.toList := by simpa using hrest
    rw [hdir, String.ofList_toList] at h
    exact ⟨_, h.symm⟩
  · rintro ⟨more, hmore⟩
    -- The names of the directory, with what follows its last slash, are those of a longer path.
    have hlast := List.dropLast_concat_getLast (List.splitOn_ne_nil '/' dir.toList)
    generalize (dir.toList.splitOn '/').getLast _ = last at hlast
    have hpieces : dir.toList.splitOn '/' = front.splitOn '/' ++ (more ++ [last]) := by
      rw [← hlast, ← List.append_assoc, hmore]
      rfl
    have hclean : ∀ piece ∈ more ++ [last], '/' ∉ piece := fun piece hpiece =>
      not_mem_of_mem_splitOn (hpieces ▸ List.mem_append_right _ hpiece)
    have hdir : ['/'].intercalate (dir.toList.splitOn '/') = dir.toList :=
      List.intercalate_splitOn '/'
    rw [hpieces, ← List.splitOn_intercalate '/' hclean (by simp), ← List.splitOn_append_cons_self,
      List.intercalate_splitOn] at hdir
    exact ⟨['/'].intercalate (more ++ [last]), by simpa using hdir⟩

/-! The namespace -/

def SpelledFrom (space : String) (path : List Char) : Prop :=
  space.toList.getLast? ≠ some '\\' ∧
    ∃ n, path.map (fun c => if c = '/' then '\\' else c) = space.toList ++ List.replicate n '\\'

theorem SpelledFrom.slash_not_mem {space : String} {path : List Char}
    (h : SpelledFrom space path) : '/' ∉ space.toList := by
  obtain ⟨-, n, hn⟩ := h
  intro hmem
  have hslash : '/' ∈ path.map fun c => if c = '/' then '\\' else c :=
    hn ▸ List.mem_append_left _ hmem
  obtain ⟨c, -, hc⟩ := List.mem_map.mp hslash
  split at hc
  · exact absurd hc (by decide)
  · next hne => exact hne hc

structure Derived (ms : List Mapping) (dir space : String) : Prop where
  rule : (∃ m rest, IsNearest ms dir m ∧ dir.toList = m.base.toList ++ rest ∧
      SpelledFrom space (m.space.toList ++ rest)) ∨
    ((∀ m ∈ ms, ¬ m.Fits dir) ∧ SpelledFrom space dir.toList)
  whole_names : ∀ m ∈ ms, m.Fits dir ↔ m.base ≠ "" ∧ names m.base <+: names dir
  no_slash : '/' ∉ space.toList
  no_end : space.toList.getLast? ≠ some '\\'

theorem spelledFrom_trimmed (path : List Char) :
    SpelledFrom (String.ofList ((path.map fun c => if c = '/' then '\\' else c).reverse.dropWhile
      (· = '\\')).reverse) path := by
  generalize hcs : (path.map fun c => if c = '/' then '\\' else c) = cs
  rw [SpelledFrom, String.toList_ofList, hcs, List.getLast?_reverse]
  constructor
  · have hhead := List.head?_dropWhile_not (· = '\\') cs.reverse
    intro hlast
    rw [hlast] at hhead
    exact absurd hhead (by simp)
  · have hsplit : cs.reverse.takeWhile (· = '\\') ++ cs.reverse.dropWhile (· = '\\') = cs.reverse :=
      List.takeWhile_append_dropWhile
    have hend : (cs.reverse.takeWhile (· = '\\')).reverse =
        List.replicate (cs.reverse.takeWhile (· = '\\')).length '\\' := by
      refine List.eq_replicate_iff.mpr ⟨List.length_reverse, fun c hc => ?_⟩
      exact of_decide_eq_true (List.all_eq_true.mp List.all_takeWhile c (List.mem_reverse.mp hc))
    refine ⟨(cs.reverse.takeWhile (· = '\\')).length, ?_⟩
    rw [← hend, ← List.reverse_append, hsplit, List.reverse_reverse]

theorem derived_spaceOf {ms : List Mapping} (hms : ∀ m ∈ ms, m.base = "" ∨
    m.base.toList.getLast? = some '/') (dir : String) : Derived ms dir (spaceOf ms dir) := by
  have hspelled (path : List Char) (hpath : spaceOf ms dir = String.ofList
      ((path.map fun c => if c = '/' then '\\' else c).reverse.dropWhile (· = '\\')).reverse) :
      SpelledFrom (spaceOf ms dir) path :=
    hpath ▸ spelledFrom_trimmed path
  have hrule : (∃ m rest, IsNearest ms dir m ∧ dir.toList = m.base.toList ++ rest ∧
      SpelledFrom (spaceOf ms dir) (m.space.toList ++ rest)) ∨
        ((∀ m ∈ ms, ¬ m.Fits dir) ∧ SpelledFrom (spaceOf ms dir) dir.toList) := by
    cases hlongest : longest (ms.filter (·.covers dir)) with
    | some m =>
        have hnearest := isNearest_of_longest hlongest
        obtain ⟨rest, hrest⟩ := hnearest.fits.2
        refine .inl ⟨m, rest, hnearest, hrest.symm, hspelled _ ?_⟩
        rw [spaceOf, hlongest]
        dsimp only
        rw [← hrest, ← String.length_toList, List.drop_left]
    | none =>
        refine .inr ⟨fun m hm hfits => ?_, hspelled _ (by rw [spaceOf, hlongest])⟩
        have hmem := mem_filter_covers hm hfits
        rw [longest_eq_none hlongest] at hmem
        exact absurd hmem List.not_mem_nil
  have hspace : ∃ path, SpelledFrom (spaceOf ms dir) path := by
    rcases hrule with ⟨m, rest, -, -, h⟩ | ⟨-, h⟩ <;> exact ⟨_, h⟩
  obtain ⟨path, hpath⟩ := hspace
  refine ⟨hrule, fun m hm => ?_, hpath.slash_not_mem, hpath.1⟩
  refine and_congr_right fun hne => ?_
  rcases hms m hm with h | h
  · exact absurd h hne
  · exact prefix_iff_names h dir

end Mapping

open Mapping

theorem namespaceOf_ofJson (json : Json) (root dir : Path) :
    IsTableOf (ofJson json) json ∧
      ((¬ dir.IsUnder root ∧ namespaceOf (ofJson json) root dir = "") ∨
        ∃ relative, dir.relativeTo? root = some relative ∧ dir.IsUnder root ∧
          dir.parts = root.parts ++ relative.parts ∧
          Derived (ofJson json) (normalDirectory relative.lossy)
            (namespaceOf (ofJson json) root dir)) := by
  have htable := isTableOf_ofJson json
  refine ⟨htable, ?_⟩
  rcases Path.relativeTo?_cases dir root with ⟨hnone, hout⟩ | ⟨relative, hsome, hunder, hparts⟩
  · exact .inl ⟨hout, by rw [namespaceOf, hnone]⟩
  · refine .inr ⟨relative, hsome, hunder, hparts, ?_⟩
    rw [namespaceOf, hsome]
    exact derived_spaceOf htable.base_closed _

-- A directory ends where a name ends.
example : (⟨"App\\", "src/"⟩ : Mapping).Fits "src/foo/" ∧
    ¬ (⟨"App\\", "src/"⟩ : Mapping).Fits "srcfoo/" := by
  decide

/-! Mappings onto the project itself -/

namespace Mapping

def isRoot (m : Mapping) : Bool :=
  m.base == "" || m.base == "./"

theorem isRoot_normal {m : Mapping} (h : m.base ∈ ["", ".", "./"]) : m.normal.isRoot = true := by
  obtain ⟨space, base⟩ := m
  have hbase : ∀ path ∈ ["", ".", "./"],
      normalDirectory path == "" || normalDirectory path == "./" := by decide
  exact hbase base h

section

variable {dir : String} (hdir : ¬ "./".toList <+: dir.toList)
include hdir

theorem not_fits_of_isRoot {m : Mapping} (h : m.isRoot = true) : ¬ m.Fits dir := by
  rintro ⟨hne, hfits⟩
  have hbase : m.base = "./" := by simpa [isRoot, hne] using h
  exact hdir (hbase ▸ hfits)

theorem spaceOf_filter_isRoot (ms : List Mapping) :
    spaceOf (ms.filter (!·.isRoot)) dir = spaceOf ms dir := by
  have hcovering : (ms.filter (!·.isRoot)).filter (·.covers dir) = ms.filter (·.covers dir) := by
    rw [List.filter_filter]
    refine List.filter_congr fun m _ => ?_
    cases hroot : m.isRoot with
    | false => simp
    | true =>
        have hnot : m.covers dir = false :=
          Bool.eq_false_iff.mpr fun h => not_fits_of_isRoot hdir hroot (covers_iff.mp h)
        simp [hnot]
  rw [spaceOf, spaceOf, hcovering]

end

end Mapping

theorem namespaceOf_root_mapping {json : Json} {root dir relative : Path}
    (hrelative : dir.relativeTo? root = some relative)
    (hdir : ¬ "./".toList <+: (normalDirectory relative.lossy).toList) :
    (∀ w ∈ written json, w.base ∈ ["", ".", "./"] →
        w.normal ∈ ofJson json ∧ w.normal.isRoot = true) ∧
      namespaceOf ((ofJson json).filter (!·.isRoot)) root dir = namespaceOf (ofJson json) root dir ∧
      ((∀ m ∈ ofJson json, m.Fits (normalDirectory relative.lossy) → m.isRoot = true) →
        SpelledFrom (namespaceOf (ofJson json) root dir)
          (normalDirectory relative.lossy).toList) := by
  have htable := isTableOf_ofJson json
  refine ⟨fun w hw hbase => ⟨?_, isRoot_normal hbase⟩, ?_, fun hothers => ?_⟩
  · exact htable.listed.mem_iff.mpr (List.mem_map_of_mem hw)
  · rw [namespaceOf, namespaceOf, hrelative]
    exact spaceOf_filter_isRoot hdir _
  · rw [namespaceOf, hrelative]
    rcases (derived_spaceOf htable.base_closed _).rule with ⟨m, rest, hnearest, -, -⟩ | ⟨-, hown⟩
    · obtain ⟨before, after, hms, -, -⟩ := hnearest.last
      have hm : m ∈ ofJson json := by simp [hms]
      exact absurd hnearest.fits (not_fits_of_isRoot hdir (hothers m hm hnearest.fits))
    · exact hown

def rootMapped (path : String) : Json :=
  .object [("autoload", .object [("psr-4", .object [("App\\", .string path)])])]

theorem namespaceOf_root_mapping_sample :
    (Path.ofString "/ws/src/Http").relativeTo? (Path.ofString "/ws") =
        some (Path.ofString "src/Http") ∧
      ¬ "./".toList <+: (normalDirectory (Path.ofString "src/Http").lossy).toList ∧
      ⟨"App\\", "."⟩ ∈ written (rootMapped ".") ∧
      namespaceOf ((ofJson (rootMapped ".")).filter (!·.isRoot)) (Path.ofString "/ws")
          (Path.ofString "/ws/src/Http") =
        namespaceOf (ofJson (rootMapped ".")) (Path.ofString "/ws")
          (Path.ofString "/ws/src/Http") := by
  have hrelative : (Path.ofString "/ws/src/Http").relativeTo? (Path.ofString "/ws") =
      some (Path.ofString "src/Http") := by decide +kernel
  have hdir : ¬ "./".toList <+: (normalDirectory (Path.ofString "src/Http").lossy).toList := by
    decide +kernel
  exact ⟨hrelative, hdir, by decide, (namespaceOf_root_mapping hrelative hdir).2.1⟩

theorem ofJson_rootMapped (path : String) :
    ofJson (rootMapped path) = [⟨"App\\", normalDirectory path⟩] := by
  have h : ofSection (rootMapped path) "autoload" ++ ofSection (rootMapped path) "autoload-dev" =
      [⟨"App\\", normalDirectory path⟩] := rfl
  rw [ofJson, h, List.mergeSort_singleton]

theorem namespaceOf_rootMapped :
    ["", ".", "./"].flatMap (fun path => written (rootMapped path)) =
        [⟨"App\\", ""⟩, ⟨"App\\", "."⟩, ⟨"App\\", "./"⟩] ∧
      ["", ".", "./"].map (fun path => namespaceOf (ofJson (rootMapped path))
          (Path.ofString "/ws") (Path.ofString "/ws/src/Http")) =
        ["src\\Http", "src\\Http", "src\\Http"] := by
  simp only [ofJson_rootMapped]
  decide +kernel

end Scaffold
