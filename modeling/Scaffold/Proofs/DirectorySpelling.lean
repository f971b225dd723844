import Scaffold.Proofs.Namespaces
/-!
Spellings of one directory: with backslashes for slashes, with any number of leading dots (each with
its slash), or without the slash at the end. The normal form drops one leading dot and adds the slash
only then. So a path with two leading dots keeps one, and a lone dot turns into one. All other
spellings of a directory have the same normal form, and normalising it again changes nothing.
-/
namespace Scaffold

namespace Directory

def slashed (cs : List Char) : List Char :=
  cs.map fun c => if c = '\\' then '/' else c

def closed (cs : List Char) : List Char :=
  if cs = [] ∨ cs.getLast? = some '/' then cs else cs ++ ['/']

def dropDot : List Char → List Char
  | '.' :: '/' :: cs => cs
  | cs => cs

def dropDots : List Char → List Char
  | '.' :: '/' :: cs => dropDots cs
  | cs => cs

def dots : List Char → Nat
  | '.' :: '/' :: cs => dots cs + 1
  | _ => 0

def StartsWithDot (cs : List Char) : Prop :=
  ['.', '/'] <+: cs

theorem toList_normalDirectory (path : String) :
    (normalDirectory path).toList = closed (dropDot (slashed path.toList)) := by
  have h : normalDirectory path =
      if dropDot (slashed path.toList) = [] || (dropDot (slashed path.toList)).getLast? = some '/'
      then String.ofList (dropDot (slashed path.toList))
      else String.ofList (dropDot (slashed path.toList) ++ ['/']) := rfl
  rw [h, closed]
  split
  · next hclosed => rw [String.toList_ofList, if_pos (by simpa using hclosed)]
  · next hopen => rw [String.toList_ofList, if_neg (by simpa using hopen)]

/-! Slashes -/

theorem backslash_not_mem_slashed (cs : List Char) : '\\' ∉ slashed cs := by
  intro hmem
  obtain ⟨c, -, hc⟩ := List.mem_map.mp hmem
  split at hc
  · cases hc
  · next hne => exact hne hc

theorem slashed_eq_self {cs : List Char} (h : '\\' ∉ cs) : slashed cs = cs := by
  refine (List.map_congr_left fun c hc => ?_).trans (List.map_id cs)
  exact if_neg fun heq => h (by rwa [heq] at hc)

theorem closed_eq_self {cs : List Char} (h : cs = [] ∨ cs.getLast? = some '/') : closed cs = cs :=
  if_pos h

theorem closed_snoc {cs : List Char} (hne : cs ≠ []) (hlast : cs.getLast? ≠ some '/') :
    closed (cs ++ ['/']) = closed cs := by
  rw [closed_eq_self (.inr (by simp)), closed, if_neg (not_or.mpr ⟨hne, hlast⟩)]

theorem closed_dot (cs : List Char) : closed ('.' :: '/' :: cs) = '.' :: '/' :: closed cs := by
  cases cs with
  | nil => rfl
  | cons c cs =>
      unfold closed
      rw [List.getLast?_cons_cons, List.getLast?_cons_cons]
      simp only [reduceCtorEq, false_or]
      split <;> rfl

theorem dropDot_subset (cs : List Char) : dropDot cs ⊆ cs := by
  unfold dropDot
  split
  · exact fun c hc => by simp [hc]
  · exact fun c hc => hc

theorem backslash_not_mem_dropDot (cs : List Char) : '\\' ∉ dropDot (slashed cs) := fun hmem =>
  backslash_not_mem_slashed cs (dropDot_subset _ hmem)

theorem backslash_not_mem_normalDirectory (path : String) :
    '\\' ∉ (normalDirectory path).toList := by
  rw [toList_normalDirectory, closed]
  split
  · exact backslash_not_mem_dropDot _
  · simpa using backslash_not_mem_dropDot path.toList

theorem getLast?_normalDirectory (path : String) :
    (normalDirectory path).toList = [] ∨ (normalDirectory path).toList.getLast? = some '/' :=
  (Mapping.normalDirectory_cases path).imp_left String.toList_eq_nil_iff.mpr

/-! Leading dots -/

theorem startsWithDot_iff {cs : List Char} : StartsWithDot cs ↔ ∃ rest, cs = '.' :: '/' :: rest := by
  constructor
  · rintro ⟨rest, rfl⟩
    exact ⟨rest, rfl⟩
  · rintro ⟨rest, rfl⟩
    exact ⟨rest, rfl⟩

theorem dropDot_eq_self {cs : List Char} (h : ¬StartsWithDot cs) : dropDot cs = cs := by
  unfold dropDot
  split
  · exact absurd (startsWithDot_iff.mpr ⟨_, rfl⟩) h
  · rfl

theorem dropDots_eq_self {cs : List Char} (h : ¬StartsWithDot cs) : dropDots cs = cs := by
  unfold dropDots
  split
  · exact absurd (startsWithDot_iff.mpr ⟨_, rfl⟩) h
  · rfl

theorem startsWithDot_closed {cs : List Char} :
    StartsWithDot (closed cs) ↔ cs = ['.'] ∨ StartsWithDot cs := by
  match cs with
  | [] => simp [closed, startsWithDot_iff]
  | [c] =>
      by_cases hslash : c = '/'
      · simp [closed, startsWithDot_iff, hslash]
      · simp [closed, startsWithDot_iff, hslash]
  | c :: d :: rest =>
      have hlonger : closed (c :: d :: rest) = c :: d :: rest ∨
          closed (c :: d :: rest) = c :: d :: (rest ++ ['/']) := by
        unfold closed
        split
        · exact .inl rfl
        · exact .inr rfl
      rcases hlonger with h | h <;> simp [h, startsWithDot_iff]

theorem dots_ne_zero_iff {cs : List Char} : dots cs ≠ 0 ↔ StartsWithDot cs := by
  rw [startsWithDot_iff]
  unfold dots
  split
  · simp
  · next hno => simpa using fun rest h => hno rest h

theorem eq_dots_append (cs : List Char) :
    cs = (List.replicate (dots cs) ['.', '/']).flatten ++ dropDots cs := by
  fun_induction dots cs with
  | case1 cs ih =>
      rw [List.replicate_succ, List.flatten_cons, List.append_assoc]
      exact congrArg (['.', '/'] ++ ·) ih
  | case2 cs hno =>
      rw [dropDots_eq_self fun h => (startsWithDot_iff.mp h).elim hno]
      rfl

def KeepsDot (cs : List Char) : Prop :=
  slashed cs = ['.'] ∨ slashed cs = ['.', '/', '.'] ∨ ['.', '/', '.', '/'] <+: slashed cs

instance (cs : List Char) : Decidable (KeepsDot cs) :=
  inferInstanceAs (Decidable (_ ∨ _ ∨ _))

def keptDots (cs : List Char) : Nat :=
  -- A lone dot gets its slash too late to be dropped.
  if slashed cs = ['.'] then 1 else dots (closed (slashed cs)) - 1

theorem dots_closed_dropDot (cs : List Char) :
    dots (closed (dropDot cs)) = if cs = ['.'] then 1 else dots (closed cs) - 1 := by
  by_cases hdot : StartsWithDot cs
  · obtain ⟨rest, rfl⟩ := startsWithDot_iff.mp hdot
    rw [closed_dot, if_neg (by simp)]
    rfl
  · rw [dropDot_eq_self hdot]
    split
    · next hlone => rw [hlone]; rfl
    · next hlone =>
        have hzero : dots (closed cs) = 0 := by
          refine Decidable.not_not.mp fun hne => ?_
          exact (startsWithDot_closed.mp (dots_ne_zero_iff.mp hne)).elim hlone hdot
        rw [hzero]

theorem dropDots_closed_dropDot (cs : List Char) :
    dropDots (closed (dropDot cs)) = dropDots (closed cs) := by
  by_cases hdot : StartsWithDot cs
  · obtain ⟨rest, rfl⟩ := startsWithDot_iff.mp hdot
    rw [closed_dot]
    rfl
  · rw [dropDot_eq_self hdot]

theorem dots_normalDirectory (path : String) :
    dots (normalDirectory path).toList = keptDots path.toList := by
  rw [toList_normalDirectory, dots_closed_dropDot, keptDots]

theorem dropDots_normalDirectory (path : String) :
    dropDots (normalDirectory path).toList = dropDots (closed (slashed path.toList)) := by
  rw [toList_normalDirectory, dropDots_closed_dropDot]

theorem startsWithDot_normalDirectory (path : String) :
    StartsWithDot (normalDirectory path).toList ↔ KeepsDot path.toList := by
  rw [toList_normalDirectory, startsWithDot_closed, KeepsDot]
  by_cases hdot : StartsWithDot (slashed path.toList)
  · obtain ⟨rest, hrest⟩ := startsWithDot_iff.mp hdot
    rw [hrest, show dropDot ('.' :: '/' :: rest) = rest from rfl]
    simp [StartsWithDot]
  · have hlong : ∀ rest, ['.', '/'] ++ rest ≠ slashed path.toList := fun rest h => hdot ⟨rest, h⟩
    rw [dropDot_eq_self hdot]
    refine or_congr_right ⟨fun h => absurd h hdot, ?_⟩
    rintro (h | ⟨rest, h⟩)
    · exact absurd h.symm (hlong ['.'])
    · exact absurd h (hlong ('.' :: '/' :: rest))

/-! Spellings -/

inductive Respelled : List Char → List Char → Prop
  | slashes {cs ds} : slashed cs = slashed ds → Respelled cs ds
  | dot (cs) : Respelled ('.' :: '/' :: cs) cs
  | slash {cs} : cs ≠ [] → (slashed cs).getLast? ≠ some '/' → Respelled (cs ++ ['/']) cs
  | symm {cs ds} : Respelled cs ds → Respelled ds cs
  | trans {cs ds es} : Respelled cs ds → Respelled ds es → Respelled cs es

theorem Respelled.dropDots_eq {cs ds : List Char} (h : Respelled cs ds) :
    dropDots (closed (slashed cs)) = dropDots (closed (slashed ds)) := by
  induction h with
  | slashes heq => rw [heq]
  | dot cs =>
      rw [show slashed ('.' :: '/' :: cs) = '.' :: '/' :: slashed cs from rfl, closed_dot]
      rfl
  | @slash cs hne hlast =>
      have hslashed : slashed (cs ++ ['/']) = slashed cs ++ ['/'] := List.map_append
      rw [hslashed, closed_snoc (by simpa [slashed] using hne) hlast]
  | symm _ ih => exact ih.symm
  | trans _ _ ih ih' => exact ih.trans ih'

theorem respelled_slashed (cs : List Char) : Respelled cs (slashed cs) :=
  .slashes (slashed_eq_self (backslash_not_mem_slashed cs)).symm

theorem respelled_dropDot (cs : List Char) : Respelled cs (dropDot cs) := by
  by_cases hdot : StartsWithDot cs
  · obtain ⟨rest, rfl⟩ := startsWithDot_iff.mp hdot
    exact .dot rest
  · rw [dropDot_eq_self hdot]
    exact .slashes rfl

theorem respelled_closed {cs : List Char} (h : '\\' ∉ cs) : Respelled cs (closed cs) := by
  unfold closed
  split
  · exact .slashes rfl
  · next hopen =>
      obtain ⟨hne, hlast⟩ := not_or.mp hopen
      exact .symm (.slash hne (by rwa [slashed_eq_self h]))

theorem respelled_normalDirectory (path : String) :
    Respelled path.toList (normalDirectory path).toList := by
  rw [toList_normalDirectory]
  exact (respelled_slashed _).trans
    ((respelled_dropDot _).trans (respelled_closed (backslash_not_mem_dropDot _)))

theorem normalDirectory_eq_iff (path other : String) :
    normalDirectory path = normalDirectory other ↔
      Respelled path.toList other.toList ∧ keptDots path.toList = keptDots other.toList := by
  constructor
  · intro h
    refine ⟨(respelled_normalDirectory path).trans ?_, ?_⟩
    · rw [h]
      exact (respelled_normalDirectory other).symm
    · rw [← dots_normalDirectory, ← dots_normalDirectory, h]
  · rintro ⟨hrespelled, hkept⟩
    refine String.toList_inj.mp ?_
    rw [eq_dots_append (normalDirectory path).toList, eq_dots_append (normalDirectory other).toList,
      dots_normalDirectory, dots_normalDirectory, dropDots_normalDirectory,
      dropDots_normalDirectory, hkept, hrespelled.dropDots_eq]

theorem keptDots_eq_zero_iff (path : String) :
    keptDots path.toList = 0 ↔ ¬KeepsDot path.toList := by
  rw [← dots_normalDirectory, ← startsWithDot_normalDirectory, ← dots_ne_zero_iff,
    Decidable.not_not]

-- A normal form is closed and has no backslash, so normalising it again does nothing but drop a dot.
theorem keptDots_normalDirectory (path : String) :
    keptDots (normalDirectory path).toList = keptDots path.toList - 1 := by
  have hlone : (normalDirectory path).toList ≠ ['.'] := fun h => by
    simpa [h] using getLast?_normalDirectory path
  rw [keptDots, slashed_eq_self (backslash_not_mem_normalDirectory path), if_neg hlone,
    closed_eq_self (getLast?_normalDirectory path), dots_normalDirectory]

theorem normalDirectory_twice_iff (path : String) :
    normalDirectory (normalDirectory path) = normalDirectory path ↔ ¬KeepsDot path.toList := by
  rw [normalDirectory_eq_iff, keptDots_normalDirectory, ← keptDots_eq_zero_iff]
  constructor
  · rintro ⟨-, hkept⟩
    omega
  · intro hzero
    exact ⟨(respelled_normalDirectory path).symm, by omega⟩

structure IsNormalOf (normal path : List Char) : Prop where
  forward : '\\' ∉ normal
  ended : normal = [] ∨ normal.getLast? = some '/'
  respelled : Respelled path normal
  dotted : StartsWithDot normal ↔ KeepsDot path

theorem isNormalOf_normalDirectory (path : String) :
    IsNormalOf (normalDirectory path).toList path.toList where
  forward := backslash_not_mem_normalDirectory path
  ended := getLast?_normalDirectory path
  respelled := respelled_normalDirectory path
  dotted := startsWithDot_normalDirectory path

end Directory

open Directory

theorem normalDirectory_canonical (path : String) :
    IsNormalOf (normalDirectory path).toList path.toList ∧
      (normalDirectory (normalDirectory path) = normalDirectory path ↔ ¬KeepsDot path.toList) ∧
      (∀ other : String, normalDirectory path = normalDirectory other ↔
        Respelled path.toList other.toList ∧ keptDots path.toList = keptDots other.toList) ∧
      ∀ other : String, ¬KeepsDot path.toList → ¬KeepsDot other.toList →
        Respelled path.toList other.toList → normalDirectory path = normalDirectory other := by
  refine ⟨isNormalOf_normalDirectory path, normalDirectory_twice_iff path,
    normalDirectory_eq_iff path, fun other hpath hother hrespelled => ?_⟩
  have hkept : keptDots path.toList = keptDots other.toList := by
    rw [(keptDots_eq_zero_iff path).mpr hpath, (keptDots_eq_zero_iff other).mpr hother]
  exact (normalDirectory_eq_iff path other).mpr ⟨hrespelled, hkept⟩

theorem normalDirectory_canonical_backslash :
    Respelled ".\\src\\Http".toList "src/Http/".toList ∧
      normalDirectory ".\\src\\Http" = normalDirectory "src/Http/" := by
  have hslashes : Respelled ".\\src\\Http".toList "./src/Http".toList := .slashes (by decide)
  have hdot : Respelled "./src/Http".toList "src/Http".toList := .dot _
  have hslash : Respelled "src/Http/".toList "src/Http".toList :=
    @Respelled.slash "src/Http".toList (by decide) (by decide)
  have hrespelled := hslashes.trans (hdot.trans hslash.symm)
  exact ⟨hrespelled, (normalDirectory_canonical _).2.2.2 _ (by decide) (by decide) hrespelled⟩

theorem normalDirectory_keeps_dot :
    Respelled "././src".toList "src".toList ∧
      ["././src", "src", ".", "./"].map normalDirectory = ["./src/", "src/", "./", ""] ∧
      normalDirectory (normalDirectory "././src") = "src/" :=
  ⟨.trans (.dot "./src".toList) (.dot "src".toList), by decide, by decide⟩

end Scaffold
