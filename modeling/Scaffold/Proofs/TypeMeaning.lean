import Mathlib.Data.List.Nodup
import Mathlib.Data.Set.Insert
import Scaffold.Proofs.Distinct
import Scaffold.Proofs.TypeSpelling
/-!
What a type means in its two spellings. A spelling is read back as the alternatives between its
bars, and a question mark as one more alternative `null`. However a type is nested, both spellings
of its union are read as the same set: its leaves, and `null` if a question mark was passed.
-/
namespace Scaffold

/-! Reading the alternatives of a spelling -/

def depthAfter (depth : Nat) (c : Char) : Nat :=
  if c = '(' then depth + 1 else if c = ')' then depth - 1 else depth

def topParts : Nat → List Char → List (List Char)
  | _, [] => [[]]
  | depth, c :: cs =>
      if c = '|' ∧ depth = 0 then [] :: topParts 0 cs
      else (topParts (depthAfter depth c) cs).modifyHead (c :: ·)

def IsEnclosed : Nat → List Char → Prop
  | depth, [] => depth = 0
  | depth, c :: cs => ¬(c = '|' ∧ depth = 0) ∧ IsEnclosed (depthAfter depth c) cs

instance decidableIsEnclosed : (depth : Nat) → (cs : List Char) → Decidable (IsEnclosed depth cs)
  | depth, [] => inferInstanceAs (Decidable (depth = 0))
  | depth, c :: cs =>
      have := decidableIsEnclosed (depthAfter depth c) cs
      inferInstanceAs (Decidable (_ ∧ _))

theorem topParts_of_isEnclosed {depth : Nat} {cs : List Char} (h : IsEnclosed depth cs) :
    topParts depth cs = [cs] := by
  induction cs generalizing depth with
  | nil => rfl
  | cons c cs ih => rw [topParts, if_neg h.1, ih h.2, List.modifyHead_cons]

theorem topParts_append_bar {depth : Nat} {cs : List Char} (h : IsEnclosed depth cs)
    (more : List Char) : topParts depth (cs ++ '|' :: more) = cs :: topParts 0 more := by
  induction cs generalizing depth with
  | nil =>
      rw [List.nil_append, topParts, if_pos ⟨rfl, h⟩]
  | cons c cs ih => rw [List.cons_append, topParts, if_neg h.1, ih h.2, List.modifyHead_cons]

def docAlternatives (text : String) : List String :=
  (topParts 0 text.toList).map String.ofList

def declaredAlternatives (text : String) : List String :=
  match text.toList with
  | '?' :: only => [String.ofList only, "null"]
  | _ => docAlternatives text

/-- A text that stands for one alternative: no bar cuts it, and no question mark begins it. -/
structure IsAlternative (t : String) : Prop where
  enclosed : IsEnclosed 0 t.toList
  unmarked : t.toList.head? ≠ some '?'

instance (t : String) : Decidable (IsAlternative t) :=
  decidable_of_iff (IsEnclosed 0 t.toList ∧ t.toList.head? ≠ some '?')
    ⟨fun h => ⟨h.1, h.2⟩, fun h => ⟨h.enclosed, h.unmarked⟩⟩

theorem isAlternative_null : IsAlternative "null" := by
  decide

section

variable {t : String} {ts : List String}

theorem docAlternatives_intercalate (h : ∀ u ∈ t :: ts, IsAlternative u) :
    docAlternatives (String.intercalate "|" (t :: ts)) = t :: ts := by
  unfold docAlternatives
  induction ts generalizing t with
  | nil =>
      have ht := topParts_of_isEnclosed (h t (by simp)).enclosed
      simp [ht]
  | cons u us ih =>
      have ht := topParts_append_bar (h t (by simp)).enclosed
        (String.intercalate "|" (u :: us)).toList
      have htext : (String.intercalate "|" (t :: u :: us)).toList =
          t.toList ++ '|' :: (String.intercalate "|" (u :: us)).toList := by
        rw [String.intercalate_cons_cons]
        simp
      rw [htext, ht, List.map_cons, ih fun v hv => h v (by simp [hv]), String.ofList_toList]

theorem head?_intercalate (h : t.toList.head? ≠ some '?') :
    (String.intercalate "|" (t :: ts)).toList.head? ≠ some '?' := by
  cases ts with
  | nil => simpa using h
  | cons u us =>
      rw [String.intercalate_cons_cons]
      cases hcs : t.toList with
      | nil => simp [hcs]
      | cons c cs => simpa [hcs] using h

theorem declaredAlternatives_of_unmarked (h : t.toList.head? ≠ some '?') :
    declaredAlternatives t = docAlternatives t := by
  unfold declaredAlternatives
  split
  · next hcs => simp [hcs] at h
  · rfl

theorem declaredAlternatives_intercalate (h : ∀ u ∈ t :: ts, IsAlternative u) :
    declaredAlternatives (String.intercalate "|" (t :: ts)) = t :: ts := by
  rw [declaredAlternatives_of_unmarked (head?_intercalate (h t (by simp)).unmarked),
    docAlternatives_intercalate h]

end

/-! The alternatives of a union -/

namespace UnionType

variable {u : UnionType}

theorem mem_alternatives_iff {t : String} :
    t ∈ u.alternatives ↔ t ∈ u.members ∨ u.nullable = true ∧ t = "null" := by
  unfold alternatives
  by_cases hnull : "null" ∈ u.members
  · simp only [hnull, List.contains_eq_mem, decide_true, Bool.not_true, Bool.and_false,
      Bool.false_eq_true, if_false]
    constructor
    · exact .inl
    · rintro (ht | ⟨-, rfl⟩)
      · exact ht
      · exact hnull
  · cases u.nullable <;> simp [hnull]

theorem isAlternative_of_mem (h : ∀ t ∈ u.members, IsAlternative t) :
    ∀ t ∈ u.alternatives, IsAlternative t := by
  intro t ht
  rcases mem_alternatives ht with ht | rfl
  · exact h t ht
  · exact isAlternative_null

def alternativesNullLast (u : UnionType) : List String :=
  u.alternatives.filter (· != "null") ++ if u.alternatives.contains "null" then ["null"] else []

theorem mem_alternativesNullLast {t : String} :
    t ∈ u.alternativesNullLast ↔ t ∈ u.alternatives := by
  unfold alternativesNullLast
  by_cases hnull : "null" ∈ u.alternatives
  · by_cases ht : t = "null"
    · simp [ht, hnull]
    · simp [ht, hnull]
  · have hne : t ∈ u.alternatives → t ≠ "null" := by
      rintro ht rfl
      exact hnull ht
    simpa [hnull] using hne

theorem nodup_alternativesNullLast (h : u.members.Nodup) : u.alternativesNullLast.Nodup := by
  have hothers : (u.alternatives.filter (· != "null")).Nodup := (nodup_alternatives h).filter _
  unfold alternativesNullLast
  split
  · refine List.nodup_append.mpr ⟨hothers, by simp, ?_⟩
    rintro t ht _ hnull rfl
    rw [List.mem_singleton.mp hnull] at ht
    exact absurd (List.mem_filter.mp ht).2 (by decide)
  · rwa [List.append_nil]

section

variable (hne : u.members ≠ []) (halternatives : ∀ t ∈ u.members, IsAlternative t)

include hne halternatives

theorem docAlternatives_docText : docAlternatives u.docText = u.alternatives := by
  have hall := isAlternative_of_mem halternatives
  obtain ⟨t, ts, hts⟩ := List.exists_cons_of_ne_nil (alternatives_ne_nil hne)
  rw [docText, if_neg hne, hts]
  exact docAlternatives_intercalate (hts ▸ hall)

theorem declaredAlternatives_declaredText :
    declaredAlternatives u.declaredText = u.alternativesNullLast := by
  have hall := isAlternative_of_mem halternatives
  have hothers : ∀ t ∈ u.alternatives.filter (· != "null"), IsAlternative t :=
    fun t ht => hall t (List.mem_filter.mp ht).1
  obtain ⟨h, hdeclared⟩ : ∃ h, Declared u h := ⟨_, declared u⟩
  rw [← hdeclared.text, alternativesNullLast]
  cases hdeclared with
  | mixed hempty => exact absurd hempty hne
  | null _ hnull hrest =>
      rw [hrest, if_pos hnull]
      rfl
  | @nullable t _ hnull hrest =>
      rw [hrest, if_pos hnull, Php.Hint.text, declaredAlternatives]
      simp [Php.Hint.text]
  | nullLast _ hnull hrest =>
      rw [hrest] at hothers
      rw [hrest, if_pos hnull, Php.Hint.text_unionOf]
      refine declaredAlternatives_intercalate (List.forall_mem_append.mpr ⟨hothers, ?_⟩)
      simpa using isAlternative_null
  | plain _ hnull hcons =>
      rw [filter_of_not_contains hnull, hnull, if_neg Bool.false_ne_true, List.append_nil, hcons,
        Php.Hint.text_unionOf]
      exact declaredAlternatives_intercalate (hcons ▸ hall)

/-- The question mark is for `null` with one other alternative. -/
theorem head?_declaredText_iff :
    u.declaredText.toList.head? = some '?' ↔
      u.alternatives.contains "null" = true ∧ ∃ t, u.alternatives.filter (· != "null") = [t] := by
  have hall := isAlternative_of_mem halternatives
  obtain ⟨h, hdeclared⟩ : ∃ h, Declared u h := ⟨_, declared u⟩
  rw [← hdeclared.text]
  cases hdeclared with
  | mixed hempty => exact absurd hempty hne
  | null _ hnull hrest => simp [Php.Hint.text, hrest]
  | @nullable t _ hnull hrest =>
      have hmark : ("?" ++ (Php.Hint.named t).text).toList.head? = some '?' := by simp
      exact iff_of_true hmark ⟨hnull, t, hrest⟩
  | @nullLast t _ _ _ hnull hrest =>
      have ht : t ∈ u.alternatives := (List.mem_filter.mp (hrest ▸ List.mem_cons_self)).1
      rw [Php.Hint.text_unionOf]
      refine iff_of_false (head?_intercalate (hall t ht).unmarked) ?_
      rintro ⟨-, t, hone⟩
      rw [hrest] at hone
      simp at hone
  | @plain t _ _ hnull hcons =>
      rw [Php.Hint.text_unionOf]
      refine iff_of_false (head?_intercalate (hall t (by simp [hcons])).unmarked) ?_
      rintro ⟨hmem, -⟩
      rw [hnull] at hmem
      exact Bool.false_ne_true hmem

end

theorem one_other_iff (h : u.members.Nodup) :
    (u.alternatives.contains "null" = true ∧ ∃ t, u.alternatives.filter (· != "null") = [t]) ↔
      ∃ t, t ≠ "null" ∧ {x | x ∈ u.alternatives} = {t, "null"} := by
  have hother {x t : String} (ht : u.alternatives.filter (· != "null") = [t]) (hx : x ≠ "null") :
      x ∈ u.alternatives ↔ x = t := by
    rw [← List.mem_singleton, ← ht, List.mem_filter]
    simp [hx]
  constructor
  · rintro ⟨hnull, t, ht⟩
    have hmem : t ∈ u.alternatives.filter (· != "null") := by simp [ht]
    refine ⟨t, by simpa using (List.mem_filter.mp hmem).2, ?_⟩
    ext x
    by_cases hx : x = "null"
    · simpa [hx] using hnull
    · simpa [hx] using hother ht hx
  · rintro ⟨t, ht, hset⟩
    have hmem (x : String) : x ∈ u.alternatives ↔ x = t ∨ x = "null" :=
      Set.ext_iff.mp hset x
    refine ⟨by simp [hmem], t, ?_⟩
    have hnodup : (u.alternatives.filter (· != "null")).Nodup := (nodup_alternatives h).filter _
    refine List.perm_singleton.mp
      ((List.perm_ext_iff_of_nodup hnodup (List.nodup_singleton t)).mpr fun x => ?_)
    rw [List.mem_filter, List.mem_singleton, hmem]
    constructor
    · rintro ⟨rfl | rfl, hx⟩
      · rfl
      · simp at hx
    · rintro rfl
      simpa using ht

end UnionType

/-! The alternatives of a type -/

namespace Php.Hint

def leaves : Hint → List String
  | nullable h => h.leaves
  | union l r => l.leaves ++ r.leaves
  | h => [h.text]

def PassesNullable : Hint → Prop
  | nullable _ => True
  | union l r => l.PassesNullable ∨ r.PassesNullable
  | _ => False

theorem leaves_ne_nil (h : Hint) : h.leaves ≠ [] := by
  induction h with
  | nullable h ih => exact ih
  | union l r ihl _ => exact List.append_ne_nil_of_left_ne_nil ihl r.leaves
  | _ => exact List.cons_ne_nil _ _

theorem members_addTo (h : Hint) (u : UnionType) :
    (h.addTo u).members = h.leaves.foldl appendNew u.members := by
  have hinsert (t : String) (u : UnionType) : (u.insert t).members = appendNew u.members t := by
    unfold UnionType.insert appendNew
    split <;> rfl
  induction h generalizing u with
  | nullable h ih => exact ih { u with nullable := true }
  | union l r ihl ihr => rw [addTo, leaves, List.foldl_append, ihr, ihl]
  | named t => exact hinsert t u
  | intersection l r _ _ => exact hinsert _ u
  | group h _ => exact hinsert _ u

theorem nullable_addTo (h : Hint) (u : UnionType) :
    (h.addTo u).nullable = true ↔ u.nullable = true ∨ h.PassesNullable := by
  have hinsert (t : String) (u : UnionType) : (u.insert t).nullable = u.nullable := by
    unfold UnionType.insert
    split <;> rfl
  induction h generalizing u with
  | nullable h ih => simp [addTo, ih, PassesNullable]
  | union l r ihl ihr => exact (ihr (l.addTo u)).trans ((or_congr_left (ihl u)).trans or_assoc)
  | named t => simp [addTo, hinsert, PassesNullable]
  | intersection l r _ _ => simp [addTo, hinsert, PassesNullable]
  | group h _ => simp [addTo, hinsert, PassesNullable]

theorem members_toUnion (h : Hint) : h.toUnion.members = h.leaves.eraseDups := by
  rw [toUnion, members_addTo, foldl_appendNew]
  simp

theorem nodup_members_toUnion (h : Hint) : h.toUnion.members.Nodup := by
  rw [toUnion, members_addTo]
  exact nodup_foldl_appendNew List.nodup_nil _

theorem nullable_toUnion (h : Hint) : h.toUnion.nullable = true ↔ h.PassesNullable := by
  simp [toUnion, nullable_addTo]

def alternatives (h : Hint) : Set String :=
  {t | t ∈ h.leaves ∨ h.PassesNullable ∧ t = "null"}

theorem mem_alternatives_toUnion {h : Hint} {t : String} :
    t ∈ h.toUnion.alternatives ↔ t ∈ h.alternatives := by
  rw [UnionType.mem_alternatives_iff, members_toUnion, List.mem_eraseDups, nullable_toUnion]
  rfl

theorem toUnion_spellings {h : Hint} (hleaves : ∀ t ∈ h.leaves, IsAlternative t) :
    let u := h.toUnion
    let doc := docAlternatives u.docText
    let declared := declaredAlternatives u.declaredText
    let marked := u.declaredText.toList.head? = some '?'
    u.members.Nodup ∧ u.members = h.leaves.eraseDups ∧
    (u.nullable = true ↔ h.PassesNullable) ∧
    {t | t ∈ doc} = h.alternatives ∧ {t | t ∈ declared} = h.alternatives ∧
    doc.count "null" ≤ 1 ∧ declared.count "null" ≤ 1 ∧
    (marked ↔ ∃ t, t ≠ "null" ∧ h.alternatives = {t, "null"}) ∧
    ("null" ∈ h.alternatives → ¬marked →
      (docAlternatives u.declaredText).getLast? = some "null") := by
  intro u doc declared marked
  have hmembers : u.members ≠ [] := by
    obtain ⟨t, ts, hts⟩ := List.exists_cons_of_ne_nil h.leaves_ne_nil
    rw [h.members_toUnion, hts, List.eraseDups_cons]
    simp
  have halternatives : ∀ t ∈ u.members, IsAlternative t := by
    intro t ht
    rw [h.members_toUnion, List.mem_eraseDups] at ht
    exact hleaves t ht
  have hdoc : doc = u.alternatives := UnionType.docAlternatives_docText hmembers halternatives
  have hdeclared : declared = u.alternativesNullLast :=
    UnionType.declaredAlternatives_declaredText hmembers halternatives
  have hnodup := h.nodup_members_toUnion
  refine ⟨hnodup, h.members_toUnion, h.nullable_toUnion, ?_, ?_, ?_, ?_, ?_, ?_⟩
  · ext t
    rw [hdoc]
    exact mem_alternatives_toUnion
  · ext t
    rw [hdeclared]
    exact UnionType.mem_alternativesNullLast.trans mem_alternatives_toUnion
  · rw [hdoc]
    exact List.nodup_iff_count_le_one.mp (UnionType.nodup_alternatives hnodup) "null"
  · rw [hdeclared]
    exact List.nodup_iff_count_le_one.mp (UnionType.nodup_alternativesNullLast hnodup) "null"
  · have hset : {x | x ∈ u.alternatives} = h.alternatives := by
      ext t
      exact mem_alternatives_toUnion
    rw [← hset]
    exact (UnionType.head?_declaredText_iff hmembers halternatives).trans
      (UnionType.one_other_iff hnodup)
  · intro hnull hmark
    have hcontains : u.alternatives.contains "null" = true := by
      simpa using mem_alternatives_toUnion.mpr hnull
    rw [← declaredAlternatives_of_unmarked hmark]
    change declared.getLast? = _
    rw [hdeclared, UnionType.alternativesNullLast, if_pos hcontains, List.getLast?_concat]

/-- A bar in parentheses, a name that is there twice, and `null` both as a name and as a mark. -/
theorem toUnion_spellings_nested :
    let h : Hint := .nullable (.union (.named "int") (.union (.group (.union (.named "A")
      (.named "B"))) (.union (.named "null") (.named "int"))))
    let u := h.toUnion
    (∀ t ∈ h.leaves, IsAlternative t) ∧ u.declaredText = "int|(A|B)|null" ∧
      {t | t ∈ docAlternatives u.docText} = h.alternatives ∧
      {t | t ∈ declaredAlternatives u.declaredText} = h.alternatives ∧
      ¬∃ t, t ≠ "null" ∧ h.alternatives = {t, "null"} := by
  intro h u
  have hleaves : ∀ t ∈ h.leaves, IsAlternative t := by decide
  have htext : u.declaredText = "int|(A|B)|null" := by decide
  have hspellings := toUnion_spellings hleaves
  obtain ⟨-, -, -, hdoc, hdeclared, -, -, hmarked, -⟩ := hspellings
  refine ⟨hleaves, htext, hdoc, hdeclared, ?_⟩
  rw [← hmarked, htext]
  decide

end Php.Hint

end Scaffold
