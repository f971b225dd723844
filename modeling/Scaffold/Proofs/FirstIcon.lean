import Scaffold.Icon
import Scaffold.Proofs.Occurrences
/-!
What is taken out of a message. An icon is not told by where it stands: the first one goes, also from
the middle of a message, and its name is read no further than it has to be.
-/
namespace Scaffold.Icon

open Text

def IsNamed (cs : List Char) : Prop :=
  ∃ name a b, cs = name ++ [')', a, b] ∧ name ≠ [] ∧ '\n' ∉ name ∧ isBlank a = true ∧
    isBlank b = true

def IsIcon (cs : List Char) : Prop :=
  ∃ named, cs = '$' :: '(' :: named ∧ IsNamed named

def IsClosing (cs : List Char) : Prop :=
  ∃ a b, cs = [')', a, b] ∧ isBlank a = true ∧ isBlank b = true

theorem isNamed_cons {c : Char} {cs : List Char} :
    IsNamed (c :: cs) ↔ c ≠ '\n' ∧ (IsClosing cs ∨ IsNamed cs) := by
  constructor
  · rintro ⟨name, a, b, heq, hne, hfeed, ha, hb⟩
    obtain ⟨d, name, rfl⟩ := List.exists_cons_of_ne_nil hne
    obtain ⟨rfl, rfl⟩ := List.cons.inj heq
    obtain ⟨hc, hname⟩ : c ≠ '\n' ∧ '\n' ∉ name := by
      simpa [eq_comm] using hfeed
    refine ⟨hc, ?_⟩
    by_cases hnil : name = []
    · exact .inl ⟨a, b, by simp [hnil], ha, hb⟩
    · exact .inr ⟨name, a, b, rfl, hnil, hname, ha, hb⟩
  · rintro ⟨hc, ⟨a, b, rfl, ha, hb⟩ | ⟨name, a, b, rfl, hne, hfeed, ha, hb⟩⟩
    · exact ⟨[c], a, b, rfl, by simp, by simpa using hc.symm, ha, hb⟩
    · exact ⟨c :: name, a, b, rfl, by simp, by simp [hc.symm, hfeed], ha, hb⟩

theorem IsNamed.length_le {cs : List Char} (h : IsNamed cs) : 4 ≤ cs.length := by
  obtain ⟨name, a, b, rfl, hne, -⟩ := h
  have hpos := List.length_pos_iff.mpr hne
  simp only [List.length_append, List.length_cons, List.length_nil]
  omega

/-- Whether this is what follows the shortest piece of a kind at the start of a text; nothing says
that none stands there. -/
def Follows (P : List Char → Prop) (cs : List Char) : Option (List Char) → Prop
  | some rest => ∃ piece, cs = piece ++ rest ∧ P piece ∧
      ∀ piece', piece' <+: cs → P piece' → piece.length ≤ piece'.length
  | none => ∀ piece, piece <+: cs → ¬P piece

theorem Follows.cons {P Q : List Char → Prop} {c : Char} {cs : List Char}
    {rest? : Option (List Char)} (hP : ∀ piece, P piece → Q (c :: piece))
    (hQ : ∀ piece, piece <+: c :: cs → Q piece → ∃ shorter, piece = c :: shorter ∧ P shorter)
    (h : Follows P cs rest?) : Follows Q (c :: cs) rest? := by
  cases rest? with
  | none =>
      intro piece hpre hpiece
      obtain ⟨shorter, rfl, hshorter⟩ := hQ piece hpre hpiece
      exact h shorter (List.cons_prefix_cons.mp hpre).2 hshorter
  | some rest =>
      obtain ⟨piece, rfl, hpiece, hshortest⟩ := h
      refine ⟨c :: piece, rfl, hP piece hpiece, fun piece' hpre hpiece' => ?_⟩
      obtain ⟨shorter, rfl, hshorter⟩ := hQ piece' hpre hpiece'
      exact Nat.succ_le_succ (hshortest shorter (List.cons_prefix_cons.mp hpre).2 hshorter)

theorem follows_name_cons {c : Char} {cs : List Char} {rest? : Option (List Char)} (hc : c ≠ '\n')
    (hopen : ∀ closing, closing <+: cs → ¬IsClosing closing) (h : Follows IsNamed cs rest?) :
    Follows IsNamed (c :: cs) rest? := by
  refine h.cons (fun named hnamed => isNamed_cons.mpr ⟨hc, .inr hnamed⟩) fun named hpre hnamed => ?_
  cases named with
  | nil => exact absurd hnamed.length_le (by simp)
  | cons d shorter =>
      obtain ⟨rfl, hrest⟩ := List.cons_prefix_cons.mp hpre
      obtain ⟨-, hclosing | hshorter⟩ := isNamed_cons.mp hnamed
      · exact absurd hclosing (hopen shorter hrest)
      · exact ⟨shorter, rfl, hshorter⟩

theorem follows_afterName? (cs : List Char) : Follows IsNamed cs (afterName? cs) := by
  fun_induction afterName? cs with
  | case1 =>
      intro named hpre hnamed
      rw [List.prefix_nil.mp hpre] at hnamed
      exact absurd hnamed.length_le (by simp)
  | case2 cs =>
      intro named hpre hnamed
      cases named with
      | nil => exact absurd hnamed.length_le (by simp)
      | cons d named =>
          obtain ⟨rfl, -⟩ := List.cons_prefix_cons.mp hpre
          exact (isNamed_cons.mp hnamed).1 rfl
  | case3 c hc a b rest hblank =>
      obtain ⟨ha, hb⟩ := Bool.and_eq_true_iff.mp hblank
      refine ⟨[c, ')', a, b], rfl, isNamed_cons.mpr ⟨hc, .inl ⟨a, b, rfl, ha, hb⟩⟩, ?_⟩
      exact fun named _ hnamed => hnamed.length_le
  | case4 c hc a b rest hblank ih =>
      refine follows_name_cons hc ?_ ih
      rintro _ hpre ⟨a', b', rfl, ha, hb⟩
      obtain ⟨rfl, rfl⟩ : a' = a ∧ b' = b := by simpa using hpre
      exact hblank (by simp [ha, hb])
  | case5 c cs hc hopen ih =>
      refine follows_name_cons hc ?_ ih
      rintro _ ⟨rest, rfl⟩ ⟨a, b, rfl, -⟩
      exact hopen a b rest rfl

theorem follows_afterIcon? (cs : List Char) : Follows IsIcon cs (afterIcon? cs) := by
  unfold afterIcon?
  split
  · next cs =>
      have hparen : Follows (fun piece => ∃ named, piece = '(' :: named ∧ IsNamed named)
          ('(' :: cs) (afterName? cs) :=
        (follows_afterName? cs).cons (fun named hnamed => ⟨named, rfl, hnamed⟩) fun _ _ hpiece => hpiece
      refine hparen.cons ?_ ?_
      · rintro _ ⟨named, rfl, hnamed⟩
        exact ⟨named, rfl, hnamed⟩
      · rintro _ - ⟨named, rfl, hnamed⟩
        exact ⟨'(' :: named, rfl, named, rfl, hnamed⟩
  · next hother =>
      rintro _ ⟨rest, rfl⟩ ⟨named, rfl, -⟩
      exact hother (named ++ rest) rfl

theorem IsIcon.length_pos {icon : List Char} (h : IsIcon icon) : 0 < icon.length := by
  obtain ⟨named, rfl, -⟩ := h
  exact Nat.succ_pos _

theorem stripChars_cases (cs : List Char) :
    (stripChars cs = cs ∧ ∀ icon, icon <:+: cs → ¬IsIcon icon) ∨
    ∃ before icon after, IsFirst IsIcon cs before icon after ∧
      (∀ icon', icon' <+: icon ++ after → IsIcon icon' → icon.length ≤ icon'.length) ∧
      stripChars cs = before ++ after := by
  induction cs with
  | nil =>
      refine .inl ⟨rfl, fun icon hpart hicon => ?_⟩
      rw [List.infix_nil.mp hpart] at hicon
      exact absurd hicon.length_pos (by simp)
  | cons c cs ih =>
      have hhere := follows_afterIcon? (c :: cs)
      cases hafter : afterIcon? (c :: cs) with
      | some rest =>
          rw [hafter] at hhere
          obtain ⟨icon, heq, hicon, hshortest⟩ := hhere
          rw [heq] at hshortest
          refine .inr ⟨[], icon, rest, heq ▸ IsFirst.here hicon rest, hshortest, ?_⟩
          simp only [stripChars, hafter]
          rfl
      | none =>
          rw [hafter] at hhere
          have hstrip : stripChars (c :: cs) = c :: stripChars cs := by
            simp only [stripChars, hafter]
          rw [hstrip]
          rcases ih with ⟨heq, hnone⟩ | ⟨before, icon, after, hfirst, hshortest, heq⟩
          · refine .inl ⟨by rw [heq], fun icon hpart => ?_⟩
            rcases List.infix_cons_iff.mp hpart with hpre | hpart
            · exact hhere icon hpre
            · exact hnone icon hpart
          · exact .inr ⟨c :: before, icon, after, hfirst.cons hhere, hshortest, by rw [heq]; rfl⟩

/-- The first icon of a message is taken out wherever it stands, in its shortest reading; a message
stays as it is only if no icon is in it. -/
theorem strip_first_icon (s : String) :
    (strip s = s ∧ ∀ icon, icon <:+: s.toList → ¬IsIcon icon) ∨
    ∃ before icon after, IsFirst IsIcon s.toList before icon after ∧
      (∀ icon', icon' <+: icon ++ after → IsIcon icon' → icon.length ≤ icon'.length) ∧
      strip s = String.ofList (before ++ after) ∧ strip s ≠ s := by
  rcases stripChars_cases s.toList with ⟨heq, hnone⟩ | ⟨before, icon, after, hfirst, hshortest, heq⟩
  · exact .inl ⟨by rw [strip, heq, String.ofList_toList], hnone⟩
  · refine .inr ⟨before, icon, after, hfirst, hshortest, by rw [strip, heq], fun hsame => ?_⟩
    have hchars : before ++ after = s.toList := by
      simpa [strip, heq] using congrArg String.toList hsame
    have hlength := congrArg List.length (hchars.trans hfirst.split)
    have hpos := hfirst.holds.length_pos
    simp only [List.length_append] at hlength
    omega

theorem strip_inner_icon :
    strip "Saved $(check)  Done" = "Saved Done" ∧
      ['$', '('].isPrefixOf "Saved $(check)  Done".toList = false := by
  decide

end Scaffold.Icon
