import Scaffold.Path
import Scaffold.Proofs.Lists
/-!
Paths below a directory. A path is under a directory if the parts of the directory are the first of
its own. Then, and only then, there is a path below the directory, and its parts are the others.
-/
namespace Scaffold.Path

def IsUnder (p root : Path) : Prop :=
  p.isAbsolute = root.isAbsolute ∧ root.parts <+: p.parts

instance (p root : Path) : Decidable (p.IsUnder root) :=
  inferInstanceAs (Decidable (_ ∧ _))

def solid (ps : List (List UInt8)) : List (List UInt8) :=
  ps.filter (!isIdle ·)

theorem solid_dropWhile (ps : List (List UInt8)) : solid (ps.dropWhile isIdle) = solid ps := by
  induction ps with
  | nil => rfl
  | cons piece ps ih =>
      by_cases h : isIdle piece = true
      · rw [List.dropWhile_cons_of_pos h, ih]
        simp [solid, h]
      · rw [List.dropWhile_cons_of_neg h]

theorem solid_trimIdleEnd (ps : List (List UInt8)) : solid (trimIdleEnd ps) = solid ps := by
  have h := solid_dropWhile ps.reverse
  simp only [solid, trimIdleEnd, List.filter_reverse] at h ⊢
  rw [h, List.reverse_reverse]

theorem solid_trimIdle (ps : List (List UInt8)) : solid (trimIdle ps) = solid ps := by
  rw [trimIdle, solid_trimIdleEnd, solid_dropWhile]

theorem slash_not_mem_body (p : Path) : ∀ piece ∈ p.body, slash ∉ piece := by
  have hpieces : ∀ piece ∈ p.pieces, slash ∉ piece := fun _ => not_mem_of_mem_splitOn
  unfold body
  split
  · exact fun piece h => hpieces piece (List.mem_of_mem_drop h)
  · exact hpieces

section

variable {piece : List UInt8} {ps : List (List UInt8)}

theorem pieces_join (hps : ∀ x ∈ piece :: ps, slash ∉ x) (hne : piece ≠ []) :
    (⟨join (piece :: ps)⟩ : Path).isAbsolute = false ∧
      (⟨join (piece :: ps)⟩ : Path).pieces = piece :: ps := by
  have hrelative : (⟨join (piece :: ps)⟩ : Path).isAbsolute = false := by
    obtain ⟨b, bs, rfl⟩ := List.exists_cons_of_ne_nil hne
    have hb : b ≠ slash := fun hb => hps _ List.mem_cons_self (hb ▸ List.mem_cons_self)
    cases ps <;> simpa [isAbsolute, join, List.intercalate] using hb
  refine ⟨hrelative, ?_⟩
  rw [pieces, hrelative, if_neg (by simp)]
  exact List.splitOn_intercalate slash hps (by simp)

theorem parts_join_solid (hps : ∀ x ∈ piece :: ps, slash ∉ x) (hsolid : isIdle piece = false) :
    parts ⟨join (piece :: ps)⟩ = solid (piece :: ps) := by
  have hne : piece ≠ [] := by
    rintro rfl
    exact absurd hsolid (by decide)
  have hdot : piece ≠ [dot] := by
    rintro rfl
    exact absurd hsolid (by decide)
  obtain ⟨hrelative, hpieces⟩ := pieces_join hps hne
  simp [parts, body, startsAtDot, hpieces, hdot, solid]

theorem parts_join_dot (hps : ∀ x ∈ ps, slash ∉ x) :
    parts ⟨join ([dot] :: ps)⟩ = [dot] :: solid ps := by
  have hall : ∀ x ∈ [dot] :: ps, slash ∉ x := List.forall_mem_cons.mpr ⟨by decide, hps⟩
  obtain ⟨hrelative, hpieces⟩ := pieces_join hall (by simp)
  simp [parts, body, startsAtDot, hrelative, hpieces, solid]

theorem trimIdle_prefix_dropWhile (ps : List (List UInt8)) :
    trimIdle ps <+: ps.dropWhile isIdle := by
  have h := List.dropWhile_suffix isIdle (l := (ps.dropWhile isIdle).reverse)
  simpa [trimIdle, trimIdleEnd] using List.reverse_prefix.mpr h

theorem mem_of_mem_trimIdle (h : piece ∈ trimIdle ps) : piece ∈ ps :=
  (List.dropWhile_sublist isIdle).mem ((trimIdle_prefix_dropWhile ps).subset h)

theorem isIdle_of_trimIdle {rest : List (List UInt8)} (h : trimIdle ps = piece :: rest) :
    isIdle piece = false := by
  obtain ⟨tail, htail⟩ := trimIdle_prefix_dropWhile ps
  have hhead := List.head?_dropWhile_not isIdle ps
  rw [← htail, h] at hhead
  simpa using hhead

theorem parts_join_trimIdle (hps : ∀ x ∈ ps, slash ∉ x) :
    parts ⟨join (trimIdle ps)⟩ = solid ps := by
  rw [← solid_trimIdle ps]
  have hmem : ∀ x ∈ trimIdle ps, slash ∉ x := fun x hx => hps x (mem_of_mem_trimIdle hx)
  cases htrim : trimIdle ps with
  | nil => rfl
  | cons piece rest =>
      rw [htrim] at hmem
      exact parts_join_solid hmem (isIdle_of_trimIdle htrim)

end

section

variable {parts ps : List (List UInt8)}

theorem dropParts_cases (hparts : ∀ part ∈ parts, isIdle part = false) (ps : List (List UInt8)) :
    (dropParts parts ps = none ∧ ¬ parts <+: solid ps) ∨
      ∃ rest, dropParts parts ps = some rest ∧ rest <:+ ps ∧ solid ps = parts ++ solid rest := by
  fun_induction dropParts parts ps with
  | case1 ps => exact .inr ⟨ps, rfl, List.suffix_rfl, rfl⟩
  | case2 part parts => exact .inl ⟨rfl, by simp [solid]⟩
  | case3 parts part ps ih =>
      obtain ⟨hpart, hparts⟩ := List.forall_mem_cons.mp hparts
      have hsolid : solid (part :: ps) = part :: solid ps := by simp [solid, hpart]
      rw [hsolid]
      rcases ih hparts with ⟨hnone, hnot⟩ | ⟨rest, hsome, hsuffix, heq⟩
      · exact .inl ⟨hnone, fun h => hnot (List.cons_prefix_cons.mp h).2⟩
      · exact .inr ⟨rest, hsome, hsuffix.trans (List.suffix_cons part ps), by rw [heq]; rfl⟩
  | case4 part parts piece ps hne hidle ih =>
      have hsolid : solid (piece :: ps) = solid ps := by simp [solid, hidle]
      rw [hsolid]
      rcases ih hparts with hnone | ⟨rest, hsome, hsuffix, heq⟩
      · exact .inl hnone
      · exact .inr ⟨rest, hsome, hsuffix.trans (List.suffix_cons piece ps), heq⟩
  | case5 part parts piece ps hne hidle =>
      have hsolid : solid (piece :: ps) = piece :: solid ps := by simp [solid, hidle]
      rw [hsolid]
      exact .inl ⟨rfl, fun h => hne (List.cons_prefix_cons.mp h).1.symm⟩

theorem below?_cases (hparts : ∀ part ∈ parts, isIdle part = false)
    (hps : ∀ piece ∈ ps, slash ∉ piece) :
    (below? parts ps = none ∧ ¬ parts <+: solid ps) ∨
      ∃ r, below? parts ps = some r ∧ solid ps = parts ++ r.parts := by
  rcases dropParts_cases hparts ps with ⟨hnone, hnot⟩ | ⟨rest, hsome, hsuffix, heq⟩
  · exact .inl ⟨by rw [below?, hnone]; rfl, hnot⟩
  · refine .inr ⟨_, by rw [below?, hsome]; rfl, ?_⟩
    rw [heq, parts_join_trimIdle fun piece h => hps piece (hsuffix.subset h)]

end

section

variable {p root : Path}

theorem parts_of_startsAtDot (h : p.startsAtDot = true) : p.parts = [dot] :: solid p.body := by
  simp [parts, h, solid]

theorem parts_of_not_startsAtDot (h : p.startsAtDot = false) : p.parts = solid p.body := by
  simp [parts, h, solid]

theorem isIdle_of_mem_solid {ps : List (List UInt8)} : ∀ part ∈ solid ps, isIdle part = false :=
  fun part h => by simpa using (List.mem_filter.mp h).2

theorem below?_dot (hrelative : p.isAbsolute = false) (hdot : p.startsAtDot = false)
    (parts : List (List UInt8)) : below? ([dot] :: parts) p.body = none := by
  have hbody : p.body = p.bytes.splitOn slash := by
    rw [body, hdot, if_neg (by simp), pieces, hrelative, if_neg (by simp)]
  -- The first piece is a part other than the dot, unless the path is empty.
  cases hbytes : p.bytes with
  | nil => rw [hbody, hbytes]; rfl
  | cons b bs =>
      obtain ⟨l, ls, hl⟩ := List.exists_cons_of_ne_nil (List.splitOn_ne_nil slash bs)
      have hslash : b ≠ slash := by simpa [isAbsolute, hbytes] using hrelative
      have hpieces : p.body = (b :: l) :: ls := by
        rw [hbody, hbytes, List.splitOn_cons_eq_if_modifyHead, if_neg (by simpa using hslash), hl,
          List.modifyHead_cons]
      have hfirst : b :: l ≠ [dot] := by
        rintro heq
        have hp : p.pieces = p.body := by rw [body, hdot, if_neg (by simp)]
        simp [startsAtDot, hrelative, hp, hpieces, heq] at hdot
      rw [below?, hpieces, dropParts, if_neg hfirst, if_neg (by simpa [isIdle] using hfirst)]
      rfl

theorem isIdle_of_parts_cons {part : List UInt8} {parts : List (List UInt8)}
    (h : p.parts = part :: parts) : ∀ x ∈ parts, isIdle x = false := by
  cases hdot : p.startsAtDot with
  | true =>
      obtain ⟨-, rfl⟩ := List.cons.inj (h.symm.trans (parts_of_startsAtDot hdot))
      exact isIdle_of_mem_solid
  | false =>
      intro x hx
      exact isIdle_of_mem_solid x ((parts_of_not_startsAtDot hdot).symm.trans h ▸
        List.mem_cons_of_mem part hx)

theorem relativeTo?_of_startsAtDot (habs : p.isAbsolute = root.isAbsolute)
    (hdot : p.startsAtDot = true) :
    (p.relativeTo? root = none ∧ ¬ root.parts <+: p.parts) ∨
      ∃ r, p.relativeTo? root = some r ∧ p.parts = root.parts ++ r.parts := by
  have hslash := p.slash_not_mem_body
  rw [relativeTo?, if_pos habs, hdot, parts_of_startsAtDot hdot]
  cases hroot : root.parts with
  | nil =>
      refine .inr ⟨_, rfl, ?_⟩
      rw [List.nil_append, parts_join_dot, solid_trimIdleEnd]
      intro x hx
      exact hslash x (List.mem_reverse.mp ((List.dropWhile_sublist _).mem (List.mem_reverse.mp hx)))
  | cons part parts =>
      dsimp only
      by_cases hpart : part = [dot]
      · subst hpart
        rw [if_pos rfl]
        rcases below?_cases (isIdle_of_parts_cons hroot) hslash with ⟨hnone, hnot⟩ | ⟨r, hr, heq⟩
        · exact .inl ⟨hnone, fun h => hnot (List.cons_prefix_cons.mp h).2⟩
        · exact .inr ⟨r, hr, by rw [heq]; rfl⟩
      · rw [if_neg hpart]
        exact .inl ⟨rfl, fun h => hpart (List.cons_prefix_cons.mp h).1⟩

theorem relativeTo?_of_not_startsAtDot (habs : p.isAbsolute = root.isAbsolute)
    (hdot : p.startsAtDot = false) :
    (p.relativeTo? root = none ∧ ¬ root.parts <+: p.parts) ∨
      ∃ r, p.relativeTo? root = some r ∧ p.parts = root.parts ++ r.parts := by
  rw [relativeTo?, if_pos habs, hdot, parts_of_not_startsAtDot hdot]
  cases hroot : root.startsAtDot with
  | false =>
      rw [parts_of_not_startsAtDot hroot]
      exact below?_cases isIdle_of_mem_solid p.slash_not_mem_body
  | true =>
      have hrelative : p.isAbsolute = false := by
        rw [habs]
        simp only [startsAtDot, Bool.and_eq_true, Bool.not_eq_true'] at hroot
        exact hroot.1
      rw [parts_of_startsAtDot hroot]
      refine .inl ⟨below?_dot hrelative hdot _, fun h => ?_⟩
      exact absurd (isIdle_of_mem_solid [dot] (h.subset List.mem_cons_self)) (by decide)

theorem relativeTo?_cases (p root : Path) :
    (p.relativeTo? root = none ∧ ¬ p.IsUnder root) ∨
      ∃ r, p.relativeTo? root = some r ∧ p.IsUnder root ∧ p.parts = root.parts ++ r.parts := by
  by_cases habs : p.isAbsolute = root.isAbsolute
  · have hparts : (p.relativeTo? root = none ∧ ¬ root.parts <+: p.parts) ∨
        ∃ r, p.relativeTo? root = some r ∧ p.parts = root.parts ++ r.parts := by
      cases hdot : p.startsAtDot with
      | true => exact relativeTo?_of_startsAtDot habs hdot
      | false => exact relativeTo?_of_not_startsAtDot habs hdot
    rcases hparts with ⟨hnone, hnot⟩ | ⟨r, hr, heq⟩
    · exact .inl ⟨hnone, fun h => hnot h.2⟩
    · exact .inr ⟨r, hr, ⟨habs, r.parts, heq.symm⟩, heq⟩
  · exact .inl ⟨by rw [relativeTo?, if_neg habs], fun h => habs h.1⟩

end

end Scaffold.Path
