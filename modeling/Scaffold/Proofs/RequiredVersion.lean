import Mathlib.Data.Nat.Digits.Defs
import Scaffold.Project
import Scaffold.Proofs.Lists
import Scaffold.Proofs.Occurrences
/-!
The version of PHP that a project requires. A constraint is any text; its pairs are the numbers with a
point between them, found from left to right, and the last of them counts. A pair that fits its bits
is read back as it was written, so the packed versions are ordered like the pairs.
-/
namespace Scaffold

namespace PhpVersion

open Text

/-! The pairs of a text -/

def IsNumber (ds : List Char) : Prop :=
  ds ≠ [] ∧ ∀ d ∈ ds, isDigitChar d = true

def IsPair (p : List Char × List Char) (cs : List Char) : Prop :=
  cs = p.1 ++ '.' :: p.2 ∧ IsNumber p.1 ∧ IsNumber p.2

def HoldsPair (cs : List Char) : Prop :=
  ∃ p, IsPair p cs

/-- The pairs of a text from left to right. Each is the first in what the one before it leaves, and
as long as it can be. -/
inductive Found : List Char → List (List Char × List Char) → Prop
  | none {text : List Char} (h : ∀ piece, piece <:+: text → ¬HoldsPair piece) : Found text []
  | next {text before piece after : List Char} {p : List Char × List Char}
      {ps : List (List Char × List Char)} (first : IsFirst HoldsPair text before piece after)
      (pair : IsPair p piece)
      (longest : ∀ piece', piece' <+: piece ++ after → HoldsPair piece' →
        piece'.length ≤ piece.length)
      (rest : Found after ps) : Found text (p :: ps)

theorem isDigitChar_point : isDigitChar '.' = false := by decide

theorem IsPair.split {p : List Char × List Char} {cs : List Char} (h : IsPair p cs)
    (after : List Char) :
    (cs ++ after).takeWhile isDigitChar = p.1 ∧
      (cs ++ after).dropWhile isDigitChar = '.' :: (p.2 ++ after) := by
  obtain ⟨rfl, hmajor, -⟩ := h
  rw [List.append_assoc]
  exact takeWhile_append_of_stop hmajor.2 (by simp [isDigitChar_point])

theorem IsPair.eq {p q : List Char × List Char} {cs : List Char} (hp : IsPair p cs)
    (hq : IsPair q cs) : p = q := by
  have hmajor := (hp.split []).1.symm.trans (hq.split []).1
  have hminor := (hp.split []).2.symm.trans (hq.split []).2
  simp only [List.append_nil, List.cons.injEq, true_and] at hminor
  exact Prod.ext hmajor hminor

def StartsFraction (cs : List Char) : Prop :=
  ∃ d rest, cs = '.' :: d :: rest ∧ isDigitChar d = true

theorem IsPair.startsFraction {p : List Char × List Char} {piece cs : List Char}
    (h : IsPair p piece) (hpre : piece <+: cs) :
    cs.takeWhile isDigitChar ≠ [] ∧ StartsFraction (cs.dropWhile isDigitChar) := by
  obtain ⟨after, rfl⟩ := hpre
  obtain ⟨d, ds, hd⟩ := List.exists_cons_of_ne_nil h.2.2.1
  rw [(h.split after).1, (h.split after).2, hd]
  exact ⟨h.2.1.1, d, ds ++ after, rfl, h.2.2.2 d (by simp [hd])⟩

theorem pairHere?_eq_some {cs fraction : List Char} (hmajor : cs.takeWhile isDigitChar ≠ [])
    (hpoint : cs.dropWhile isDigitChar = '.' :: fraction)
    (hminor : fraction.takeWhile isDigitChar ≠ []) :
    pairHere? cs = some ((cs.takeWhile isDigitChar, fraction.takeWhile isDigitChar),
      fraction.dropWhile isDigitChar) := by
  unfold pairHere?
  rw [hpoint]
  split
  · next hnil => exact absurd hnil hmajor
  · next hcons _ =>
      obtain rfl := (List.cons.inj hcons).2
      split
      · next hnil => exact absurd hnil hminor
      · rfl
  · next hother => exact absurd rfl (hother _)

theorem pairHere?_eq_none {cs : List Char}
    (h : ¬(cs.takeWhile isDigitChar ≠ [] ∧ StartsFraction (cs.dropWhile isDigitChar))) :
    pairHere? cs = none := by
  unfold pairHere?
  split
  · rfl
  · next fraction hpoint hmajor =>
      split
      · rfl
      · next hminor =>
          cases fraction with
          | nil => exact absurd rfl hminor
          | cons d rest =>
              have hd : isDigitChar d = false := by
                rw [← Bool.not_eq_true]
                exact fun hd => h ⟨hmajor, d, rest, hpoint, hd⟩
              exact absurd (by simp [hd]) hminor
  · rfl

theorem isNumber_takeWhile {cs : List Char} (h : cs.takeWhile isDigitChar ≠ []) :
    IsNumber (cs.takeWhile isDigitChar) :=
  ⟨h, fun d hd => List.all_eq_true.mp List.all_takeWhile d hd⟩

theorem pairHere?_cases (cs : List Char) :
    (∃ p piece rest, pairHere? cs = some (p, rest) ∧ cs = piece ++ rest ∧ IsPair p piece ∧
      ∀ piece', piece' <+: cs → HoldsPair piece' → piece'.length ≤ piece.length) ∨
    (pairHere? cs = none ∧ ∀ piece, piece <+: cs → ¬HoldsPair piece) := by
  by_cases hpair : cs.takeWhile isDigitChar ≠ [] ∧ StartsFraction (cs.dropWhile isDigitChar)
  · obtain ⟨hmajor, d, rest, hpoint, hd⟩ := hpair
    have hminor : (d :: rest).takeWhile isDigitChar ≠ [] := by simp [hd]
    refine .inl ⟨_, _, _, pairHere?_eq_some hmajor hpoint hminor, ?_,
      ⟨rfl, isNumber_takeWhile hmajor, isNumber_takeWhile hminor⟩, ?_⟩
    · rw [List.append_assoc, List.cons_append, List.takeWhile_append_dropWhile, ← hpoint,
        List.takeWhile_append_dropWhile]
    · rintro piece ⟨after, rfl⟩ ⟨p, hp⟩
      have hrest : d :: rest = p.2 ++ after :=
        (List.cons.inj (hpoint.symm.trans (hp.split after).2)).2
      rw [(hp.split after).1, hrest, List.takeWhile_append_of_pos hp.2.2.2, hp.1]
      simp only [List.length_append, List.length_cons]
      omega
  · exact .inr ⟨pairHere?_eq_none hpair, fun piece hpre ⟨p, hp⟩ => hpair (hp.startsFraction hpre)⟩

theorem Found.cons {c : Char} {text : List Char} {ps : List (List Char × List Char)}
    (hnone : ∀ piece, piece <+: c :: text → ¬HoldsPair piece) (h : Found text ps) :
    Found (c :: text) ps := by
  cases h with
  | none hno =>
      refine .none fun piece hpart => ?_
      rcases List.infix_cons_iff.mp hpart with hpre | hpart
      · exact hnone piece hpre
      · exact hno piece hpart
  | next hfirst hpair hlongest hrest => exact .next (hfirst.cons hnone) hpair hlongest hrest

/-- Digits that no fraction follows belong to no pair. -/
theorem Found.digits {ds rest : List Char} {ps : List (List Char × List Char)}
    (hds : ∀ d ∈ ds, isDigitChar d = true) (hstop : ∀ c ∈ rest.head?, isDigitChar c = false)
    (hno : ¬StartsFraction rest) (h : Found rest ps) : Found (ds ++ rest) ps := by
  induction ds with
  | nil => exact h
  | cons d ds ih =>
      refine (ih fun e he => hds e (List.mem_cons_of_mem d he)).cons ?_
      rintro piece hpre ⟨p, hp⟩
      have hfraction := (hp.startsFraction hpre).2
      rw [← List.cons_append, (takeWhile_append_of_stop hds hstop).2] at hfraction
      exact hno hfraction

theorem HoldsPair.ne_nil {cs : List Char} (h : HoldsPair cs) : cs ≠ [] := by
  obtain ⟨p, rfl, -⟩ := h
  simp

theorem found_nil : Found [] [] := by
  refine .none fun piece hpart hpair => ?_
  exact hpair.ne_nil (List.infix_nil.mp hpart)

theorem found_pairs (n : Nat) (cs : List Char) (h : cs.length < n) : Found cs (pairs n cs) := by
  fun_induction pairs n cs with
  | case1 => exact absurd h (Nat.not_lt_zero _)
  | case2 n => exact found_nil
  | case3 n c cs p rest hhere ih =>
      obtain ⟨q, piece, rest', hsome, hsplit, hpair, hlongest⟩ | ⟨hnone, -⟩ :=
        pairHere?_cases (c :: cs)
      · obtain ⟨rfl, rfl⟩ := Prod.mk.inj (Option.some.inj (hhere.symm.trans hsome))
        have hpos := List.length_pos_iff.mpr (HoldsPair.ne_nil ⟨p, hpair⟩)
        rw [hsplit] at h hlongest ⊢
        rw [List.length_append] at h
        exact .next (IsFirst.here ⟨p, hpair⟩ rest) hpair hlongest (ih (by omega))
      · rw [hhere] at hnone
        cases hnone
  | case4 n c cs hhere hc ih =>
      have hno : ¬StartsFraction (cs.dropWhile isDigitChar) := by
        rintro ⟨d, more, hpoint, hd⟩
        have hmajor : (c :: cs).takeWhile isDigitChar ≠ [] := by simp [hc]
        have hsome := pairHere?_eq_some hmajor (by simpa [hc] using hpoint) (by simp [hd])
        rw [hhere] at hsome
        cases hsome
      have hdigits : ∀ d ∈ c :: cs.takeWhile isDigitChar, isDigitChar d = true :=
        List.forall_mem_cons.mpr ⟨hc, List.all_eq_true.mp List.all_takeWhile⟩
      have hstop : ∀ d ∈ (cs.dropWhile isDigitChar).head?, isDigitChar d = false := by
        intro d hd
        have hnot := List.head?_dropWhile_not isDigitChar cs
        rw [hd] at hnot
        simpa using hnot
      have hlength := (List.dropWhile_suffix isDigitChar (l := cs)).length_le
      rw [List.length_cons] at h
      have hfound := Found.digits hdigits hstop hno (ih (by omega))
      rwa [List.cons_append, List.takeWhile_append_dropWhile] at hfound
  | case5 n c cs hhere hc ih =>
      refine (ih (Nat.lt_of_succ_lt_succ h)).cons ?_
      rintro piece hpre ⟨p, hp⟩
      exact (hp.startsFraction hpre).1 (by simp [hc])

theorem found_pairsOf (s : String) : Found s.toList (pairsOf s) :=
  found_pairs _ _ (String.length_toList ▸ Nat.lt_succ_self _)

theorem Found.unique {text : List Char} {ps qs : List (List Char × List Char)} (hp : Found text ps)
    (hq : Found text qs) : ps = qs := by
  induction hp generalizing qs with
  | none hno =>
      cases hq with
      | none _ => rfl
      | next hfirst _ _ _ => exact absurd hfirst.holds (hno _ hfirst.occurs)
  | next hfirst hpair hlongest _ ih =>
      cases hq with
      | none hno => exact absurd hfirst.holds (hno _ hfirst.occurs)
      | next hfirst' hpair' hlongest' hrest' =>
          obtain ⟨-, hsame⟩ := hfirst.unique hfirst'
          have hle := hlongest' _ ⟨_, hsame⟩ hfirst.holds
          have hle' := hlongest _ ⟨_, hsame.symm⟩ hfirst'.holds
          obtain ⟨rfl, rfl⟩ := List.append_inj hsame (Nat.le_antisymm hle hle')
          rw [hpair.eq hpair', ih hrest']

/-! Numbers and packing -/

def IsAscii (ds : List Char) : Prop :=
  ds.all Char.isDigit = true

instance (ds : List Char) : Decidable (IsAscii ds) :=
  inferInstanceAs (Decidable (_ = true))

def decimal (ds : List Char) : Nat :=
  Nat.ofDigits 10 (ds.map fun d => d.toNat - '0'.toNat).reverse

theorem foldl_decimal (n : Nat) (ds : List Char) :
    ds.foldl (fun n d => n * 10 + (d.toNat - '0'.toNat)) n = n * 10 ^ ds.length + decimal ds := by
  induction ds generalizing n with
  | nil => simp [decimal]
  | cons d ds ih =>
      have hdecimal : decimal (d :: ds) = decimal ds + 10 ^ ds.length * (d.toNat - '0'.toNat) := by
        simp [decimal, Nat.ofDigits_append]
      rw [List.foldl_cons, ih, hdecimal, List.length_cons, Nat.pow_succ]
      ring

theorem number?_eq_some {ds : List Char} (hds : IsAscii ds) (hfits : decimal ds < UInt32.size) :
    number? ds = some (UInt32.ofNat (decimal ds)) := by
  have hfold := foldl_decimal 0 ds
  rw [Nat.zero_mul, Nat.zero_add] at hfold
  unfold IsAscii at hds
  unfold number?
  rw [if_pos hds, hfold, if_pos hfits]

theorem number?_eq_none {ds : List Char} (h : ¬(IsAscii ds ∧ decimal ds < UInt32.size)) :
    number? ds = none := by
  have hfold := foldl_decimal 0 ds
  rw [Nat.zero_mul, Nat.zero_add] at hfold
  unfold number?
  rw [hfold]
  split
  · next hds => exact if_neg fun hfits => h ⟨hds, hfits⟩
  · rfl

def majorPart (v : PhpVersion) : Nat :=
  (v.value >>> 16).toNat

def minorPart (v : PhpVersion) : Nat :=
  ((v.value >>> 8) &&& 0xFF).toNat

def patchPart (v : PhpVersion) : Nat :=
  (v.value &&& 0xFF).toNat

theorem toNat_pack {M m : Nat} (hM : M < UInt16.size) (hm : m < UInt8.size) :
    (pack (UInt32.ofNat M) (UInt32.ofNat m)).value.toNat = M * 65536 + m * 256 := by
  have hsizes : UInt16.size = 65536 ∧ UInt8.size = 256 := ⟨rfl, rfl⟩
  have hmajor : (UInt32.ofNat M <<< 16).toNat = M <<< 16 := by
    rw [UInt32.toNat_shiftLeft, UInt32.toNat_ofNat_of_lt' (by show M < 4294967296; omega)]
    exact Nat.mod_eq_of_lt (by rw [Nat.shiftLeft_eq]; show M * 65536 < 4294967296; omega)
  have hminor : (UInt32.ofNat m <<< 8).toNat = m * 256 := by
    rw [UInt32.toNat_shiftLeft, UInt32.toNat_ofNat_of_lt' (by show m < 4294967296; omega)]
    show m <<< 8 % 4294967296 = m * 256
    rw [Nat.shiftLeft_eq, Nat.mod_eq_of_lt (by omega)]
  unfold pack
  rw [UInt32.toNat_or, hmajor, hminor, ← Nat.shiftLeft_add_eq_or_of_lt (by omega), Nat.shiftLeft_eq]

theorem parts_of_toNat {v : PhpVersion} {M m : Nat} (hm : m < UInt8.size)
    (h : v.value.toNat = M * 65536 + m * 256) :
    v.majorPart = M ∧ v.minorPart = m ∧ v.patchPart = 0 := by
  have hsize : UInt8.size = 256 := rfl
  have hmask (n : Nat) : n &&& 255 = n % 256 := Nat.and_two_pow_sub_one_eq_mod n 8
  have hmajor : v.majorPart = v.value.toNat / 65536 := by
    rw [majorPart, UInt32.toNat_shiftRight]
    exact Nat.shiftRight_eq_div_pow _ 16
  have hminor : v.minorPart = v.value.toNat / 256 % 256 := by
    rw [minorPart, UInt32.toNat_and, UInt32.toNat_shiftRight]
    show v.value.toNat >>> 8 &&& 255 = _
    rw [hmask, Nat.shiftRight_eq_div_pow]
  have hpatch : v.patchPart = v.value.toNat % 256 := by
    rw [patchPart, UInt32.toNat_and]
    exact hmask _
  omega

theorem text_of_parts {v : PhpVersion} {M m : Nat} (hmajor : v.majorPart = M)
    (hminor : v.minorPart = m) (hpatch : v.patchPart = 0) :
    v.text = toString M ++ "." ++ toString m ++ ".0" := by
  have htext : v.text = toString v.majorPart ++ "." ++ toString v.minorPart ++ "."
      ++ toString v.patchPart := rfl
  rw [htext, hmajor, hminor, hpatch, String.append_assoc]
  rfl

theorem hasEnums_iff {v : PhpVersion} {M m : Nat} (hm : m < UInt8.size)
    (h : v.value.toNat = M * 65536 + m * 256) : v.hasEnums = true ↔ 8 < M ∨ M = 8 ∧ 1 ≤ m := by
  have hsize : UInt8.size = 256 := rfl
  have hfirst : (pack 8 1).value.toNat = 8 * 65536 + 1 * 256 := by decide
  rw [hasEnums, decide_eq_true_iff, UInt32.le_iff_toNat_le, hfirst, h]
  omega

/-! The version of a project -/

theorem Found.isNumber {text : List Char} {ps : List (List Char × List Char)} (h : Found text ps) :
    ∀ p ∈ ps, IsNumber p.1 ∧ IsNumber p.2 := by
  induction h with
  | none _ => exact List.forall_mem_nil _
  | next _ hpair _ _ ih => exact List.forall_mem_cons.mpr ⟨hpair.2, ih⟩

theorem found_pair {M m : List Char} (hM : IsNumber M) (hm : IsNumber m) :
    Found (M ++ '.' :: m) [(M, m)] := by
  have hpair : IsPair (M, m) (M ++ '.' :: m) := ⟨rfl, hM, hm⟩
  have hfirst := IsFirst.here (P := HoldsPair) ⟨(M, m), hpair⟩ []
  rw [List.append_nil] at hfirst
  refine .next hfirst hpair (fun piece hpre _ => ?_) found_nil
  simpa using hpre.length_le

section

variable {M m : List Char} (hM : IsNumber M) (hm : IsNumber m)
include hM hm

theorem pairsOf_pair : pairsOf (String.ofList (M ++ '.' :: m)) = [(M, m)] := by
  refine (found_pairsOf _).unique ?_
  rw [String.toList_ofList]
  exact found_pair hM hm

theorem parse_eq_pack {major minor : UInt32} (hmajor : number? M = some major)
    (hminor : number? m = some minor) :
    parse (String.ofList (M ++ '.' :: m)) = pack major minor := by
  unfold parse
  simp only [pairsOf_pair hM hm, hmajor, hminor]

theorem parse_eq_fallback (h : number? M = none ∨ number? m = none) :
    parse (String.ofList (M ++ '.' :: m)) = fallback := by
  unfold parse
  simp only [pairsOf_pair hM hm]
  rcases h with hnone | hnone
  · rw [hnone]
  · rw [hnone]
    cases number? M <;> rfl

end

end PhpVersion

namespace Project

open PhpVersion

def requirement (json : Json) : Option String :=
  ((json.member? "require").bind (·.member? "php")).bind Json.string?

def Requires (json : Json) (M m : List Char) : Prop :=
  ∃ constraint ps, requirement json = some constraint ∧ Found constraint.toList ps ∧
    ps.getLast? = some (M, m)

theorem versionOf_of_requires {json : Json} {M m : List Char} (h : Requires json M m) :
    versionOf json = String.ofList (M ++ '.' :: m) ∧ IsNumber M ∧ IsNumber m := by
  obtain ⟨constraint, ps, hrequirement, hfound, hlast⟩ := h
  obtain rfl := (found_pairsOf constraint).unique hfound
  refine ⟨?_, hfound.isNumber _ (List.mem_of_getLast? hlast)⟩
  unfold requirement at hrequirement
  unfold versionOf
  rw [hrequirement]
  simp only [hlast]

theorem versionOf_of_not_requires {json : Json} (h : ∀ M m, ¬Requires json M m) :
    versionOf json = "7.4" := by
  unfold versionOf
  split
  · next constraint hrequirement =>
      split
      · next M m hlast =>
          exact absurd ⟨constraint, _, hrequirement, found_pairsOf constraint, hlast⟩ (h M m)
      · rfl
  · rfl

/-- A pair that fits its bits is stored as written and read back as the two numbers; any other project
counts as one of version 7.4. -/
theorem ofJson_version (json : Json) :
    (∀ major minor, Requires json major minor → IsAscii major → IsAscii minor →
      decimal major < UInt16.size → decimal minor < UInt8.size →
      (ofJson json).phpVersion = String.ofList (major ++ '.' :: minor) ∧
      Found (ofJson json).phpVersion.toList [(major, minor)] ∧
      (parse (ofJson json).phpVersion).majorPart = decimal major ∧
      (parse (ofJson json).phpVersion).minorPart = decimal minor ∧
      (parse (ofJson json).phpVersion).patchPart = 0 ∧
      (parse (ofJson json).phpVersion).text =
        toString (decimal major) ++ "." ++ toString (decimal minor) ++ ".0" ∧
      ((ofJson json).hasEnums = true ↔ 8 < decimal major ∨ decimal major = 8 ∧ 1 ≤ decimal minor)) ∧
    (∀ major minor, Requires json major minor →
      ¬(IsAscii major ∧ decimal major < UInt32.size) ∨
        ¬(IsAscii minor ∧ decimal minor < UInt32.size) →
      parse (ofJson json).phpVersion = parse "7.4" ∧ (ofJson json).hasEnums = false) ∧
    ((∀ major minor, ¬Requires json major minor) →
      (ofJson json).phpVersion = "7.4" ∧ (ofJson json).hasEnums = false) := by
  have hfallback : parse "7.4" = fallback := by decide
  have hold : fallback.hasEnums = false := by decide
  refine ⟨?_, ?_, ?_⟩
  · intro major minor hrequires hasciiMajor hasciiMinor hmajor hminor
    obtain ⟨hversion, hnumberMajor, hnumberMinor⟩ := versionOf_of_requires hrequires
    have hparse : parse (versionOf json) =
        pack (UInt32.ofNat (decimal major)) (UInt32.ofNat (decimal minor)) := by
      rw [hversion]
      exact parse_eq_pack hnumberMajor hnumberMinor
        (number?_eq_some hasciiMajor (Nat.lt_trans hmajor (by decide)))
        (number?_eq_some hasciiMinor (Nat.lt_trans hminor (by decide)))
    have hvalue : (parse (versionOf json)).value.toNat =
        decimal major * 65536 + decimal minor * 256 := by
      rw [hparse, toNat_pack hmajor hminor]
    have hfound : Found (versionOf json).toList [(major, minor)] := by
      rw [hversion, String.toList_ofList]
      exact found_pair hnumberMajor hnumberMinor
    obtain ⟨hpartMajor, hpartMinor, hpatch⟩ := parts_of_toNat hminor hvalue
    refine ⟨hversion, hfound, hpartMajor, hpartMinor, hpatch, ?_, hasEnums_iff hminor hvalue⟩
    exact text_of_parts hpartMajor hpartMinor hpatch
  · intro major minor hrequires hno
    obtain ⟨hversion, hnumberMajor, hnumberMinor⟩ := versionOf_of_requires hrequires
    have hparse : parse (versionOf json) = fallback := by
      rw [hversion, parse_eq_fallback hnumberMajor hnumberMinor
        (hno.imp number?_eq_none number?_eq_none)]
    exact ⟨hparse.trans hfallback.symm, (congrArg PhpVersion.hasEnums hparse).trans hold⟩
  · intro hno
    have hversion := versionOf_of_not_requires hno
    have hparse : parse (versionOf json) = fallback := by rw [hversion, hfallback]
    exact ⟨hversion, (congrArg PhpVersion.hasEnums hparse).trans hold⟩

def dottedConstraint : Json :=
  .object [("require", .object [("php", .string "^7.4 || 8.1.27 || 9.0.8.1")])]

theorem ofJson_version_dotted :
    Requires dottedConstraint ['8'] ['1'] ∧ (ofJson dottedConstraint).phpVersion = "8.1" ∧
      (parse (ofJson dottedConstraint).phpVersion).text = "8.1.0" ∧
      (ofJson dottedConstraint).hasEnums = true := by
  have hrequires : Requires dottedConstraint ['8'] ['1'] :=
    ⟨_, _, rfl, found_pairsOf _, by decide⟩
  obtain ⟨hversion, -, -, -, -, htext, henums⟩ := (ofJson_version dottedConstraint).1 ['8'] ['1']
    hrequires (by decide) (by decide) (by decide) (by decide)
  exact ⟨hrequires, hversion, htext.trans (by decide), henums.mpr (by decide)⟩

end Project

end Scaffold
