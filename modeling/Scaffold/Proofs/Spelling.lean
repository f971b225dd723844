import Scaffold.Php.Token.Scan
/-!
How tokens are spelled: names, reserved words and the names of variables are never empty and hold no
blanks, and a closing brace is spelled as one. This is so for all tokens of a source, and each of
them stands in it where it says.
-/
namespace Scaffold.Php

def IsSolid (cs : List Char) : Prop :=
  cs ≠ [] ∧ ∀ c ∈ cs, isSpace c = false

def Kind.Spells : Kind → List Char → Prop
  | .name, cs | .qualified, cs | .keyword _, cs => IsSolid cs
  | .variable, cs => IsSolid (cs.drop 1)
  | .mark .closeBrace, cs => cs = ['\x7d']
  | _, _ => True

def Token.StandsIn (source : List Char) (t : Token) : Prop :=
  ∃ before after, source = before ++ t.text.toList ++ after ∧ t.start = byteSize before ∧
    t.stop = byteSize before + byteSize t.text.toList

/-- Whether an item can be from a text: any but a token, which has to be of good spelling and to
stand there. -/
def Item.IsOf (source : List Char) : Item → Prop
  | .token t => t.kind.Spells t.text.toList ∧ t.StandsIn source
  | _ => True

theorem byteSize_pos {cs : List Char} (h : cs ≠ []) : 0 < byteSize cs := by
  obtain ⟨c, cs, rfl⟩ := List.exists_cons_of_ne_nil h
  exact Nat.lt_of_lt_of_le c.utf8Size_pos (Nat.le_add_right _ _)

theorem byteSize_append (a b : List Char) : byteSize (a ++ b) = byteSize a + byteSize b := by
  induction a with
  | nil => exact (Nat.zero_add _).symm
  | cons c a ih =>
      change c.utf8Size + byteSize (a ++ b) = c.utf8Size + byteSize a + byteSize b
      rw [ih, Nat.add_assoc]

theorem IsSolid.append {a b : List Char} (ha : IsSolid a) (hb : ∀ c ∈ b, isSpace c = false) :
    IsSolid (a ++ b) := by
  refine ⟨by simp [ha.1], ?_⟩
  intro c hc
  rcases List.mem_append.mp hc with hc | hc
  · exact ha.2 c hc
  · exact hb c hc

theorem isSpace_eq_true {c : Char} (h : isSpace c = true) :
    c ∈ [' ', '\n', '\t', '\r', '\x0c', '\x0b'] := by
  simpa [isSpace, isBlankAscii, or_assoc] using h

theorem isSpace_of_class {p : Char → Bool}
    (hp : [' ', '\n', '\t', '\r', '\x0c', '\x0b'].any p = false) {c : Char} (h : p c = true) :
    isSpace c = false := by
  rw [← Bool.not_eq_true]
  intro hs
  exact List.any_eq_false.mp hp c (isSpace_eq_true hs) h

theorem isSpace_of_isNameChar {c : Char} (h : isNameChar c = true) : isSpace c = false :=
  isSpace_of_class (by decide) h

theorem isSpace_of_toLower {c d : Char} (h : c.toLower = d) (hd : d.isLower = true) :
    isSpace c = false := by
  have hc : c.toLower.isLower = true := h ▸ hd
  exact isSpace_of_class (p := fun e => e.toLower.isLower) (by decide) hc

theorem isNameChar_of_isNameStart {c : Char} (h : isNameStart c = true) : isNameChar c = true := by
  simp [isNameChar, h]

theorem take_runSize (p : Char → Bool) (cs : List Char) :
    cs.take (runSize p cs) = cs.takeWhile p := by
  have h : cs = cs.takeWhile p ++ cs.dropWhile p := List.takeWhile_append_dropWhile.symm
  unfold runSize
  generalize cs.takeWhile p = a at h ⊢
  rw [h]
  simp

theorem isSolid_takeWhile {c : Char} (h : isNameStart c = true) (cs : List Char) :
    IsSolid ((c :: cs).takeWhile isNameChar) := by
  refine ⟨by simp [isNameChar_of_isNameStart h], ?_⟩
  intro d hd
  exact isSpace_of_isNameChar (List.all_eq_true.mp List.all_takeWhile d hd)

namespace Lexeme

theorem namePartsSize_eq (n : Nat) (cs : List Char) :
    ∃ k, namePartsSize n cs = n + k ∧ ∀ c ∈ cs.take k, isSpace c = false := by
  fun_induction namePartsSize n cs with
  | case1 n => exact ⟨0, rfl, by simp⟩
  | case2 n c cs hc ih =>
      obtain ⟨k, hk, hs⟩ := ih
      refine ⟨k + 2, by omega, ?_⟩
      simp only [List.take_succ_cons, List.mem_cons]
      rintro d (rfl | rfl | hd)
      · decide
      · exact isSpace_of_isNameChar (isNameChar_of_isNameStart hc)
      · exact hs d hd
  | case3 n c cs hc => exact ⟨0, rfl, by simp⟩
  | case4 n c cs _ hc ih =>
      obtain ⟨k, hk, hs⟩ := ih
      refine ⟨k + 1, by omega, ?_⟩
      simp only [List.take_succ_cons, List.mem_cons]
      rintro d (rfl | hd)
      · exact isSpace_of_isNameChar hc
      · exact hs d hd
  | case5 n c cs _ hc => exact ⟨0, rfl, by simp⟩

def Spells (l : Lexeme) (cs : List Char) : Prop :=
  ∀ kind, l.yield = .token kind → kind.Spells (cs.take l.size)

theorem spells_token {kind : Kind} {cs : List Char} {size : Nat} (h : kind.Spells (cs.take size))
    (mode : Mode) (insertion? : Option Nat) :
    Spells ⟨.token kind, mode, size, insertion?⟩ cs := by
  intro kind' hk
  cases hk
  exact h

theorem spells_plain {kind : Kind} {cs : List Char} {size : Nat} (h : kind.Spells (cs.take size)) :
    (plain kind size).Spells cs :=
  spells_token h _ _

theorem spells_skipped (cs : List Char) (size : Nat) : (skipped size).Spells cs :=
  fun _ hk => nomatch hk

theorem spells_fault (cs : List Char) (size : Nat) : Spells ⟨.fault, .code, size, none⟩ cs :=
  fun _ hk => nomatch hk

theorem spells_ofWord {c : Char} (h : isNameStart c = true) (cs : List Char) :
    (ofWord (c :: cs)).Spells (c :: cs) := by
  have hsolid := isSolid_takeWhile h cs
  have hsplit : (c :: cs) = (c :: cs).takeWhile isNameChar ++ (c :: cs).dropWhile isNameChar :=
    List.takeWhile_append_dropWhile.symm
  unfold ofWord
  generalize (c :: cs).takeWhile isNameChar = word at hsolid hsplit ⊢
  generalize (c :: cs).dropWhile isNameChar = rest at hsplit ⊢
  rw [hsplit]
  have hword : (word ++ rest).take word.length = word := by simp
  have hmore (k : Nat) : (word ++ rest).take (word.length + k) = word ++ rest.take k :=
    List.take_length_add_append k
  dsimp only
  split
  · obtain ⟨k, hk, hs⟩ := namePartsSize_eq word.length rest
    refine spells_plain ?_
    rw [hk, hmore]
    exact hsolid.append hs
  · split
    · exact spells_plain (by rw [hword]; exact hsolid)
    · exact spells_token (by rw [hword]; exact hsolid) _ _
    · next k _ _ =>
        split
        · next k' _ hset =>
            refine spells_plain ?_
            rw [hmore]
            refine hsolid.append ?_
            unfold startsSet at hset
            split at hset
            · next s e t r =>
                simp only [decide_eq_true_eq, List.cons.injEq, and_true] at hset
                simp only [List.take_succ_cons, List.take_zero, List.mem_cons, List.not_mem_nil,
                  or_false]
                rintro d (rfl | rfl | rfl | rfl | rfl)
                · decide
                · exact isSpace_of_toLower hset.1 (by decide)
                · exact isSpace_of_toLower hset.2.1 (by decide)
                · exact isSpace_of_toLower hset.2.2 (by decide)
                · decide
            · exact absurd hset (by simp)
        · exact spells_plain (by rw [hword]; exact hsolid)

theorem spells_table : ∀ entry ∈ Mark.table, entry.2.Spells entry.1 := by
  simp [Mark.table, Kind.Spells]

theorem spells_ofMark (cs : List Char) : (ofMark cs).Spells cs := by
  unfold ofMark
  split
  · next m k hfind =>
      obtain ⟨rest, rfl⟩ : m <+: cs := by simpa using List.find?_some hfind
      refine spells_plain ?_
      rw [List.take_left]
      exact spells_table (m, k) (List.mem_of_find?_eq_some hfind)
  · exact spells_fault cs 1

theorem spells_ofString (quote : Char) (start : Nat) (cs all : List Char) :
    (ofString quote start cs).Spells all := by
  unfold ofString
  split <;> exact spells_plain trivial

theorem spells_ofOpening {start : Nat} {cs : List Char} {l : Lexeme}
    (h : ofOpening? start cs = some l) (all : List Char) : l.Spells all := by
  unfold ofOpening? at h
  split at h
  · cases h
    exact spells_ofString _ _ _ _
  · split at h
    · cases h
      exact spells_ofString _ _ _ _
    · cases h
      exact spells_token (by trivial) _ _
  · split at h
    · cases h
      exact spells_token (by trivial) _ _
    · cases h
  · cases h

theorem spells_getD {start : Nat} {cs all : List Char} {l : Lexeme} (h : l.Spells all) :
    ((ofOpening? start cs).getD l).Spells all := by
  cases ho : ofOpening? start cs with
  | none => exact h
  | some l' => exact spells_ofOpening ho all

theorem spells_ofLetter {c : Char} (h : isNameStart c = true) (cs : List Char) :
    (ofLetter c cs).Spells (c :: cs) := by
  unfold ofLetter
  split
  · exact spells_getD (spells_ofWord h cs)
  · exact spells_ofWord h cs

theorem spells_variable {d : Char} (h : isNameStart d = true) (cs : List Char) :
    (plain .variable (1 + runSize isNameChar (d :: cs))).Spells ('$' :: d :: cs) := by
  refine spells_plain ?_
  rw [Nat.add_comm, List.take_succ_cons, take_runSize]
  exact isSolid_takeWhile h cs

theorem spells_qualified (cs : List Char) :
    (plain .qualified (namePartsSize 1 cs)).Spells ('\\' :: cs) := by
  refine spells_plain ?_
  obtain ⟨k, hk, hs⟩ := namePartsSize_eq 1 cs
  rw [hk, Nat.add_comm, List.take_succ_cons]
  refine ⟨by simp, ?_⟩
  intro c hc
  rcases List.mem_cons.mp hc with rfl | hc
  · decide
  · exact hs c hc

theorem spells_ofCode (c : Char) (cs : List Char) : (ofCode c cs).Spells (c :: cs) := by
  unfold ofCode
  split
  · exact spells_skipped _ _
  split
  · next h => exact spells_ofLetter h cs
  split
  · dsimp only
    split
    · exact spells_fault _ _
    · exact spells_plain trivial
  -- Only words and variables have a spelling to keep; the other arms are marks and literals.
  split
  · split
    · next h => exact spells_variable h _
    · exact spells_ofMark _
  · split
    · exact spells_qualified _
    · exact spells_ofMark _
  · exact spells_token (by trivial) _ _
  · exact spells_skipped _ _
  · split
    · exact spells_skipped _ _
    · exact spells_fault _ _
  · exact spells_ofMark _
  · exact spells_skipped _ _
  · exact spells_token (by trivial) _ _
  · split
    · exact spells_plain trivial
    · exact spells_ofMark _
  · split
    · exact spells_plain trivial
    · exact spells_ofMark _
  · exact spells_getD (spells_ofMark _)

theorem spells_next (mode : Mode) (c : Char) (cs : List Char) :
    (next mode c cs).Spells (c :: cs) := by
  cases mode with
  | text =>
      change (ofText (c :: cs)).Spells _
      unfold ofText
      split
      · next kind size h =>
          have hkind : kind = .echoTag ∨ kind = .openTag := by
            unfold openTag? at h
            split at h
            · cases h
              exact .inl rfl
            · split at h <;> cases h <;> exact .inr rfl
            · cases h
              exact .inr rfl
            · cases h
          rcases hkind with rfl | rfl <;> exact spells_token (by trivial) _ _
      · exact spells_token (by trivial) _ _
  | code => exact spells_ofCode c cs
  | quoted close =>
      change (ofQuoted close (c :: cs)).Spells _
      unfold ofQuoted
      split
      · refine spells_plain ?_
        split <;> trivial
      · exact spells_token (by trivial) _ _
      · exact spells_token (by trivial) _ _
  | heredoc label =>
      change (ofHeredoc label (c :: cs)).Spells _
      unfold ofHeredoc
      split
      · exact spells_plain trivial
      · exact spells_token (by trivial) _ _
      · exact spells_token (by trivial) _ _
  | ending left =>
      change (ofEnding left c cs).Spells _
      unfold ofEnding
      split
      · exact fun _ hk => nomatch hk
      · split
        · exact spells_token (by trivial) _ _
        · exact spells_token (by trivial) _ _
        · exact spells_token (by trivial) _ _
        · exact spells_token (by trivial) _ _
        · exact fun _ hk => nomatch hk
  | data => exact spells_token (by trivial) _ _

end Lexeme

namespace Scan

variable {source : List Char}

def Holds (source : List Char) (s : Scan) : Prop :=
  ∀ i ∈ s.held, i.IsOf source

theorem holds_give {s : Scan} {item : Item} (hs : s.Holds source) (hi : item.IsOf source) :
    (∀ i ∈ (s.give item).1, i.IsOf source) ∧ (s.give item).2.Holds source := by
  unfold give
  split
  · exact ⟨by simpa using hi, hs⟩
  · exact ⟨by simp, by simpa [Holds] using ⟨hi, hs⟩⟩

theorem holds_closed {s : Scan} (hs : s.Holds source) (mode : Mode) (outer : List OpenInsertion) :
    (∀ i ∈ (s.closed mode outer).1, i.IsOf source) ∧ (s.closed mode outer).2.Holds source := by
  unfold closed
  split
  · refine ⟨?_, by simp [Holds]⟩
    dsimp only
    split
    · simp
    · simpa [Holds] using hs
  · exact ⟨by simp, hs⟩

theorem holds_enter {s : Scan} (hs : s.Holds source) {before : List Char} {c : Char}
    {cs : List Char} (hat : source = before ++ c :: cs) :
    (∀ i ∈ (s.enter (byteSize before) c cs).1, i.IsOf source) ∧
      (s.enter (byteSize before) c cs).2.Holds source := by
  have hpart : Item.IsOf source (.token ⟨.part, "", byteSize before, byteSize before⟩) :=
    ⟨trivial, before, c :: cs, by simpa using hat, rfl, rfl⟩
  unfold enter
  split
  · split
    · exact holds_give hs hpart
    · exact ⟨by simp, hs⟩
  · split
    · exact holds_give hs hpart
    · exact ⟨by simp, hs⟩
  · exact ⟨by simp, hs⟩

theorem holds_settle {s : Scan} (hs : s.Holds source) (l : Lexeme) (pos stop : Nat)
    (rest : List Char) :
    (∀ i ∈ (after.settle l pos stop rest s).1, i.IsOf source) ∧
      (after.settle l pos stop rest s).2.Holds source := by
  have hp : (after.proceed l stop rest s).Holds source := by
    unfold after.proceed
    split <;> exact hs
  unfold after.settle
  split
  · split
    · exact holds_closed hs _ _
    · exact ⟨by simp, hp⟩
  · exact ⟨by simp, hp⟩

theorem holds_after {s : Scan} (hs : s.Holds source) {l : Lexeme} {before text rest : List Char}
    (hat : source = before ++ text ++ rest)
    (hl : ∀ kind, l.yield = .token kind → kind.Spells text) :
    (∀ i ∈ (s.after l text (byteSize before) (byteSize before + byteSize text) rest).1,
        i.IsOf source) ∧
      (s.after l text (byteSize before) (byteSize before + byteSize text) rest).2.Holds source := by
  unfold after
  split
  · exact ⟨by simp [Item.IsOf], hs⟩
  · split
    · exact ⟨by simp [Item.IsOf], hs⟩
    · exact ⟨by simp [Item.IsOf], by simp [Holds]⟩
  · exact holds_settle hs l _ _ rest
  · next kind hkind =>
      have htoken : Item.IsOf source (.token ⟨kind, String.ofList text, byteSize before,
          byteSize before + byteSize text⟩) := by
        refine ⟨?_, before, rest, ?_, rfl, ?_⟩
        · simpa using hl kind hkind
        · simpa using hat
        · simp
      obtain ⟨hgiven, hs'⟩ := holds_give hs htoken
      obtain ⟨hsettled, hs''⟩ := holds_settle hs' l (byteSize before)
        (byteSize before + byteSize text) rest
      exact ⟨List.forall_mem_append.mpr ⟨hgiven, hsettled⟩, hs''⟩

theorem isOf_items {s : Scan} (hs : s.Holds source) (pos : Nat) (cs : List Char) :
    ∀ before, source = before ++ cs → pos = byteSize before →
      ∀ i ∈ s.items pos cs, i.IsOf source := by
  fun_induction items s pos cs with
  | case1 => simp
  | case2 s pos c cs early s₁ henter l hsize text rest stop given s₂ hafter ih =>
      rintro before hat rfl
      have hearly := holds_enter hs hat
      rw [henter] at hearly
      have hat' : source = before ++ text ++ rest := by
        rw [hat, List.append_assoc, List.take_append_drop]
      have hgiven := holds_after hearly.2 hat' (Lexeme.spells_next s₁.mode c cs)
      change (∀ i ∈ (s₁.after l text (byteSize before) stop rest).1, _) ∧
        (s₁.after l text (byteSize before) stop rest).2.Holds source at hgiven
      rw [hafter] at hgiven
      have hrest := ih hgiven.2 _ hat' (byteSize_append before text).symm
      refine List.forall_mem_append.mpr ⟨?_, hrest⟩
      exact List.forall_mem_append.mpr ⟨hearly.1, hgiven.1⟩
  | case3 s pos c cs early s₁ henter =>
      rintro before hat rfl
      have hearly := holds_enter hs hat
      rw [henter] at hearly
      exact List.forall_mem_append.mpr ⟨hearly.1, by simp [Item.IsOf]⟩
  | case4 s pos c cs early s₁ henter =>
      rintro before hat rfl
      have hearly := holds_enter hs hat
      rw [henter] at hearly
      exact List.forall_mem_append.mpr ⟨hearly.1, by simp [Item.IsOf]⟩

end Scan

theorem isOf_items (source : String) : ∀ i ∈ items source, i.IsOf source.toList := by
  have hstart : Scan.start.Holds source.toList := by simp [Scan.Holds, Scan.start]
  unfold items
  split
  · next cs hsource =>
      have hline : source.toList =
          '#' :: '!' :: (cs.takeWhile (· ≠ '\n') ++ (cs.dropWhile (· ≠ '\n')).take 1) ++
            (cs.dropWhile (· ≠ '\n')).drop 1 := by
        simp only [hsource, List.cons_append, List.append_assoc, List.take_append_drop,
          List.takeWhile_append_dropWhile]
      generalize '#' :: '!' :: (cs.takeWhile (· ≠ '\n') ++ (cs.dropWhile (· ≠ '\n')).take 1) = line
        at hline ⊢
      generalize (cs.dropWhile (· ≠ '\n')).drop 1 = rest at hline ⊢
      have hfirst : Token.StandsIn source.toList
          ⟨.inlineText, String.ofList line, 0, byteSize line⟩ :=
        ⟨[], rest, by simpa using hline, rfl, by simp [byteSize]⟩
      exact List.forall_mem_cons.mpr
        ⟨⟨trivial, hfirst⟩, Scan.isOf_items hstart _ _ line hline rfl⟩
  · exact Scan.isOf_items hstart _ _ [] rfl rfl

end Scaffold.Php
