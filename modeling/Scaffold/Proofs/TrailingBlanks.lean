import Scaffold.Proofs.Unambiguous
/-!
Texts that differ only in the blanks at their ends. A reader that takes words with blanks after them
tells two such texts apart at the very end alone, where a word is followed by blanks in one of them
and by nothing in the other. If what it reads next needs more than that, it overlooks the difference.
-/
namespace Scaffold.Text

def IsPadding (bs : List Char) : Prop :=
  ∀ c ∈ bs, isBlank c = true ∧ c ≠ '\n'

theorem isPadding_nil : IsPadding [] :=
  List.forall_mem_nil _

theorem IsPadding.dropBlanks_eq {bs : List Char} (h : IsPadding bs) : dropBlanks bs = [] := by
  have hdrop := dropBlanks_append_of_blank (fun c hc => (h c hc).1) []
  rwa [List.append_nil] at hdrop

inductive SameButEnd : List Char → List Char → Prop
  | padding {bs bs' : List Char} : IsPadding bs → IsPadding bs' → SameButEnd bs bs'
  | cons (c : Char) {cs cs' : List Char} : SameButEnd cs cs' → SameButEnd (c :: cs) (c :: cs')

namespace SameButEnd

variable {cs cs' : List Char}

theorem symm (h : SameButEnd cs cs') : SameButEnd cs' cs := by
  induction h with
  | padding hbs hbs' => exact .padding hbs' hbs
  | cons c _ ih => exact .cons c ih

theorem of_append {bs : List Char} (hbs : IsPadding bs) (cs : List Char) :
    SameButEnd (cs ++ bs) cs := by
  induction cs with
  | nil => exact .padding hbs isPadding_nil
  | cons c cs ih => exact .cons c ih

theorem append_inv {w more : List Char} (hw : NoBlanks w) (h : SameButEnd (w ++ more) cs') :
    ∃ more', cs' = w ++ more' ∧ SameButEnd more more' := by
  induction w generalizing cs' with
  | nil => exact ⟨cs', rfl, h⟩
  | cons c w ih =>
      obtain ⟨hc, hw⟩ := List.forall_mem_cons.mp hw
      cases h with
      | padding hbs _ =>
          rw [(hbs c (by simp)).1] at hc
          cases hc
      | cons _ h =>
          obtain ⟨more', rfl, hmore⟩ := ih hw h
          exact ⟨more', rfl, hmore⟩

theorem contains_eq {d : Char} (hd : isBlank d = false ∨ d = '\n') (h : SameButEnd cs cs') :
    cs.contains d = cs'.contains d := by
  have hnot {bs : List Char} (hbs : IsPadding bs) : d ∉ bs := by
    intro hmem
    rcases hd with hd | hd
    · rw [(hbs d hmem).1] at hd
      cases hd
    · exact (hbs d hmem).2 hd
  induction h with
  | padding hbs hbs' => simp [hnot hbs, hnot hbs']
  | cons c _ ih => simp only [List.contains_cons, ih]

theorem dropBlanks (h : SameButEnd cs cs') :
    SameButEnd (Text.dropBlanks cs) (Text.dropBlanks cs') := by
  induction h with
  | padding hbs hbs' =>
      rw [hbs.dropBlanks_eq, hbs'.dropBlanks_eq]
      exact .padding isPadding_nil isPadding_nil
  | cons c h ih =>
      by_cases hc : isBlank c = true
      · simpa [Text.dropBlanks, hc] using ih
      · simpa [Text.dropBlanks, hc] using h.cons c

theorem takeWhile {p : Char → Bool} (hp : ∀ c, p c = true → isBlank c = false)
    (h : SameButEnd cs cs') :
    cs.takeWhile p = cs'.takeWhile p ∧ SameButEnd (cs.dropWhile p) (cs'.dropWhile p) := by
  have hstop {bs : List Char} (hbs : IsPadding bs) : bs.takeWhile p = [] ∧ bs.dropWhile p = bs := by
    refine takeWhile_append_of_stop (List.forall_mem_nil _) fun c hc => ?_
    rw [← Bool.not_eq_true]
    intro hpc
    have hblank := (hbs c (List.mem_of_head? hc)).1
    rw [hp c hpc] at hblank
    cases hblank
  induction h with
  | padding hbs hbs' =>
      rw [(hstop hbs).1, (hstop hbs').1, (hstop hbs).2, (hstop hbs').2]
      exact ⟨rfl, .padding hbs hbs'⟩
  | cons c h ih =>
      by_cases hc : p c = true
      · simpa [hc] using ih
      · simpa [hc] using h.cons c

theorem blanks? {rest : List Char} (h : SameButEnd cs cs') (hs : Text.blanks? cs = some rest) :
    rest = [] ∨ ∃ rest', Text.blanks? cs' = some rest' ∧ SameButEnd rest rest' := by
  cases h with
  | padding hbs _ =>
      cases cs with
      | nil => cases hs
      | cons b bs =>
          obtain ⟨hb, hbs⟩ := List.forall_mem_cons.mp hbs
          simp only [Text.blanks?, hb.1, if_true] at hs
          cases hs
          exact .inl (IsPadding.dropBlanks_eq hbs)
  | cons c h =>
      simp only [Text.blanks?] at hs ⊢
      split at hs
      · next hc =>
          cases hs
          rw [if_pos hc]
          exact .inr ⟨_, rfl, h.dropBlanks⟩
      · cases hs

end SameButEnd

theorem isPrefixOf?_append_self (ds cs : List Char) : List.isPrefixOf? ds (ds ++ cs) = some cs := by
  induction ds with
  | nil => rfl
  | cons d ds ih => simp [isPrefixOf?_cons_cons, ih]

/-! Words at the end -/

section

variable {cs cs' rest rest' : List Char} {w w' : String} {words : List String}

theorem Opens.unique (h : Opens cs [w] rest) (h' : Opens cs [w'] rest') : w = w' ∧ rest = rest' := by
  rcases h.compare h' with ⟨us, heq, hus⟩ | ⟨us, heq, hus⟩
  · obtain ⟨rfl, rfl⟩ : w' = w ∧ us = [] := by simpa using heq
    exact ⟨rfl, hus.eq_of_nil⟩
  · obtain ⟨rfl, rfl⟩ : w = w' ∧ us = [] := by simpa using heq
    exact ⟨rfl, hus.eq_of_nil.symm⟩

theorem Opens.sameButEnd (h : Opens cs [w] rest) (hcs : SameButEnd cs cs') :
    (rest = [] ∧ cs' = w.toList) ∨ ∃ rest', Opens cs' [w] rest' ∧ SameButEnd rest rest' := by
  cases h with
  | @word _ b more _ _ hw hb hdone =>
      obtain rfl := hdone.eq_of_nil
      obtain ⟨more', rfl, hmore⟩ := hcs.append_inv hw
      cases hmore with
      | padding hbs hbs' =>
          have hrest : dropBlanks more = [] :=
            IsPadding.dropBlanks_eq (List.forall_mem_cons.mp hbs).2
          cases more' with
          | nil => exact .inl ⟨hrest, by simp⟩
          | cons b' more' =>
              obtain ⟨hb', hmore'⟩ := List.forall_mem_cons.mp hbs'
              refine .inr ⟨_, .word hw hb'.1 (.done _), ?_⟩
              rw [hrest, IsPadding.dropBlanks_eq hmore']
              exact .padding isPadding_nil isPadding_nil
      | cons _ hmore => exact .inr ⟨_, .word hw hb (.done _), hmore.dropBlanks⟩

variable (hwords : ∀ w ∈ words, NoBlanks w.toList)
include hwords

theorem spaced?_eq_some_iff :
    spaced? words cs = some (w, rest) ↔ w ∈ words ∧ Opens cs [w] rest := by
  refine ⟨opens_spaced? hwords, fun ⟨hmem, hopens⟩ => ?_⟩
  have hsome : (spaced? words cs).isSome = true := by
    refine List.findSome?_isSome_iff.mpr ⟨w, hmem, ?_⟩
    cases hopens with
    | word _ hb _ => simp [isPrefixOf?_append_self, blanks?, hb]
  obtain ⟨⟨w', rest'⟩, hfound⟩ := Option.isSome_iff_exists.mp hsome
  obtain ⟨rfl, rfl⟩ := hopens.unique (opens_spaced? hwords hfound).2
  exact hfound

theorem SameButEnd.spaced? (h : SameButEnd cs cs')
    (hs : Text.spaced? words cs = some (w, rest)) :
    rest = [] ∨ ∃ rest', Text.spaced? words cs' = some (w, rest') ∧ SameButEnd rest rest' := by
  obtain ⟨hw, hopens⟩ := (spaced?_eq_some_iff hwords).mp hs
  rcases hopens.sameButEnd h with ⟨hrest, -⟩ | ⟨rest', hopens', hrest⟩
  · exact .inl hrest
  · exact .inr ⟨rest', (spaced?_eq_some_iff hwords).mpr ⟨hw, hopens'⟩, hrest⟩

theorem SameButEnd.spaced?_eq_none (h : SameButEnd cs cs') (hs : Text.spaced? words cs = none) :
    Text.spaced? words cs' = none ∨ ∃ w ∈ words, cs = w.toList := by
  cases hs' : Text.spaced? words cs' with
  | none => exact .inl rfl
  | some found =>
      obtain ⟨hw, hopens⟩ := (spaced?_eq_some_iff hwords).mp hs'
      rcases hopens.sameButEnd h.symm with ⟨-, hcs⟩ | ⟨rest, hopens', -⟩
      · exact .inr ⟨_, hw, hcs⟩
      · rw [(spaced?_eq_some_iff hwords).mpr ⟨hw, hopens'⟩] at hs
        cases hs

theorem length_lt_of_spaced? (hs : spaced? words cs = some (w, rest)) :
    rest.length < cs.length := by
  cases (opens_spaced? hwords hs).2 with
  | @word _ b more _ _ _ _ hdone =>
      obtain rfl := hdone.eq_of_nil
      have hle := (dropBlanks_suffix more).length_le
      simp only [List.length_append, List.length_cons]
      omega

theorem spaced?_nil : spaced? words [] = none := by
  cases hs : spaced? words [] with
  | none => rfl
  | some found => exact absurd (length_lt_of_spaced? hwords hs) (Nat.not_lt_zero _)

end

/-! Readers that overlook the blanks at the end -/

def Overlooks {β : Type} (R : β → β → Prop) (f : List Char → Option β) : Prop :=
  ∀ ⦃cs cs'⦄, SameButEnd cs cs' → ∀ ⦃b⦄, f cs = some b → ∃ b', f cs' = some b' ∧ R b b'

def SameRest {α : Type} (x y : α × List Char) : Prop :=
  x.1 = y.1 ∧ SameButEnd x.2 y.2

section

variable {α β : Type} {R : β → β → Prop} {words : List String}

theorem Overlooks.isSome_eq {f : List Char → Option β} (hf : Overlooks R f) {cs cs' : List Char}
    (h : SameButEnd cs cs') : (f cs).isSome = (f cs').isSome := by
  rw [Bool.eq_iff_iff, Option.isSome_iff_exists, Option.isSome_iff_exists]
  constructor
  · rintro ⟨b, hb⟩
    obtain ⟨b', hb', -⟩ := hf h hb
    exact ⟨b', hb'⟩
  · rintro ⟨b, hb⟩
    obtain ⟨b', hb', -⟩ := hf h.symm hb
    exact ⟨b', hb'⟩

theorem Overlooks.eq {f : List Char → Option β} (hf : Overlooks Eq f) {cs cs' : List Char}
    (h : SameButEnd cs cs') : f cs = f cs' := by
  have hsome {cs cs' : List Char} (h : SameButEnd cs cs') {b : β} (hb : f cs = some b) :
      f cs' = some b := by
    obtain ⟨b', hb', rfl⟩ := hf h hb
    exact hb'
  exact Option.ext fun b => ⟨hsome h, hsome h.symm⟩

theorem Overlooks.dropBlanks {f : List Char → Option β} (hf : Overlooks R f) :
    Overlooks R fun cs => f (dropBlanks cs) :=
  fun _ _ h _ hb => hf h.dropBlanks hb

/-- Whether a reader finds the same in such texts, unless it leaves nothing. -/
def OverlooksInside (f : List Char → Option (α × List Char)) : Prop :=
  ∀ ⦃cs cs'⦄, SameButEnd cs cs' → ∀ ⦃a rest⦄, f cs = some (a, rest) →
    rest = [] ∨ ∃ rest', f cs' = some (a, rest') ∧ SameButEnd rest rest'

theorem OverlooksInside.bind {f : List Char → Option (α × List Char)}
    {k : α → List Char → Option β} (hf : OverlooksInside f) (hk : ∀ a, Overlooks R (k a))
    (hnil : ∀ a, k a [] = none) :
    Overlooks R fun cs => (f cs).bind fun found => k found.1 found.2 := by
  intro cs cs' h b hb
  obtain ⟨⟨a, rest⟩, hfound, hb⟩ := Option.bind_eq_some_iff.mp hb
  rcases hf h hfound with rfl | ⟨rest', hfound', hrest⟩
  · rw [hnil] at hb
    cases hb
  · obtain ⟨b', hb', hR⟩ := hk a hrest hb
    exact ⟨b', Option.bind_eq_some_iff.mpr ⟨_, hfound', hb'⟩, hR⟩

theorem Overlooks.bind {f : List Char → Option (α × List Char)} {k : α → List Char → Option β}
    (hf : Overlooks SameRest f) (hk : ∀ a, Overlooks R (k a)) :
    Overlooks R fun cs => (f cs).bind fun found => k found.1 found.2 := by
  intro cs cs' h b hb
  obtain ⟨⟨a, rest⟩, hfound, hb⟩ := Option.bind_eq_some_iff.mp hb
  obtain ⟨⟨a', rest'⟩, hfound', rfl, hrest⟩ := hf h hfound
  obtain ⟨b', hb', hR⟩ := hk a hrest hb
  exact ⟨b', Option.bind_eq_some_iff.mpr ⟨_, hfound', hb'⟩, hR⟩

theorem Overlooks.or {f g : List Char → Option β} (hf : Overlooks R f) (hg : Overlooks R g) :
    Overlooks R fun cs => (f cs).or (g cs) := by
  intro cs cs' h b hb
  rcases Option.or_eq_some_iff.mp hb with hb | ⟨hnone, hb⟩
  · obtain ⟨b', hb', hR⟩ := hf h hb
    exact ⟨b', Option.or_eq_some_iff.mpr (.inl hb'), hR⟩
  · obtain ⟨b', hb', hR⟩ := hg h hb
    have hnone' : f cs' = none := by
      rw [← Option.not_isSome_iff_eq_none, ← hf.isSome_eq h, hnone]
      exact Bool.false_ne_true
    exact ⟨b', Option.or_eq_some_iff.mpr (.inr ⟨hnone', hb'⟩), hR⟩

theorem overlooks_some (b : β) : Overlooks Eq fun _ => some b :=
  fun _ _ _ _ hb => ⟨_, hb, rfl⟩

theorem overlooks_rest (a : α) : Overlooks SameRest fun rest => some (a, rest) := by
  intro cs cs' h found hfound
  cases hfound
  exact ⟨_, rfl, rfl, h⟩

theorem overlooks_isPrefixOf? {ds : List Char} (hds : NoBlanks ds) :
    Overlooks SameButEnd (List.isPrefixOf? ds) := by
  intro cs cs' h rest hs
  obtain rfl := eq_append_of_isPrefixOf? hs
  obtain ⟨rest', rfl, hrest⟩ := h.append_inv hds
  exact ⟨rest', isPrefixOf?_append_self ds rest', hrest⟩

theorem overlooks_run? {p : Char → Bool} (hp : ∀ c, p c = true → isBlank c = false) :
    Overlooks SameRest (run? p) := by
  intro cs cs' h found hfound
  obtain ⟨htake, hdrop⟩ := h.takeWhile hp
  unfold run? at hfound ⊢
  rw [← htake]
  split at hfound
  · cases hfound
  · cases hfound
    exact ⟨_, rfl, rfl, hdrop⟩

section

variable (hwords : ∀ w ∈ words, NoBlanks w.toList)
include hwords

theorem overlooksInside_spaced? : OverlooksInside (spaced? words) :=
  fun _ _ h _ _ hs => h.spaced? hwords hs

theorem Overlooks.skipSpaced {k : List Char → Option β} (hk : Overlooks R k) (hnil : k [] = none)
    (hword : ∀ w ∈ words, k w.toList = none) :
    Overlooks R fun cs => k (Text.skipSpaced words cs) := by
  intro cs cs' h b hb
  simp only [Text.skipSpaced] at hb ⊢
  cases hs : Text.spaced? words cs with
  | none =>
      rw [hs] at hb
      rcases h.spaced?_eq_none hwords hs with hs' | ⟨w, hw, rfl⟩
      · rw [hs']
        exact hk h hb
      · rw [hword w hw] at hb
        cases hb
  | some found =>
      obtain ⟨w, rest⟩ := found
      rw [hs] at hb
      rcases h.spaced? hwords hs with rfl | ⟨rest', hs', hrest⟩
      · rw [hnil] at hb
        cases hb
      · rw [hs']
        exact hk hrest hb

theorem Overlooks.spacedRun {k : List String → List Char → Option β}
    (hk : ∀ ws, Overlooks R (k ws)) (hnil : ∀ ws, k ws [] = none)
    (hword : ∀ ws, ∀ w ∈ words, k ws w.toList = none) :
    Overlooks R fun cs => k (Text.spacedRun words cs).1 (Text.spacedRun words cs).2 := by
  -- The words read so far come first, so that the rest of the run can be told on its own.
  have hrun (cs : List Char) : ∀ (before : List String) {cs' : List Char} {b : β},
      SameButEnd cs cs' →
      k (before ++ (Text.spacedRun words cs).1) (Text.spacedRun words cs).2 = some b →
      ∃ b', k (before ++ (Text.spacedRun words cs').1) (Text.spacedRun words cs').2 = some b' ∧
        R b b' := by
    fun_induction Text.spacedRun words cs with
    | case1 cs hs =>
        intro before cs' b h hb
        rcases h.spaced?_eq_none hwords hs with hs' | ⟨w, hw, rfl⟩
        · rw [spacedRun_nil hs']
          exact hk _ h hb
        · rw [hword _ w hw] at hb
          cases hb
    | case2 cs w rest hs _ ws rest' hrest ih =>
        intro before cs' b h hb
        rw [hrest] at ih
        rcases h.spaced? hwords hs with rfl | ⟨_, hs', hsame⟩
        · rw [spacedRun_nil (spaced?_nil hwords)] at hrest
          cases hrest
          rw [hnil] at hb
          cases hb
        · rw [spacedRun_cons hs' (length_lt_of_spaced? hwords hs')]
          have hih := ih (before ++ [w]) hsame (b := b) (by simpa using hb)
          simpa using hih
    | case3 cs w rest hs hlt => exact absurd (length_lt_of_spaced? hwords hs) hlt
  exact fun cs cs' h b hb => hrun cs [] h hb

end

end

end Scaffold.Text
