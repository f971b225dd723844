import Scaffold.Php.Program
import Scaffold.Proofs.Scanning
/-!
What readers do in front of tokens without faults. The rules follow the way in which readers are put
together: each says which words a reader takes, given the kind of the token after them.
-/
namespace Scaffold.Php

structure Cursor.Before (c : Cursor) (depth : Nat) (ts : List Token) : Prop where
  rest : c.rest = ts.map .token
  depth : c.depth = depth
  fits : ts.length ≤ c.bound
  advancing : Advancing c.position ts

theorem Cursor.Before.past {c : Cursor} {depth : Nat} {t : Token} {ts : List Token}
    (h : c.Before depth (t :: ts)) : (c.past t).Before depth ts where
  rest := by
    change c.rest.drop 1 = _
    rw [h.rest]
    rfl
  depth := h.depth
  fits := Nat.le_of_succ_le h.fits
  advancing := h.advancing.2

theorem Cursor.Before.looked {c : Cursor} {depth : Nat} {ts : List Token}
    (h : c.Before depth ts) : c.looked 0 = c := by
  have hrest : (Sight.of 0 c.rest).2 = c.rest := by
    rw [h.rest]
    cases ts <;> rfl
  cases c
  simp only [Cursor.looked] at hrest ⊢
  congr

def firstKind (ws : List Word) (k? : Option Kind) : Option Kind :=
  (ws.head?.map Prod.fst).or k?

theorem firstKind_words (ts us : List Token) :
    firstKind (ts.map Token.word) (us.head?.map Token.kind) = (ts ++ us).head?.map Token.kind := by
  cases ts <;> rfl

namespace Reader

variable {α β : Type} {depth : Nat} {ws ws' : List Word} {k? : Option Kind} {P : α → Prop}
  {Q : β → Prop}

/-- Whether a reader takes exactly these words in front of a token of the given kind, or of the end,
and gives a value that `P` holds of. -/
def Takes (depth : Nat) (r : Reader α) (ws : List Word) (k? : Option Kind) (P : α → Prop) : Prop :=
  ∀ (c : Cursor) (ts us : List Token), c.Before depth (ts ++ us) → ts.map Token.word = ws →
    us.head?.map Token.kind = k? →
      ∃ a c', r c = .kept a c' ∧ P a ∧ c'.Before depth us ∧ c.position + ws.length ≤ c'.position

theorem Takes.mono {P' : α → Prop} {r : Reader α} (h : Takes depth r ws k? P)
    (hP : ∀ a, P a → P' a) : Takes depth r ws k? P' := by
  intro c ts us hc hts hus
  obtain ⟨a, c', hr, ha, hc', hpos⟩ := h c ts us hc hts hus
  exact ⟨a, c', hr, hP a ha, hc', hpos⟩

theorem takes_pure {a : α} (h : P a) : Takes depth (pure a) [] k? P := by
  intro c ts us hc hts _
  obtain rfl := List.map_eq_nil_iff.1 hts
  exact ⟨a, c, rfl, h, hc, Nat.le_refl _⟩

theorem bind_kept {r : Reader α} {f : α → Reader β} {c c' : Cursor} {a : α}
    (h : r c = .kept a c') : (r >>= f) c = f a c' := by
  simp only [bind, h]

theorem takes_bind {r : Reader α} {f : α → Reader β}
    (hr : Takes depth r ws (firstKind ws' k?) P)
    (hf : ∀ a, P a → Takes depth (f a) ws' k? Q) : Takes depth (r >>= f) (ws ++ ws') k? Q := by
  intro c ts us hc hts hus
  obtain ⟨ts, ts', rfl, rfl, rfl⟩ := List.map_eq_append_iff.1 hts
  rw [List.append_assoc] at hc
  obtain ⟨a, c', ha, hP, hc', hpos⟩ :=
    hr c ts (ts' ++ us) hc rfl (by rw [← firstKind_words, hus])
  obtain ⟨b, c'', hb, hQ, hc'', hpos'⟩ := hf a hP c' ts' us hc' rfl hus
  refine ⟨b, c'', ?_, hQ, hc'', ?_⟩
  · rw [bind_kept ha, hb]
  · rw [List.length_append]
    omega

theorem takes_bind_first {r : Reader α} {f : α → Reader β}
    (hr : Takes depth r [] (firstKind ws k?) P)
    (hf : ∀ a, P a → Takes depth (f a) ws k? Q) : Takes depth (r >>= f) ws k? Q :=
  takes_bind hr hf

theorem takes_bind_word {r : Reader α} {f : α → Reader β} {w : Word}
    (hr : Takes depth r [w] (firstKind ws k?) P)
    (hf : ∀ a, P a → Takes depth (f a) ws k? Q) : Takes depth (r >>= f) (w :: ws) k? Q :=
  takes_bind hr hf

theorem takes_bind_last {r : Reader α} {f : α → Reader β} (hr : Takes depth r ws k? P)
    (hf : ∀ a, P a → Takes depth (f a) [] k? Q) : Takes depth (r >>= f) ws k? Q := by
  rw [← List.append_nil ws]
  exact takes_bind hr hf

def Looks (look : Reader (Option Kind)) : Prop :=
  ∀ (c : Cursor) (depth : Nat) (ts : List Token), c.Before depth ts →
    look c = .kept (ts.head?.map Token.kind) c

theorem looks_peek : Looks peek := by
  intro c depth ts h
  have hsight : c.sight 0 = ts.head?.elim .nothing .token := by
    unfold Cursor.sight
    rw [h.rest]
    cases ts <;> rfl
  unfold peek peekPast
  dsimp only
  rw [hsight, h.looked]
  cases ts <;> rfl

theorem takes_look {look : Reader (Option Kind)} (hlook : Looks look) {f : Option Kind → Reader β}
    (h : Takes depth (f (firstKind ws k?)) ws k? Q) : Takes depth (look >>= f) ws k? Q := by
  intro c ts us hc hts hus
  have hkind := hlook c depth _ hc
  rw [← firstKind_words, hts, hus] at hkind
  obtain ⟨b, c', hb, hc'⟩ := h c ts us hc hts hus
  refine ⟨b, c', ?_, hc'⟩
  rw [bind_kept hkind, hb]

theorem takes_peek {f : Option Kind → Reader β} (h : Takes depth (f (firstKind ws k?)) ws k? Q) :
    Takes depth (peek >>= f) ws k? Q :=
  takes_look looks_peek h

theorem takes_peekSecond {f : Option Kind → Reader β} {w w' : Word}
    (h : Takes depth (f (some w'.1)) (w :: w' :: ws) k? Q) :
    Takes depth (peekSecond >>= f) (w :: w' :: ws) k? Q := by
  intro c ts us hc hts hus
  obtain ⟨b, c', hb, hc'⟩ := h c ts us hc hts hus
  obtain ⟨t, _, rfl, rfl, hrest⟩ := List.map_eq_cons_iff.1 hts
  obtain ⟨t', ts, rfl, rfl, rfl⟩ := List.map_eq_cons_iff.1 hrest
  have hlooked : c.looked 1 = c := by
    have hitems : (Sight.of 1 c.rest).2 = c.rest := by
      rw [hc.rest]
      rfl
    rw [Cursor.looked, hitems]
  have hsecond : peekSecond c = .kept (some t'.kind) c := by
    unfold peekSecond peekPast
    dsimp only
    rw [hlooked, Cursor.sight, hc.rest]
    rfl
  refine ⟨b, c', ?_, hc'⟩
  rw [bind_kept hsecond]
  exact hb

theorem takes_advance {f : Token → Reader β} {w : Word}
    (h : ∀ t, t.word = w → Takes depth (f t) ws k? Q) :
    Takes depth (advance >>= f) (w :: ws) k? Q := by
  intro c ts us hc hts hus
  obtain ⟨t, ts, rfl, rfl, rfl⟩ := List.map_eq_cons_iff.1 hts
  have hadvance : advance c = .kept t (c.past t) := by
    unfold advance
    dsimp only
    rw [hc.looked, Cursor.sight, hc.rest]
    rfl
  obtain ⟨b, c', hb, hQ, hc', hpos⟩ := h t rfl (c.past t) ts us hc.past rfl hus
  refine ⟨b, c', ?_, hQ, hc', ?_⟩
  · rw [bind_kept hadvance, hb]
  · have hstop : c.position < t.stop := hc.advancing.1
    change t.stop + _ ≤ _ at hpos
    rw [List.length_cons]
    omega

theorem takes_note : Takes depth note [] k? (fun _ => True) := by
  intro c ts us hc hts _
  obtain rfl := List.map_eq_nil_iff.1 hts
  exact ⟨(), _, rfl, trivial, ⟨hc.rest, hc.depth, hc.fits, hc.advancing⟩, Nat.le_refl _⟩

theorem takes_if_pos {p : Prop} [Decidable p] {r r' : Reader α} (hp : p)
    (h : Takes depth r ws k? P) : Takes depth (if p then r else r') ws k? P := by
  rwa [if_pos hp]

theorem takes_if_neg {p : Prop} [Decidable p] {r r' : Reader α} (hp : ¬p)
    (h : Takes depth r' ws k? P) : Takes depth (if p then r else r') ws k? P := by
  rwa [if_neg hp]

theorem bind_assoc {γ : Type} (r : Reader α) (f : α → Reader β) (g : β → Reader γ) :
    (r >>= f) >>= g = r >>= fun a => f a >>= g := by
  refine Reader.ext (funext fun c => ?_)
  simp only [bind]
  cases r c <;> rfl

theorem takes_eat {f : Token → Reader β} {w : Word}
    (h : ∀ t, t.word = w → Takes depth (f t) ws k? Q) :
    Takes depth (eat w.1 >>= f) (w :: ws) k? Q := by
  unfold eat
  rw [bind_assoc]
  have hkind : firstKind (w :: ws) k? = some w.1 := rfl
  refine takes_peek ?_
  rw [if_pos hkind]
  exact takes_advance h

theorem takes_eatIf_pos {f : Bool → Reader β} {k : Kind} {text : String}
    (h : Takes depth (f true) ws k? Q) : Takes depth (eatIf k >>= f) ((k, text) :: ws) k? Q := by
  unfold eatIf
  rw [bind_assoc]
  have hkind : firstKind ((k, text) :: ws) k? = some k := rfl
  refine takes_peek ?_
  rw [if_pos hkind, bind_assoc]
  exact takes_advance fun _ _ => h

theorem takes_eatIf_neg {f : Bool → Reader β} {k : Kind} (hk : firstKind ws k? ≠ some k)
    (h : Takes depth (f false) ws k? Q) : Takes depth (eatIf k >>= f) ws k? Q := by
  unfold eatIf
  rw [bind_assoc]
  refine takes_peek ?_
  rw [if_neg hk]
  exact h

theorem takes_bound {f : Nat → Reader β} (h : ∀ n, ws.length ≤ n → Takes depth (f (n + 1)) ws k? Q) :
    Takes depth (bound >>= f) ws k? Q := by
  intro c ts us hc hts hus
  have hlength : ws.length ≤ c.bound := by
    have hfits := hc.fits
    rw [List.length_append] at hfits
    rw [← hts, List.length_map]
    omega
  exact h c.bound hlength c ts us hc hts hus

theorem takes_nextStart {f : Nat → Reader β} (h : ∀ start, Takes depth (f start) ws k? Q) :
    Takes depth (nextStart >>= f) ws k? Q := by
  intro c ts us hc hts hus
  exact h _ c ts us hc hts hus

theorem takes_rounds {loop : Nat → Reader α}
    (h : ∀ n, ws.length ≤ n → Takes depth (loop (n + 1)) ws k? P) :
    Takes depth (rounds loop) ws k? P :=
  takes_bound h

theorem takes_nested {r : Reader α} (hdepth : depth < maxDepth)
    (h : Takes (depth + 1) r ws k? P) : Takes depth (nested r) ws k? P := by
  intro c ts us hc hts hus
  have hdeeper : ({ c with depth := c.depth + 1 } : Cursor).Before (depth + 1) (ts ++ us) :=
    ⟨hc.rest, congrArg (· + 1) hc.depth, hc.fits, hc.advancing⟩
  obtain ⟨a, c', hr, ha, hc', hpos⟩ := h _ ts us hdeeper hts hus
  refine ⟨a, { c' with depth := c.depth }, ?_, ha,
    ⟨hc'.rest, hc.depth, hc'.fits, hc'.advancing⟩, hpos⟩
  unfold nested
  dsimp only
  rw [if_pos (by rw [hc.depth]; exact hdepth), hr]

section

variable {look : Reader (Option Kind)} {stops : Kind → Bool} {item : Reader α}

theorem takes_recovering_stop (hlook : Looks look) (hk : ∀ k ∈ k?, stops k = true) (n : Nat) :
    Takes depth (recovering look stops item (n + 1)) [] k? (· = []) := by
  refine takes_look hlook ?_
  cases k? with
  | none => exact takes_pure rfl
  | some k => exact takes_if_pos (hk k rfl) (takes_pure rfl)

theorem takes_recovering_cons {PS : List α → Prop} {n : Nat} {w : Word} (hlook : Looks look)
    (hw : stops w.1 = false) (hitem : Takes depth item (w :: ws) (firstKind ws' k?) P)
    (hitems : Takes depth (recovering look stops item n) ws' k? PS) :
    Takes depth (recovering look stops item (n + 1)) (w :: ws ++ ws') k?
      (fun as => ∃ a as', as = a :: as' ∧ P a ∧ PS as') := by
  refine takes_look hlook ?_
  change Takes depth (if stops w.1 then _ else _) _ _ _
  refine takes_if_neg (by simp [hw]) ?_
  intro c ts us hc hts hus
  obtain ⟨ts, ts', rfl, hts, hts'⟩ := List.map_eq_append_iff.1 hts
  rw [List.append_assoc] at hc
  obtain ⟨a, c', ha, hP, hc', hpos⟩ :=
    hitem c ts (ts' ++ us) hc hts (by rw [← firstKind_words, hts', hus])
  obtain ⟨as, c'', has, hPS, hc'', hpos'⟩ := hitems c' ts' us hc' hts' hus
  -- The item took a token, so none is skipped.
  have hmoved : c'.position ≠ c.position := by
    rw [List.length_cons] at hpos
    omega
  refine ⟨a :: as, c'', ?_, ⟨a, as, rfl, hP, hPS⟩, hc'', ?_⟩
  · have habsorb : absorb item c = .kept (some a) c' := by simp only [absorb, ha]
    rw [bind_kept (r := position) rfl, bind_kept habsorb, bind_kept (r := position) rfl,
      if_neg hmoved]
    exact bind_kept has
  · rw [List.length_append]
    omega

end

theorem takes_absorb {r : Reader α} (h : Takes depth r ws k? P) :
    Takes depth (absorb r) ws k? (fun a? => ∃ a, a? = some a ∧ P a) := by
  intro c ts us hc hts hus
  obtain ⟨a, c', hr, ha, hc', hpos⟩ := h c ts us hc hts hus
  refine ⟨some a, c', ?_, ⟨a, rfl, ha⟩, hc', hpos⟩
  simp only [absorb, hr]

section

variable {close : Mark} {item : Reader α}

theorem takes_itemsUntil_nil (n : Nat) :
    Takes depth (itemsUntil close item (n + 1)) [] (some (.mark close)) (· = []) :=
  takes_peek (takes_if_pos rfl (takes_pure rfl))

theorem takes_itemsUntil_last {w : Word} (hw : w.1 ≠ .mark close) (hk : k? ≠ some (.mark .comma))
    (hitem : Takes depth item (w :: ws) k? P) (n : Nat) :
    Takes depth (itemsUntil close item (n + 1)) (w :: ws) k? (fun as => ∃ a, as = [a] ∧ P a) := by
  refine takes_peek ?_
  refine takes_if_neg hw ?_
  refine takes_bind_last (takes_absorb hitem) ?_
  rintro _ ⟨a, rfl, ha⟩
  refine takes_eatIf_neg hk ?_
  exact takes_pure ⟨a, rfl, ha⟩

theorem takes_itemsUntil_cons {PS : List α → Prop} {n : Nat} {w : Word} {text : String}
    (hw : w.1 ≠ .mark close) (hitem : Takes depth item (w :: ws) (some (.mark .comma)) P)
    (hitems : Takes depth (itemsUntil close item n) ws' k? PS) :
    Takes depth (itemsUntil close item (n + 1)) (w :: ws ++ (.mark .comma, text) :: ws') k?
      (fun as => ∃ a as', as = a :: as' ∧ P a ∧ PS as') := by
  refine takes_peek ?_
  refine takes_if_neg hw ?_
  refine takes_bind (takes_absorb hitem) ?_
  rintro _ ⟨a, rfl, ha⟩
  refine takes_eatIf_pos ?_
  refine takes_bind_last hitems ?_
  intro as has
  exact takes_pure ⟨a, as, rfl, ha, has⟩

theorem takes_listed {opening : Mark} {open_ close_ : String} {PS : List α → Prop}
    (hitems : ∀ n, ws.length ≤ n →
      Takes depth (itemsUntil close item (n + 1)) ws (some (.mark close)) PS) :
    Takes depth (listed opening close item)
      ((.mark opening, open_) :: (ws ++ [(.mark close, close_)])) k? PS := by
  refine takes_eat fun _ _ => ?_
  refine takes_bind (takes_rounds hitems) ?_
  intro as has
  refine takes_bind_last (P := fun _ => True) ?_ fun _ _ => takes_pure has
  refine takes_peek ?_
  refine takes_if_pos rfl ?_
  exact takes_advance fun _ _ => takes_pure trivial

end

theorem looks_absorb_peek : Looks (do return (← absorb peek).join) := by
  intro c depth ts h
  have habsorb : absorb peek c = .kept (some (ts.head?.map Token.kind)) c := by
    simp only [absorb, looks_peek c depth ts h]
  exact bind_kept habsorb

end Reader

open Reader in
theorem takes_openTag {depth : Nat} {k? : Option Kind} (r : Rules) (text : String) :
    Takes depth (Grammar.statement r) [(.openTag, text)] k? (· = .other) :=
  takes_peek (takes_advance fun _ _ => takes_pure rfl)

open Reader in
theorem statements_parse {source : String} {rest : List Char} {w : Word} {ws : List Word}
    {P : Statement → Prop} (hsource : source.toList = '<' :: '?' :: 'p' :: 'h' :: 'p' :: rest)
    (hrest : Scans rest (w :: ws))
    (h : ∀ n, Takes 0 (Grammar.statement (Rules.upTo (n + 2))) (w :: ws) none P) :
    ∃ s, P s ∧ (Program.parse source).statements = [.other, s] := by
  obtain ⟨ts, hts, hws, hadvancing⟩ := hrest 5
  have hitems : items source = (⟨.openTag, "<?php", 0, 5⟩ :: ts).map .token := by
    rw [items_of_tag hsource, hts]
    rfl
  have hlength : (items source).length = ws.length + 2 := by
    rw [hitems, List.length_map, List.length_cons, ← List.length_map Token.word, hws]
    rfl
  have hstart : (⟨items source, (items source).length, false, 0, 0⟩ : Cursor).Before 0
      ((⟨.openTag, "<?php", 0, 5⟩ :: ts) ++ []) := by
    rw [List.append_nil]
    have hfits : (⟨.openTag, "<?php", 0, 5⟩ :: ts).length = (items source).length := by
      rw [hitems, List.length_map]
    exact ⟨hitems, rfl, Nat.le_of_eq hfits, Nat.succ_pos 4, hadvancing⟩
  have hlast : Takes 0 (Grammar.statement (Rules.upTo (items source).length)) (w :: ws) none P := by
    rw [hlength]
    exact h _
  have hnone : Takes 0 (recovering (do return (← absorb peek).join) (fun _ => false)
      (Grammar.statement (Rules.upTo (items source).length)) (ws.length + 1)) [] none (· = []) :=
    takes_recovering_stop looks_absorb_peek (by simp) ws.length
  have hstatements := takes_recovering_cons looks_absorb_peek rfl
    (takes_openTag (Rules.upTo (items source).length) "<?php")
    (takes_recovering_cons looks_absorb_peek rfl hlast hnone)
  rw [show ws.length + 1 + 1 + 1 = (items source).length + 1 by omega] at hstatements
  obtain ⟨_, c', hc', ⟨_, _, rfl, rfl, s, _, rfl, hs, rfl⟩, -⟩ :=
    hstatements _ _ [] hstart (by rw [List.map_cons, hws]; simp [Token.word]) rfl
  refine ⟨s, hs, ?_⟩
  unfold Program.parse
  simp only [hc']

end Scaffold.Php
