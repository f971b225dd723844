import Scaffold.Php.Cursor
import Scaffold.Proofs.Spelling
/-!
What readers give. A value that a reader keeps is built from what its parts give, whatever is known
of the items that are left; only a token that was looked at before it is taken needs the place where
reading stands.
-/
namespace Scaffold.Php

theorem Sight.of_eq_token {items : List Item} {t : Token} (h : (of 0 items).1 = .token t) :
    ∃ rest, items = .token t :: rest := by
  cases items with
  | nil => simp [of] at h
  | cons i items =>
      cases i with
      | token t' =>
          obtain rfl : t' = t := by simpa [of] using h
          exact ⟨items, rfl⟩
      | fault => simp [of] at h
      | gap => simp [of] at h
      | jam => simp [of] at h

def Cursor.ReadsFrom (I : Item → Prop) (c : Cursor) : Prop :=
  ∀ i ∈ c.rest, I i

theorem Cursor.ReadsFrom.kept {α : Type} {I : Item → Prop} {r : Reader α} {c c' : Cursor} {a : α}
    (hc : c.ReadsFrom I) (h : r c = .kept a c') : c'.ReadsFrom I := by
  have hrest := r.shrinks c
  rw [h] at hrest
  exact fun i hi => hc i (hrest hi)

theorem Cursor.ReadsFrom.token {I : Item → Prop} {c : Cursor} {t : Token}
    (hc : c.ReadsFrom I) (h : c.sight 0 = .token t) : I (.token t) := by
  obtain ⟨rest, hr⟩ := Sight.of_eq_token h
  exact hc (.token t) (by simp [hr])

theorem Cursor.sight_looked {c : Cursor} {t : Token} (h : c.sight 0 = .token t) :
    (c.looked 0).sight 0 = .token t := by
  obtain ⟨rest, hr⟩ := Sight.of_eq_token h
  change (Sight.of 0 (Sight.of 0 c.rest).2).1 = .token t
  rw [hr]
  rfl

namespace Reader

variable {α β : Type} {I : Item → Prop} {P : α → Prop} {Q : β → Prop}

def Yields (I : Item → Prop) (P : α → Prop) (r : Reader α) : Prop :=
  ∀ c a c', c.ReadsFrom I → r c = .kept a c' → P a

def YieldsAt (I : Item → Prop) (k : Kind) (P : α → Prop) (r : Reader α) : Prop :=
  ∀ c t a c', c.ReadsFrom I → c.sight 0 = .token t → t.kind = k → r c = .kept a c' → P a

theorem Yields.at {r : Reader α} (h : Yields I P r) (k : Kind) : YieldsAt I k P r :=
  fun c _ a c' hc _ _ hr => h c a c' hc hr

theorem bind_eq_kept {r : Reader α} {f : α → Reader β} {c c'' : Cursor} {b : β}
    (h : (r >>= f) c = .kept b c'') : ∃ a c', r c = .kept a c' ∧ f a c' = .kept b c'' := by
  simp only [bind] at h
  split at h
  · next a c' hr => exact ⟨a, c', hr, h⟩
  · cases h

theorem yields_pure {a : α} (h : P a) : Yields I P (pure a) := by
  intro c a' c' _ hr
  cases hr
  exact h

theorem yields_fail : Yields I P fail :=
  fun _ _ _ _ hr => nomatch hr

theorem yields_bind {r : Reader α} {f : α → Reader β} (hr : Yields I P r)
    (hf : ∀ a, P a → Yields I Q (f a)) : Yields I Q (r >>= f) := by
  intro c b c'' hc h
  obtain ⟨a, c', ha, hb⟩ := bind_eq_kept h
  exact hf a (hr c a c' hc ha) c' b c'' (hc.kept ha) hb

theorem yields_then {r : Reader α} {f : α → Reader β} (hf : ∀ a, Yields I Q (f a)) :
    Yields I Q (r >>= f) := by
  intro c b c'' hc h
  obtain ⟨a, c', ha, hb⟩ := bind_eq_kept h
  exact hf a c' b c'' (hc.kept ha) hb

theorem advance_eq_kept {c c' : Cursor} {t : Token} (h : advance c = .kept t c') :
    c.sight 0 = .token t := by
  simp only [advance] at h
  split at h
  · next t' ht =>
      cases h
      exact ht
  · cases h

theorem yields_advance : Yields I (fun t => I (.token t)) advance :=
  fun _ _ _ hc h => hc.token (advance_eq_kept h)

theorem yields_peek {f : Option Kind → Reader β} (hnone : Yields I Q (f none))
    (hsome : ∀ k, YieldsAt I k Q (f (some k))) : Yields I Q (peek >>= f) := by
  intro c b c'' hc h
  obtain ⟨k?, c', hpeek, hf⟩ := bind_eq_kept h
  have hc' := hc.kept hpeek
  simp only [peek, peekPast] at hpeek
  split at hpeek
  · next t ht =>
      cases hpeek
      exact hsome t.kind _ t b c'' hc' (Cursor.sight_looked ht) rfl hf
  · cases hpeek
    exact hnone _ b c'' hc' hf
  · cases hpeek

theorem yieldsAt_advance {k : Kind} {f : Token → Reader β}
    (hf : ∀ t, t.kind = k → I (.token t) → Yields I Q (f t)) :
    YieldsAt I k Q (advance >>= f) := by
  intro c t b c'' hc ht hk h
  obtain ⟨t', c', hadv, hb⟩ := bind_eq_kept h
  obtain rfl : t = t' := Sight.token.inj (ht.symm.trans (advance_eq_kept hadv))
  exact hf t hk (hc.token ht) c' b c'' (hc.kept hadv) hb

theorem yields_eat (k : Kind) :
    Yields I (fun t => t.kind = k ∧ I (.token t)) (eat k) := by
  refine yields_peek ?_ fun k' => ?_
  · rw [if_neg (by simp)]
    exact yields_fail
  · split
    · next h =>
        cases h
        intro c t a c' hc ht hk hr
        obtain rfl : t = a := Sight.token.inj (ht.symm.trans (advance_eq_kept hr))
        exact ⟨hk, hc.token ht⟩
    · exact yields_fail.at k'

theorem yields_anyName {source : List Char} :
    Yields (Item.IsOf source) (fun name => IsSolid name.toList) anyName := by
  refine yields_bind yields_advance fun t ht => ?_
  split
  · next hk => exact yields_pure (by simpa [hk, Kind.Spells] using ht.1)
  · next k hk => exact yields_pure (by simpa [hk, Kind.Spells] using ht.1)
  · exact yields_fail

theorem yields_absorb {r : Reader α} (h : Yields I P r) :
    Yields I (fun a? => ∀ a ∈ a?, P a) (absorb r) := by
  intro c a? c' hc hr
  simp only [absorb] at hr
  split at hr
  · next a c₁ ha =>
      cases hr
      simpa using h c a _ hc ha
  · cases hr
    simp

theorem yields_some {r : Reader α} (h : Yields I P r) :
    Yields I (fun a? => ∀ a ∈ a?, P a) (some <$> r) :=
  yields_bind h fun a ha => yields_pure (by simpa using ha)

theorem yields_rounds {loop : Nat → Reader α} (h : ∀ n, Yields I P (loop n)) :
    Yields I P (rounds loop) :=
  yields_then h

theorem yields_recovering {item : Reader α} (h : Yields I P item) (look : Reader (Option Kind))
    (stops : Kind → Bool) (n : Nat) :
    Yields I (fun as => ∀ a ∈ as, P a) (recovering look stops item n) := by
  induction n with
  | zero => exact yields_pure (by simp)
  | succ n ih =>
      have hrest (a? : Option α) (ha : ∀ a ∈ a?, P a) :
          Yields I (fun as => ∀ a ∈ as, P a) (do
            let as ← recovering look stops item n
            pure (a?.toList ++ as)) := by
        refine yields_bind ih fun as has => yields_pure ?_
        exact List.forall_mem_append.mpr ⟨by simpa using ha, has⟩
      refine yields_then fun k? => ?_
      split
      · exact yields_pure (by simp)
      · split
        · exact yields_pure (by simp)
        · refine yields_then fun before => yields_bind (yields_absorb h) fun a? ha => ?_
          refine yields_then fun now => ?_
          dsimp only
          split
          · exact yields_then fun _ => hrest a? ha
          · exact hrest a? ha

theorem yields_itemsUntil {item : Reader α} (h : Yields I P item) (close : Mark) (n : Nat) :
    Yields I (fun as => ∀ a ∈ as, P a) (itemsUntil close item n) := by
  induction n with
  | zero => exact yields_pure (by simp)
  | succ n ih =>
      refine yields_then fun k? => ?_
      split
      · exact yields_fail
      · split
        · exact yields_pure (by simp)
        · refine yields_bind (yields_absorb h) fun a? ha => yields_then fun more => ?_
          split
          · refine yields_bind ih fun as has => yields_pure ?_
            exact List.forall_mem_append.mpr ⟨by simpa using ha, has⟩
          · exact yields_pure (by simpa using ha)

theorem yields_listed {item : Reader α} (h : Yields I P item) (opening close : Mark) :
    Yields I (fun as => ∀ a ∈ as, P a) (listed opening close item) :=
  yields_then fun _ => yields_bind (yields_rounds (yields_itemsUntil h close)) fun _ has =>
    yields_then fun _ => yields_pure has

theorem yields_separatedUntil {item : Reader α} (h : Yields I P item) (stops : Kind → Bool)
    (n : Nat) : Yields I (fun as => ∀ a ∈ as, P a) (separatedUntil stops item n) := by
  induction n with
  | zero => exact yields_pure (by simp)
  | succ n ih =>
      refine yields_then fun k? => ?_
      split
      · exact yields_fail
      · split
        · exact yields_pure (by simp)
        · refine yields_bind h fun a ha => yields_then fun more => ?_
          split
          · exact yields_bind ih fun as has =>
              yields_pure (List.forall_mem_cons.mpr ⟨ha, has⟩)
          · exact yields_pure (by simpa using ha)

end Reader

end Scaffold.Php
