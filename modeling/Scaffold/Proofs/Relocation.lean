import Mathlib.Data.List.Forall2
import Scaffold.Php.Cursor
import Scaffold.Proofs.Scanning
/-!
Readers and the places of tokens. A reader that only asks for the kinds and texts of tokens does the
same on two sources with the same words, wherever these stand. Places matter in one way: a loop
compares two of them to find out if a token was taken, so different places have to stay different.
-/
namespace Scaffold.Php

variable {P : Nat → Nat → Prop}

inductive Item.Moved (P : Nat → Nat → Prop) : Item → Item → Prop
  | token {t t' : Token} (word : t.word = t'.word) (stop : P t.stop t'.stop) :
      Moved P (.token t) (.token t')
  | fault : Moved P .fault .fault
  | gap : Moved P .gap .gap
  | jam : Moved P .jam .jam

inductive Sight.Moved (P : Nat → Nat → Prop) : Sight → Sight → Prop
  | token {t t' : Token} (word : t.word = t'.word) (stop : P t.stop t'.stop) :
      Moved P (.token t) (.token t')
  | nothing : Moved P .nothing .nothing
  | fault : Moved P .fault .fault

theorem Sight.of_moved {items items' : List Item} (h : List.Forall₂ (Item.Moved P) items items')
    (n : Nat) :
    Sight.Moved P (of n items).1 (of n items').1 ∧
      List.Forall₂ (Item.Moved P) (of n items).2 (of n items').2 := by
  induction h generalizing n with
  | nil => exact ⟨by simpa [of] using .nothing, by simp [of]⟩
  | @cons _ _ items items' hitem hitems ih =>
      cases hitem with
      | token hword hstop =>
          cases n with
          | zero => exact ⟨.token hword hstop, .cons (.token hword hstop) hitems⟩
          | succ n => exact ⟨(ih n).1, .cons (.token hword hstop) (ih n).2⟩
      | fault => cases n <;> exact ⟨.fault, hitems⟩
      | gap => cases n <;> exact ⟨.nothing, hitems⟩
      | jam => cases n <;> exact ⟨.fault, .cons .jam hitems⟩

structure Cursor.Moved (P : Nat → Nat → Prop) (c c' : Cursor) : Prop where
  rest : List.Forall₂ (Item.Moved P) c.rest c'.rest
  bound : c.bound = c'.bound
  faulty : c.faulty = c'.faulty
  depth : c.depth = c'.depth
  position : P c.position c'.position

namespace Cursor.Moved

variable {c c' : Cursor}

theorem sight (h : c.Moved P c') (n : Nat) : (c.sight n).Moved P (c'.sight n) :=
  (Sight.of_moved h.rest n).1

theorem looked (h : c.Moved P c') (n : Nat) : (c.looked n).Moved P (c'.looked n) where
  rest := (Sight.of_moved h.rest n).2
  bound := h.bound
  faulty := h.faulty
  depth := h.depth
  position := h.position

theorem past {t t' : Token} (h : c.Moved P c') (hstop : P t.stop t'.stop) :
    (c.past t).Moved P (c'.past t') where
  rest := List.forall₂_drop 1 h.rest
  bound := h.bound
  faulty := h.faulty
  depth := h.depth
  position := hstop

theorem noted (h : c.Moved P c') : { c with faulty := true }.Moved P { c' with faulty := true } where
  rest := h.rest
  bound := h.bound
  faulty := rfl
  depth := h.depth
  position := h.position

theorem at_depth (h : c.Moved P c') {d d' : Nat} (hd : d = d') :
    { c with depth := d }.Moved P { c' with depth := d' } where
  rest := h.rest
  bound := h.bound
  faulty := h.faulty
  depth := hd
  position := h.position

end Cursor.Moved

inductive Reply.Moved {α γ : Type} (P : Nat → Nat → Prop) (v : α → γ) : Reply α → Reply α → Prop
  | kept {a a' : α} {c c' : Cursor} (value : v a = v a') (next : c.Moved P c') :
      Moved P v (.kept a c) (.kept a' c')
  | lost {c c' : Cursor} (next : c.Moved P c') : Moved P v (.lost c) (.lost c')

namespace Reader

variable {α β γ δ : Type} {v : α → γ} {w : β → δ}

/-- Whether two readers do the same wherever tokens stand. What they give is compared by what `v`
shows of it. -/
def Agree (P : Nat → Nat → Prop) (v : α → γ) (r r' : Reader α) : Prop :=
  ∀ c c', c.Moved P c' → (r c).Moved P v (r' c')

def Steady (P : Nat → Nat → Prop) (v : α → γ) (r : Reader α) : Prop :=
  Agree P v r r

theorem agree_pure {a a' : α} (h : v a = v a') : Agree P v (pure a) (pure a') :=
  fun _ _ hc => .kept h hc

theorem steady_pure (a : α) : Steady P v (pure a) :=
  agree_pure rfl

theorem steady_fail : Steady P v fail :=
  fun _ _ hc => .lost hc

theorem agree_bind {r r' : Reader α} {f f' : α → Reader β} (hr : Agree P v r r')
    (hf : ∀ a a', v a = v a' → Agree P w (f a) (f' a')) : Agree P w (r >>= f) (r' >>= f') := by
  intro c c' hc
  have hreply := hr c c' hc
  simp only [bind]
  generalize r c = x, r' c' = y at hreply
  cases hreply with
  | kept ha hnext => exact hf _ _ ha _ _ hnext
  | lost hnext => exact .lost hnext

theorem agree_then {r : Reader α} {f f' : α → Reader β} (hr : Steady P id r)
    (hf : ∀ a, Agree P w (f a) (f' a)) : Agree P w (r >>= f) (r >>= f') := by
  refine agree_bind hr fun a a' ha => ?_
  obtain rfl : a = a' := ha
  exact hf a

theorem steady_then {r : Reader α} {f : α → Reader β} (hr : Steady P id r)
    (hf : ∀ a, Steady P w (f a)) : Steady P w (r >>= f) :=
  agree_then hr hf

theorem agree_after {r : Reader α} {f f' : α → Reader β} (hr : Steady P v r)
    (hf : ∀ a a', Agree P w (f a) (f' a')) : Agree P w (r >>= f) (r >>= f') :=
  agree_bind hr fun a a' _ => hf a a'

theorem steady_after {r : Reader α} {r' : Reader β} (hr : Steady P v r) (hr' : Steady P w r') :
    Steady P w (r >>= fun _ => r') :=
  agree_after hr fun _ _ => hr'

theorem agree_if {p : Prop} [Decidable p] {r r' q q' : Reader α} (hr : Agree P v r r')
    (hq : Agree P v q q') : Agree P v (if p then r else q) (if p then r' else q') := by
  by_cases hp : p
  · rwa [if_pos hp, if_pos hp]
  · rwa [if_neg hp, if_neg hp]

theorem steady_peekPast (n : Nat) : Steady P id (peekPast n) := by
  intro c c' hc
  have hsight := hc.sight n
  simp only [peekPast]
  generalize c.sight n = x, c'.sight n = y at hsight
  cases hsight with
  | token hword _ => exact .kept (congrArg (fun word : Word => some word.1) hword) (hc.looked n)
  | nothing => exact .kept rfl (hc.looked n)
  | fault => exact .lost (hc.looked n)

theorem steady_peek : Steady P id peek :=
  steady_peekPast 0

theorem steady_peekSecond : Steady P id peekSecond :=
  steady_peekPast 1

theorem steady_peekThird : Steady P id peekThird :=
  steady_peekPast 2

theorem agree_position {f f' : Nat → Reader β} (hf : ∀ a a', P a a' → Agree P w (f a) (f' a')) :
    Agree P w (position >>= f) (position >>= f') :=
  fun c c' hc => hf _ _ hc.position c c' hc

theorem agree_nextStart {f f' : Nat → Reader β} (hf : ∀ a a', Agree P w (f a) (f' a')) :
    Agree P w (nextStart >>= f) (nextStart >>= f') :=
  fun c c' hc => hf _ _ c c' hc

theorem steady_bound : Steady P id bound :=
  fun _ _ hc => .kept (congrArg Nat.succ hc.bound) hc

theorem steady_advance : Steady P Token.word advance := by
  intro c c' hc
  have hsight := hc.sight 0
  simp only [advance]
  generalize c.sight 0 = x, c'.sight 0 = y at hsight
  cases hsight with
  | token hword hstop => exact .kept hword ((hc.looked 0).past hstop)
  | nothing => exact .lost (hc.looked 0)
  | fault => exact .lost (hc.looked 0)

theorem steady_token {r : Reader Token} {f : Token → Reader β} (hr : Steady P Token.word r)
    (hword : ∀ k x start stop, f ⟨k, x, start, stop⟩ = f ⟨k, x, 0, 0⟩)
    (hf : ∀ t, Steady P w (f t)) : Steady P w (r >>= f) := by
  refine agree_bind hr ?_
  rintro ⟨k, x, start, stop⟩ ⟨_, _, start', stop'⟩ ⟨⟩
  rw [hword k x start stop, hword k x start' stop']
  exact hf _

theorem steady_eat (k : Kind) : Steady P Token.word (eat k) := by
  refine steady_then steady_peek fun k? => ?_
  split
  · exact steady_advance
  · exact steady_fail

theorem steady_eatIf (k : Kind) : Steady P id (eatIf k) := by
  refine steady_then steady_peek fun k? => ?_
  split
  · exact steady_after steady_advance (steady_pure _)
  · exact steady_pure _

theorem steady_note : Steady P id note :=
  fun _ _ hc => .kept rfl hc.noted

theorem steady_absorb {r : Reader α} (h : Steady P v r) : Steady P (Option.map v) (absorb r) := by
  intro c c' hc
  have hr := h c c' hc
  simp only [absorb]
  generalize r c = x, r c' = y at hr
  cases hr with
  | kept ha hnext => exact .kept (congrArg some ha) hnext
  | lost hnext => exact .kept rfl hnext.noted

theorem steady_nested {r : Reader α} (h : Steady P v r) : Steady P v (nested r) := by
  intro c c' hc
  have hr := h _ _ (hc.at_depth (d := c'.depth + 1) rfl)
  simp only [nested, hc.depth]
  split
  · generalize r { c with depth := c'.depth + 1 } = x, r { c' with depth := c'.depth + 1 } = y at hr
    cases hr with
    | kept ha hnext => exact .kept ha (hnext.at_depth rfl)
    | lost hnext => exact .lost (hnext.at_depth rfl)
  · exact .lost hc

theorem steady_skip : Steady P id skip := by
  intro c c' hc
  have hsight := hc.sight 0
  simp only [skip]
  generalize c.sight 0 = x, c'.sight 0 = y at hsight
  cases hsight with
  | token hword hstop => exact .kept rfl ((hc.looked 0).past hstop).noted
  | nothing => exact .kept rfl (hc.looked 0)
  | fault => exact .kept rfl (hc.looked 0)

theorem steady_rounds {loop : Nat → Reader α} (h : ∀ n, Steady P v (loop n)) :
    Steady P v (rounds loop) :=
  steady_then steady_bound h

theorem map_toList_append {a? b? : Option α} {as bs : List α} (h? : a?.map v = b?.map v)
    (h : as.map v = bs.map v) : (a?.toList ++ as).map v = (b?.toList ++ bs).map v := by
  rw [List.map_append, List.map_append, h, ← Option.toList_map, ← Option.toList_map, h?]

section

variable {item : Reader α} (h : Steady P v item)
include h

/-- The places before and after an item are the same in one source exactly if they are in the
other. -/
theorem steady_recovering (hP : Relator.BiUnique P) {look : Reader (Option Kind)}
    (hlook : Steady P id look) (stops : Kind → Bool) (n : Nat) :
    Steady P (List.map v) (recovering look stops item n) := by
  induction n with
  | zero => exact steady_pure _
  | succ n ih =>
      have hrest (a? a?' : Option α) (ha : a?.map v = a?'.map v) :
          Agree P (List.map v)
            (do
              let as ← recovering look stops item n
              pure (a?.toList ++ as))
            (do
              let as ← recovering look stops item n
              pure (a?'.toList ++ as)) :=
        agree_bind ih fun as as' has => agree_pure (map_toList_append ha has)
      refine steady_then hlook fun k? => ?_
      split
      · exact steady_pure _
      · split
        · exact steady_pure _
        · refine agree_position fun before before' hbefore => ?_
          refine agree_bind (steady_absorb h) fun a? a?' ha => ?_
          refine agree_position fun now now' hnow => ?_
          have hsame : now = before ↔ now' = before' :=
            ⟨fun heq => hP.2 hnow (heq ▸ hbefore), fun heq => hP.1 hnow (heq ▸ hbefore)⟩
          by_cases heq : now = before
          · simp only [if_pos heq, if_pos (hsame.mp heq)]
            exact agree_then steady_skip fun _ => hrest a? a?' ha
          · simp only [if_neg heq, if_neg (mt hsame.mpr heq)]
            exact hrest a? a?' ha

theorem steady_strictly (stops : Kind → Bool) (n : Nat) :
    Steady P (List.map v) (strictly stops item n) := by
  induction n with
  | zero => exact steady_pure _
  | succ n ih =>
      refine steady_then steady_peek fun k? => ?_
      split
      · exact steady_fail
      · split
        · exact steady_pure _
        · refine agree_bind h fun a a' ha => agree_bind ih fun as as' has => agree_pure ?_
          exact congrArg₂ List.cons ha has

end

section

variable {item : Reader α} (h : Steady P id item)
include h

theorem steady_itemsUntil (close : Mark) (n : Nat) : Steady P id (itemsUntil close item n) := by
  have habsorb : Steady P id (absorb item) := by
    simpa using steady_absorb h
  induction n with
  | zero => exact steady_pure _
  | succ n ih =>
      refine steady_then steady_peek fun k? => ?_
      split
      · exact steady_fail
      · split
        · exact steady_pure _
        · refine steady_then habsorb fun a? => steady_then (steady_eatIf _) fun more => ?_
          split
          · exact steady_then ih fun _ => steady_pure _
          · exact steady_pure _

theorem steady_listed (opening close : Mark) : Steady P id (listed opening close item) := by
  have hclosing : Steady P id (closing close) := by
    refine steady_then steady_peek fun k? => ?_
    split
    · exact steady_fail
    · split
      · exact steady_after steady_advance (steady_pure _)
      · exact steady_note
  refine steady_after (steady_eat _) ?_
  refine steady_then (steady_rounds (steady_itemsUntil h close)) fun as => ?_
  exact steady_then hclosing fun _ => steady_pure _

theorem steady_separated (n : Nat) : Steady P id (separated item n) := by
  induction n with
  | zero => exact steady_pure _
  | succ n ih =>
      refine steady_then h fun a => steady_then (steady_eatIf _) fun more => ?_
      split
      · exact steady_then ih fun _ => steady_pure _
      · exact steady_pure _

theorem steady_separatedUntil (stops : Kind → Bool) (n : Nat) :
    Steady P id (separatedUntil stops item n) := by
  induction n with
  | zero => exact steady_pure _
  | succ n ih =>
      refine steady_then steady_peek fun k? => ?_
      split
      · exact steady_fail
      · split
        · exact steady_pure _
        · refine steady_then h fun a => steady_then (steady_eatIf _) fun more => ?_
          split
          · exact steady_then ih fun _ => steady_pure _
          · exact steady_pure _

end

theorem steady_tagPair : Steady P id tagPair :=
  steady_after (steady_eat _) (steady_then (steady_eatIf _) fun _ => steady_pure _)

theorem steady_terminator : Steady P id terminator := by
  refine steady_then steady_peek fun k? => ?_
  split
  · exact steady_fail
  · exact steady_after steady_advance (steady_pure _)
  · exact steady_tagPair
  · exact steady_note

theorem steady_terminator? : Steady P id terminator? := by
  refine steady_then steady_peek fun k? => ?_
  split
  · exact steady_after steady_advance (steady_pure _)
  · exact steady_tagPair
  · exact steady_pure _

theorem steady_anyName : Steady P id anyName := by
  refine steady_token steady_advance (fun _ _ _ _ => rfl) fun t => ?_
  split
  · exact steady_pure _
  · exact steady_pure _
  · exact steady_fail

end Reader

end Scaffold.Php
