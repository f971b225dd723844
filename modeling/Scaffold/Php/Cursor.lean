import Scaffold.Php.Token
/-!
Reading tokens with recovery. A reader either keeps a value or loses it; both leave the cursor where
reading stopped, so that a loop can go on after a loss. A fault can also be noted without a loss.
However a reader is put together, it only takes items away.
-/
namespace Scaffold.Php

structure Cursor where
  rest : List Item
  /-- The number of items in the whole source, which bounds all loops. -/
  bound : Nat
  faulty : Bool
  depth : Nat
  /-- The byte after the last token taken. -/
  position : Nat

inductive Reply (α : Type) where
  | kept (value : α) (next : Cursor)
  | lost (next : Cursor)

def Reply.cursor {α : Type} : Reply α → Cursor
  | kept _ c | lost c => c

@[ext]
structure Reader (α : Type) where
  run : Cursor → Reply α
  shrinks : ∀ c, (run c).cursor.rest ⊆ c.rest

instance {α : Type} : CoeFun (Reader α) fun _ => Cursor → Reply α :=
  ⟨Reader.run⟩

inductive Sight where
  | token (t : Token)
  | nothing
  | fault
  deriving DecidableEq, Repr

/-- Looks past `n` tokens. A fault or a gap that is met on the way is gone after that. -/
def Sight.of : Nat → List Item → Sight × List Item
  | _, [] => (.nothing, [])
  | _, .gap :: items => (.nothing, items)
  | _, .fault :: items => (.fault, items)
  | _, .jam :: items => (.fault, .jam :: items)
  | 0, .token t :: items => (.token t, .token t :: items)
  | n + 1, .token t :: items =>
      let (sight, items) := of n items
      (sight, .token t :: items)

theorem Sight.of_subset (n : Nat) (items : List Item) : (of n items).2 ⊆ items := by
  fun_induction of n items with
  | case1 => exact List.Subset.refl _
  | case2 => exact List.subset_cons_self _ _
  | case3 => exact List.subset_cons_self _ _
  | case4 => exact List.Subset.refl _
  | case5 => exact List.Subset.refl _
  | case6 n t items sight rest hof ih =>
      rw [hof] at ih
      exact List.cons_subset_cons _ ih

namespace Cursor

def sight (c : Cursor) (n : Nat) : Sight :=
  (Sight.of n c.rest).1

def looked (c : Cursor) (n : Nat) : Cursor :=
  { c with rest := (Sight.of n c.rest).2 }

def past (c : Cursor) (t : Token) : Cursor :=
  { c with rest := c.rest.drop 1, position := t.stop }

theorem looked_subset (c : Cursor) (n : Nat) : (c.looked n).rest ⊆ c.rest :=
  Sight.of_subset n c.rest

theorem past_subset (c : Cursor) (t : Token) : ((c.looked 0).past t).rest ⊆ c.rest :=
  List.Subset.trans (List.drop_subset 1 _) (c.looked_subset 0)

end Cursor

namespace Reader

instance : Monad Reader where
  pure a := ⟨fun c => .kept a c, fun _ => List.Subset.refl _⟩
  bind r f :=
    { run c :=
        match r c with
        | .kept a c => f a c
        | .lost c => .lost c
      shrinks c := by
        have hr := r.shrinks c
        split
        · next a c' h =>
            rw [h] at hr
            exact List.Subset.trans ((f a).shrinks c') hr
        · next c' h =>
            rw [h] at hr
            exact hr }

def peekPast (n : Nat) : Reader (Option Kind) where
  run c :=
    match c.sight n with
    | .token t => .kept (some t.kind) (c.looked n)
    | .nothing => .kept none (c.looked n)
    | .fault => .lost (c.looked n)
  shrinks c := by
    split <;> exact c.looked_subset n

def peek : Reader (Option Kind) :=
  peekPast 0

def peekSecond : Reader (Option Kind) :=
  peekPast 1

def peekThird : Reader (Option Kind) :=
  peekPast 2

def ofCursor {α : Type} (f : Cursor → α) : Reader α :=
  ⟨fun c => .kept (f c) c, fun _ => List.Subset.refl _⟩

def position : Reader Nat :=
  ofCursor Cursor.position

def nextStart : Reader Nat :=
  ofCursor fun c =>
    match c.rest with
    | .token t :: _ => t.start
    | _ => c.position

/-- More rounds than any loop can take, since each takes an item. -/
def bound : Reader Nat :=
  ofCursor (·.bound + 1)

def fail {α : Type} : Reader α :=
  ⟨fun c => .lost c, fun _ => List.Subset.refl _⟩

def advance : Reader Token where
  run c :=
    match c.sight 0 with
    | .token t => .kept t ((c.looked 0).past t)
    | _ => .lost (c.looked 0)
  shrinks c := by
    split
    · next t _ => exact c.past_subset t
    · exact c.looked_subset 0

def eat (kind : Kind) : Reader Token := do
  if (← peek) = some kind then advance else fail

def eatIf (kind : Kind) : Reader Bool := do
  if (← peek) = some kind then
    let _ ← advance
    return true
  else return false

def note : Reader Unit :=
  ⟨fun c => .kept () { c with faulty := true }, fun _ => List.Subset.refl _⟩

def absorb {α : Type} (r : Reader α) : Reader (Option α) where
  run c :=
    match r c with
    | .kept a c => .kept (some a) c
    | .lost c => .kept none { c with faulty := true }
  shrinks c := by
    have hr := r.shrinks c
    split <;> next h => rw [h] at hr; exact hr

def maxDepth : Nat := 512

def nested {α : Type} (r : Reader α) : Reader α where
  run c :=
    if c.depth < maxDepth then
      match r { c with depth := c.depth + 1 } with
      | .kept a c' => .kept a { c' with depth := c.depth }
      | .lost c' => .lost { c' with depth := c.depth }
    else .lost c
  shrinks c := by
    have hr := r.shrinks { c with depth := c.depth + 1 }
    split
    · split <;> next h => rw [h] at hr; exact hr
    · exact List.Subset.refl _

def skip : Reader Unit where
  run c :=
    match c.sight 0 with
    | .token t => .kept () { (c.looked 0).past t with faulty := true }
    | _ => .kept () (c.looked 0)
  shrinks c := by
    split
    · next t _ => exact c.past_subset t
    · exact c.looked_subset 0

/-- Reads items until `stops` holds of the kind that `look` finds, or it finds none. A lost item is
noted and reading goes on where it stopped; a token is skipped if the item took none. -/
def recovering {α : Type} (look : Reader (Option Kind)) (stops : Kind → Bool) (item : Reader α) :
    Nat → Reader (List α)
  | 0 => pure []
  | n + 1 => do
      match ← look with
      | none => pure []
      | some k =>
          if stops k then pure []
          else
            let before ← position
            let a? ← absorb item
            if (← position) = before then skip
            let as ← recovering look stops item n
            pure (a?.toList ++ as)

def strictly {α : Type} (stops : Kind → Bool) (item : Reader α) : Nat → Reader (List α)
  | 0 => pure []
  | n + 1 => do
      match ← peek with
      | none => fail
      | some k =>
          if stops k then pure []
          else
            let a ← item
            let as ← strictly stops item n
            pure (a :: as)

def rounds {α : Type} (loop : Nat → Reader α) : Reader α := do
  loop (← bound)

/-- Items after commas, up to a closing mark. A lost item is noted; after an item only a comma
goes on. -/
def itemsUntil {α : Type} (close : Mark) (item : Reader α) : Nat → Reader (List α)
  | 0 => pure []
  | n + 1 => do
      match ← peek with
      | none => fail
      | some k =>
          if k = .mark close then pure []
          else
            let a? ← absorb item
            if ← eatIf (.mark .comma) then
              let as ← itemsUntil close item n
              pure (a?.toList ++ as)
            else pure a?.toList

def closing (close : Mark) : Reader Unit := do
  match ← peek with
  | none => fail
  | some k => if k = .mark close then let _ ← advance else note

def listed {α : Type} (opening close : Mark) (item : Reader α) : Reader (List α) := do
  let _ ← eat (.mark opening)
  let as ← rounds (itemsUntil close item)
  closing close
  pure as

def separated {α : Type} (item : Reader α) : Nat → Reader (List α)
  | 0 => pure []
  | n + 1 => do
      let a ← item
      if ← eatIf (.mark .comma) then
        let as ← separated item n
        pure (a :: as)
      else pure [a]

def separatedUntil {α : Type} (stops : Kind → Bool) (item : Reader α) : Nat → Reader (List α)
  | 0 => pure []
  | n + 1 => do
      match ← peek with
      | none => fail
      | some k =>
          if stops k then pure []
          else
            let a ← item
            if ← eatIf (.mark .comma) then
              let as ← separatedUntil stops item n
              pure (a :: as)
            else pure [a]

def isTerminator (k : Kind) : Bool :=
  k == .mark .semicolon || k == .closeTag

/-- A closing tag that ends a statement. If code goes on right after it, its opening tag belongs to
the end too. -/
def tagPair : Reader Unit := do
  let _ ← eat .closeTag
  let _ ← eatIf .openTag

/-- The end of a statement: a semicolon or a closing tag, missed with a fault unless the input
ends. -/
def terminator : Reader Unit := do
  match ← peek with
  | none => fail
  | some (.mark .semicolon) => let _ ← advance
  | some .closeTag => tagPair
  | some _ => note

def terminator? : Reader Unit := do
  match ← peek with
  | some (.mark .semicolon) => let _ ← advance
  | some .closeTag => tagPair
  | _ => pure ()

/-- A name, which may be a reserved word. A token that is no name is taken too, and lost. -/
def anyName : Reader String := do
  let t ← advance
  match t.kind with
  | .name | .keyword _ => pure t.text
  | _ => fail

end Reader
end Scaffold.Php
