import Scaffold.Text.Blank
/-!
Small steps of reading a list of characters from its start.
-/
namespace Scaffold.Text

theorem isPrefixOf?_cons_nil (d : Char) (ds : List Char) : List.isPrefixOf? (d :: ds) [] = none :=
  rfl

theorem isPrefixOf?_cons_cons (d c : Char) (ds cs : List Char) :
    List.isPrefixOf? (d :: ds) (c :: cs) = if d == c then List.isPrefixOf? ds cs else none :=
  rfl

theorem eq_append_of_isPrefixOf? {ds cs rest : List Char}
    (h : List.isPrefixOf? ds cs = some rest) : cs = ds ++ rest := by
  induction ds generalizing cs with
  | nil => exact Option.some.inj h
  | cons d ds ih =>
      cases cs with
      | nil => cases h
      | cons c cs =>
          rw [isPrefixOf?_cons_cons] at h
          split at h
          · next hdc => rw [ih h, LawfulBEq.eq_of_beq hdc, List.cons_append]
          · cases h

def blanks? : List Char → Option (List Char)
  | [] => none
  | c :: cs => if isBlank c then some (dropBlanks cs) else none

def run? (p : Char → Bool) (cs : List Char) : Option (List Char × List Char) :=
  match cs.takeWhile p with
  | [] => none
  | taken => some (taken, cs.dropWhile p)

def spaced? (words : List String) (cs : List Char) : Option (String × List Char) :=
  words.findSome? fun w => do
    let rest ← List.isPrefixOf? w.toList cs
    let rest ← blanks? rest
    pure (w, rest)

def spacedRun (words : List String) (cs : List Char) : List String × List Char :=
  match spaced? words cs with
  | none => ([], cs)
  | some (w, rest) =>
      if _h : rest.length < cs.length then
        let (ws, rest) := spacedRun words rest
        (w :: ws, rest)
      else ([], cs)
termination_by cs.length

theorem spacedRun_cons {words : List String} {cs rest : List Char} {w : String}
    (h : spaced? words cs = some (w, rest)) (hlt : rest.length < cs.length) :
    spacedRun words cs = (w :: (spacedRun words rest).1, (spacedRun words rest).2) := by
  rw [spacedRun]
  simp [h, hlt]

theorem spacedRun_nil {words : List String} {cs : List Char} (h : spaced? words cs = none) :
    spacedRun words cs = ([], cs) := by
  rw [spacedRun]
  simp [h]

def skipSpaced (words : List String) (cs : List Char) : List Char :=
  match spaced? words cs with
  | some (_, rest) => rest
  | none => cs

def occursIn (sub : List Char) : List Char → Bool
  | [] => sub.isEmpty
  | c :: cs => (List.isPrefixOf? sub (c :: cs)).isSome || occursIn sub cs

end Scaffold.Text
