/-!
Values by name. A store is seen through `get?`; an insertion replaces what stood under the name.
-/
namespace Scaffold

structure Store (α : Type) where
  entries : List (String × α) := []
  deriving Repr

namespace Store

variable {α : Type}

def get? (s : Store α) (name : String) : Option α :=
  s.entries.lookup name

def erase (s : Store α) (name : String) : Store α :=
  ⟨s.entries.filter fun (n, _) => n != name⟩

def insert (s : Store α) (name : String) (a : α) : Store α :=
  ⟨(name, a) :: (s.erase name).entries⟩

theorem get?_cons (entries : List (String × α)) (name other : String) (a : α) :
    get? ⟨(name, a) :: entries⟩ other = if other = name then some a else get? ⟨entries⟩ other := by
  by_cases h : other = name
  · simp [get?, h]
  · simp [get?, List.lookup_cons, h, beq_eq_false_iff_ne.mpr h]

theorem erase_cons (entries : List (String × α)) (name n : String) (a : α) :
    erase ⟨(n, a) :: entries⟩ name =
      if n = name then erase ⟨entries⟩ name else ⟨(n, a) :: (erase ⟨entries⟩ name).entries⟩ := by
  by_cases h : n = name <;> simp [erase, h]

@[simp] theorem get?_erase (s : Store α) (name other : String) :
    (s.erase name).get? other = if other = name then none else s.get? other := by
  obtain ⟨entries⟩ := s
  induction entries with
  | nil => simp [get?, erase]
  | cons p entries ih =>
      obtain ⟨n, a⟩ := p
      rw [erase_cons, get?_cons]
      by_cases hn : n = name
      · rw [if_pos hn, ih]
        by_cases ho : other = name <;> simp [ho, hn]
      · rw [if_neg hn, get?_cons, ih]
        by_cases ho : other = n
        · simp [ho, hn]
        · simp [ho]

@[simp] theorem get?_insert (s : Store α) (name other : String) (a : α) :
    (s.insert name a).get? other = if other = name then some a else s.get? other := by
  rw [insert, get?_cons, get?_erase]
  by_cases h : other = name <;> simp [h]

end Store

end Scaffold
