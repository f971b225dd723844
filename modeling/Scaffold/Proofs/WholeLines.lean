import Scaffold.Server.Protocol
import Scaffold.Proofs.Atomicity
import Scaffold.Proofs.Insertion
import Scaffold.Proofs.Placement
import Scaffold.Proofs.Template
/-!
Commands insert whole lines and leave the lines of the document alone: the old lines stand in the
new text in their order, and the rest of it is the lines of the edit.
-/
namespace Scaffold

open Text

structure Text.Grown {α : Type} (old added new : List α) : Prop where
  kept : old.Sublist new
  rest : new.Perm (old ++ added)

namespace Text

variable {α : Type}

theorem Grown.refl (old : List α) : Grown old [] old :=
  ⟨List.Sublist.refl old, by simp⟩

theorem Grown.insert {old added xs ys : List α} (h : Grown old added (xs ++ ys)) (new : List α) :
    Grown old (new ++ added) (xs ++ (new ++ ys)) := by
  refine ⟨h.kept.trans ((List.sublist_append_right new ys).append_left xs), ?_⟩
  calc (xs ++ (new ++ ys)).Perm (new ++ (xs ++ ys)) := List.perm_append_comm_assoc xs new ys
    _ |>.Perm (new ++ (old ++ added)) := h.rest.append_left new
    _ |>.Perm (old ++ (new ++ added)) := List.perm_append_comm_assoc new old added

theorem Grown.map {β : Type} {old added new : List α} (h : Grown old added new) (f : α → β) :
    Grown (old.map f) (added.map f) (new.map f) :=
  ⟨h.kept.map f, by simpa using h.rest.map f⟩

end Text

namespace Insertion

def newLines (i : Insertion) : List (List Char) :=
  wholeLines i.text.toList

theorem grown_applyAll {document : String} {insertions : List Insertion}
    (hasc : Ascending insertions) (hends : ∀ i ∈ insertions, EndsLine i.text)
    (hin : ∀ i ∈ insertions, i.line < (splitChars document.toList).length) :
    Grown (splitChars document.toList) (insertions.flatMap newLines)
      (splitChars (applyAll document insertions).toList) := by
  induction insertions with
  | nil => simpa [applyAll_nil] using Grown.refl _
  | cons i rest ih =>
      have ih := ih (ascending_cons.mp hasc).2 (fun j hj => hends j (by simp [hj]))
        (fun j hj => hin j (by simp [hj]))
      obtain ⟨a, b, rfl, ha, hlen⟩ := exists_whole document (hin i (by simp))
      obtain ⟨b', hrest, hcons⟩ := applyAll_cons ha b hasc hlen.symm
      rw [hrest] at ih
      rw [hcons]
      simp only [String.toList_ofList] at ih ⊢
      rw [splitChars_append ha b'] at ih
      rw [splitChars_append ha (_ ++ _), splitChars_append (hends i (by simp)).isWhole,
        List.flatMap_cons]
      exact ih.insert _

theorem grown_append {cs : List Char} {text : String} (hends : EndsLine text)
    (hhead : text.toList.head? = some '\n') :
    Grown (splitChars cs) (wholeLines text.toList) (splitChars (cs ++ text.toList)) := by
  obtain ⟨t, ht⟩ := List.head?_eq_some_iff.mp hhead
  have hw : IsWhole t := by
    cases t with
    | nil => exact isWhole_nil
    | cons c t => exact .inr (by simpa [EndsLine, ht] using hends)
  have hadded : wholeLines text.toList = [] :: wholeLines t := by
    rw [ht]
    exact wholeLines_append (isWhole_snoc []) t
  have hnew : splitChars (cs ++ text.toList) = splitChars cs ++ (wholeLines t ++ [[]]) := by
    rw [ht, splitChars_append_feed, splitChars_of_isWhole hw]
  rw [hadded, hnew]
  exact ⟨List.sublist_append_left _ _, (List.perm_append_singleton _ _).append_left _⟩

structure Fits (document : String) (insertions : List Insertion) : Prop where
  ascending : Ascending insertions
  ends_line : ∀ i ∈ insertions, EndsLine i.text
  on_line : ∀ i ∈ insertions, i.line ≤ (lines document).length
  inside : (∀ i ∈ insertions, i.line < (splitChars document.toList).length) ∨
    ∃ i, insertions = [i] ∧ i.text.toList.head? = some '\n'

theorem Fits.grown {document : String} {insertions : List Insertion}
    (h : Fits document insertions) :
    Grown (splitChars document.toList) (insertions.flatMap newLines)
      (splitChars (applyAll document insertions).toList) := by
  by_cases hin : ∀ i ∈ insertions, i.line < (splitChars document.toList).length
  · exact grown_applyAll h.ascending h.ends_line hin
  · obtain ⟨i, rfl, hhead⟩ := h.inside.resolve_left hin
    have hpast : (splitChars document.toList).length ≤ i.line := by simpa using hin
    have happ := applyAll_past_end hpast i.text
    rw [String.ofList_toList] at happ
    rw [happ, String.toList_ofList]
    simpa [newLines] using grown_append (h.ends_line i (by simp)) hhead

theorem fits_singleton {document text : String} {line : Nat} (hends : EndsLine text)
    (hlt : line < (lines document).length) : Fits document [⟨line, text⟩] where
  ascending := List.pairwise_singleton _ _
  ends_line := by simpa using hends
  on_line := by simpa using Nat.le_of_lt hlt
  inside := .inl (by simpa using Nat.lt_of_lt_of_le hlt (length_lines_le document))

end Insertion

open Insertion

theorem Site.lt_length_of_ofLine? {document : String} {line : Nat} {s : Site}
    (h : Site.ofLine? document line = some s) : line < (lines document).length := by
  obtain ⟨text, ht, -⟩ := Option.bind_eq_some_iff.mp h
  exact (List.getElem?_eq_some_iff.mp ht).1

theorem mem_docOn {settings : Settings} {document : String} {line : Nat} {i : Insertion}
    (h : i ∈ docOn settings document line) :
    i.line = line ∧ line < (lines document).length ∧ EndsLine i.text := by
  unfold docOn at h
  split at h
  · next s hs =>
      split at h
      · exact absurd h List.not_mem_nil
      · next hne =>
          obtain rfl := List.mem_singleton.mp h
          refine ⟨rfl, s.lt_length_of_ofLine? hs, ?_⟩
          unfold Site.docText at hne ⊢
          split at hne
          · exact Template.endsLine_doc hne
          · exact absurd rfl hne
  · exact absurd h List.not_mem_nil

theorem ascending_docOn {lines : List Nat} (h : lines.Pairwise (· < ·)) (settings : Settings)
    (document : String) : Ascending (lines.flatMap (docOn settings document)) := by
  refine List.pairwise_flatMap.mpr ⟨?_, h.imp ?_⟩
  · intro line _
    unfold docOn
    split
    · split
      · exact .nil
      · exact List.pairwise_singleton _ _
    · exact .nil
  · intro line line' hlt i hi j hj
    rw [(mem_docOn hi).1, (mem_docOn hj).1]
    exact Nat.le_of_lt hlt

theorem fits_docOn {lines : List Nat} (h : lines.Pairwise (· < ·)) (settings : Settings)
    (document : String) : Fits document (lines.flatMap (docOn settings document)) := by
  have hmem : ∀ i ∈ lines.flatMap (docOn settings document),
      i.line < (Text.lines document).length ∧ EndsLine i.text := by
    intro i hi
    obtain ⟨line, -, hi⟩ := List.mem_flatMap.mp hi
    obtain ⟨rfl, hlt, hends⟩ := mem_docOn hi
    exact ⟨hlt, hends⟩
  exact ⟨ascending_docOn h settings document, fun i hi => (hmem i hi).2,
    fun i hi => Nat.le_of_lt (hmem i hi).1,
    .inl fun i hi => Nat.lt_of_lt_of_le (hmem i hi).1 (length_lines_le document)⟩

theorem Rendered.endsLine {settings : Settings} {a : String × String} (h : Rendered settings a) :
    EndsLine a.1 := by
  cases h with
  | getter p tab h => exact Template.endsLine_getter h
  | setter p tab className h => exact Template.endsLine_setter h

theorem le_length_of_constructorPlace? {document : String} {line : Nat}
    (h : constructorPlace? document
      ((Choice.ofDocument document isProperty).getLast?.map Choice.line) = some line) :
    line ≤ (lines document).length := by
  cases hc : (Choice.ofDocument document isProperty).getLast? with
  | none =>
      rw [hc] at h
      exact Nat.le_of_lt (lt_length_lines_of_classEnd? h)
  | some c =>
      rw [hc] at h
      obtain rfl : c.line + 1 = line := Option.some.inj h
      obtain ⟨text, ht, -⟩ := Choice.mem_ofDocument.mp
        ⟨c, List.mem_of_getLast? hc, rfl, rfl⟩
      exact (List.getElem?_eq_some_iff.mp ht).1

theorem Command.draft_fits {c : Command} {ctx : Context} {d : Document} {draft : Draft}
    (h : (c.draft ctx d).outcome = .ok draft) : Fits d.text draft.insertions := by
  unfold Command.draft at h
  split at h
  · cases c with
    | accessors which many =>
        obtain ⟨lines, line, hend, -, hmade, rfl⟩ := accessorDraft_eq_ok h
        refine fits_singleton (EndsLine.join (by simpa using hmade) ?_)
          (lt_length_lines_of_classEnd? hend)
        intro text ht
        obtain ⟨a, ha, rfl⟩ := List.mem_map.mp ht
        obtain ⟨l, -, ha⟩ := List.mem_flatMap.mp ha
        exact (rendered_of_mem_accessorsOn ha).endsLine
    | doc many =>
        obtain ⟨lines, hlines, rfl⟩ := docDraft_eq_ok h
        exact fits_docOn ((pairwise_of_chosenLines hlines).filter _) _ _
    | constructor =>
        obtain ⟨line, ps, tab, name, hplace, rfl⟩ := constructorDraft_eq_ok h
        refine ⟨List.pairwise_singleton _ _, ?_, ?_, .inr ⟨_, rfl, ?_⟩⟩
        · simpa using Template.endsLine_constructor ps tab name ctx.settings
        · simpa using le_length_of_constructorPlace? hplace
        · exact Template.head?_constructor ps tab name ctx.settings
    | skeleton keyword =>
        obtain ⟨name, nameSpace, hmade, rfl⟩ := skeletonDraft_eq_ok h
        refine ⟨List.pairwise_singleton _ _, ?_, by simp, .inl ?_⟩
        · simpa using Template.endsLine_skeleton hmade
        · simpa using List.length_pos_iff.mpr (splitChars_ne_nil d.text.toList)
  · simp at h

structure AddsWholeLines (d : Document) (text? : Option String) (events : List Event) : Prop where
  ends_line : ∀ insertions ∈ Event.edits events, ∀ i ∈ insertions, EndsLine i.text
  on_line : ∀ insertions ∈ Event.edits events, ∀ i ∈ insertions,
    i.line ≤ (lines d.text).length
  sent_line : (lines d.text).length < UInt32.size → ∀ insertions ∈ Event.edits events,
    ∀ i ∈ insertions, Protocol.lineJson i.line = .ofNat i.line
  grown : ∀ new, text? = some new → ∃ insertions, Event.edits events = [insertions] ∧
    Grown (splitLines d.text) (insertions.flatMap fun i => i.newLines.map String.ofList)
      (splitLines new)

theorem addsWholeLines_of_no_edit (d : Document) {events : List Event}
    (h : Event.edits events = []) : AddsWholeLines d none events := by
  refine ⟨by simp [h], by simp [h], by simp [h], ?_⟩
  intro new hnew
  exact absurd hnew (by simp)

theorem addsWholeLines_of_fits {d : Document} {text? : Option String} {events : List Event}
    {insertions : List Insertion} (he : Event.edits events = [insertions])
    (hfits : Fits d.text insertions)
    (ht : ∀ new, text? = some new → new = applyAll d.text insertions) :
    AddsWholeLines d text? events := by
  refine ⟨?_, ?_, ?_, ?_⟩
  · simpa [he] using hfits.ends_line
  · simpa [he] using hfits.on_line
  · intro hshort is his i hi
    rw [he] at his
    obtain rfl := List.mem_singleton.mp his
    have hlt : i.line < UInt32.size := Nat.lt_of_le_of_lt (hfits.on_line i hi) hshort
    rw [Protocol.lineJson, Nat.mod_eq_of_lt hlt]
  · intro new hnew
    refine ⟨insertions, he, ?_⟩
    have hgrown := hfits.grown.map String.ofList
    rw [← ht new hnew] at hgrown
    simpa [splitLines, List.map_flatMap] using hgrown

theorem Command.run_adds_whole_lines (c : Command) (ctx : Context) (d : Document) :
    AddsWholeLines d (c.run ctx d).1 (c.run ctx d).2 := by
  generalize hr : c.run ctx d = r
  have hran := c.run_ran ctx d
  rw [hr] at hran
  have hq := (c.draft_quiet ctx d).events
  cases hran with
  | stopped hquiet => exact addsWholeLines_of_no_edit d (Event.edits_of_quiet hquiet)
  | rejected hd hne ha =>
      have hs : Event.edits [Failure.rejected.shown] = [] :=
        Event.edits_of_quiet (by simpa using Failure.quiet_shown (by simp))
      exact addsWholeLines_of_fits (Server.edits_around _ hq hs) (draft_fits hd) (by simp)
  | applied hd hne ha =>
      exact addsWholeLines_of_fits (Server.edits_around _ hq (Event.edits_messages _ _))
        (draft_fits hd) (fun new hnew => (Option.some.inj hnew).symm)

end Scaffold
