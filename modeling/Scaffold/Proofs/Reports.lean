import Scaffold.Proofs.Batch
import Scaffold.Proofs.Named
/-!
Who is told when nothing is edited. A command that ends without an edit shows a message, with one
exception: documentation for a cursor that stands after the last line of its document.
-/
namespace Scaffold

open Dialog Text

def Event.isMessage : Event → Bool
  | message _ _ => true
  | _ => false

def Silent (result : Option String × List Event) : Prop :=
  result.1 = none ∧ ∀ e ∈ result.2, e.isMessage = false

instance (result : Option String × List Event) : Decidable (Silent result) :=
  inferInstanceAs (Decidable (result.1 = none ∧ ∀ e ∈ result.2, e.isMessage = false))

theorem not_silent_of_mem {text? : Option String} {events : List Event} {severity : Severity}
    {text : String} (h : .message severity text ∈ events) : ¬ Silent (text?, events) := by
  rintro ⟨-, hquiet⟩
  exact nomatch hquiet _ h

namespace Dialog

variable {α β : Type}

def Speaks (d : Dialog α) : Prop :=
  ∃ e ∈ d.events, e.isMessage = true

theorem speaks_say (severity : Severity) (text : String) : (say severity text).Speaks :=
  ⟨_, List.mem_singleton_self _, rfl⟩

theorem Speaks.bind {d : Dialog α} (h : d.Speaks) (f : α → Dialog β) : (d >>= f).Speaks := by
  obtain ⟨e, he, hm⟩ := h
  cases hd : d.outcome with
  | ok a =>
      rw [bind_of_ok hd]
      exact ⟨e, List.mem_append_left _ he, hm⟩
  | error e' =>
      rw [bind_of_error hd]
      exact ⟨e, he, hm⟩

theorem speaks_bind_of_ok {d : Dialog α} {a : α} (h : d.outcome = .ok a) {f : α → Dialog β}
    (hf : (f a).Speaks) : (d >>= f).Speaks := by
  obtain ⟨e, he, hm⟩ := hf
  rw [bind_of_ok h]
  exact ⟨e, List.mem_append_right _ he, hm⟩

end Dialog

theorem docTemplate_speaks {ctx : Context} {d : Document} {s : Site}
    (h : s.docText d.text ctx.settings = "") : (docTemplate ctx d s).Speaks := by
  have hnone := (s.docText_eq_empty_iff d.text ctx.settings).mp h
  unfold docTemplate
  rw [hnone]
  exact (speaks_say _ _).bind _

theorem docAt_speaks {ctx : Context} {d : Document} {line : Nat}
    (hline : line < (lines d.text).length) (hdoc : docOn ctx.settings d.text line = []) :
    (docAt ctx d line).Speaks := by
  unfold docAt
  unfold docOn at hdoc
  split
  · next s hs =>
      rw [hs] at hdoc
      dsimp only at hdoc
      split at hdoc
      · next hempty => exact (docTemplate_speaks hempty).bind _
      · exact nomatch hdoc
  · next hs =>
      have hle := Site.ofLine?_eq_none_iff.mp hs
      omega

theorem docInsertions_speaks {ctx : Context} {d : Document} {pending : List Nat}
    (hdoc : pending.flatMap (docOn ctx.settings d.text) = [])
    (hline : ∃ line ∈ pending, line < (lines d.text).length) :
    (docInsertions ctx d pending).Speaks := by
  induction pending with
  | nil => simp at hline
  | cons line pending ih =>
      obtain ⟨hhere, hrest⟩ := List.append_eq_nil_iff.mp hdoc
      unfold docInsertions
      by_cases hlt : line < (lines d.text).length
      · exact (docAt_speaks hlt hhere).bind _
      · obtain ⟨l, hl, hllt⟩ := hline
        have hl : l ∈ pending := by
          rcases List.mem_cons.mp hl with rfl | hl
          · exact absurd hllt hlt
          · exact hl
        exact speaks_bind_of_ok (outcome_docAt ctx d line) ((ih hrest ⟨l, hl, hllt⟩).bind _)

theorem docDraft_speaks {ctx : Context} {d : Document} {many : Bool} {chosen : List Nat}
    (h : (chosenLines ctx d many "Select declarations to document" fun _ => true).outcome
      = .ok chosen)
    (hdoc : (chosen.filter fun line => !isDocumented d.text line).flatMap
      (docOn ctx.settings d.text) = [])
    (hline : ∀ line ∈ chosen, isDocumented d.text line = false →
      line < (lines d.text).length) : (docDraft ctx d many).Speaks := by
  unfold docDraft
  refine speaks_bind_of_ok h ?_
  cases hp : chosen.filter fun line => !isDocumented d.text line with
  | nil => exact (speaks_say _ _).bind _
  | cons line rest =>
      rw [hp] at hdoc
      obtain ⟨hmem, hnew⟩ := List.mem_filter.mp (hp ▸ List.mem_cons_self)
      have hlt := hline line hmem (by simpa using hnew)
      exact (docInsertions_speaks hdoc ⟨line, by simp, hlt⟩).bind _

theorem lt_length_of_mem_pickedLines {editor : Editor} {placeholder document : String}
    {accept : DeclarationLine → Bool} {line : Nat}
    (h : line ∈ pickedLines editor placeholder document accept) :
    line < (lines document).length := by
  obtain ⟨c, hc, rfl⟩ := List.mem_map.mp h
  obtain ⟨text, ht, -⟩ := Choice.mem_ofDocument.mp ⟨c, (List.mem_filter.mp hc).1, rfl, rfl⟩
  exact (List.getElem?_eq_some_iff.mp ht).1

theorem docDraft_past_end {ctx : Context} {d : Document}
    (hpast : (lines d.text).length ≤ d.cursor) (hnew : isDocumented d.text d.cursor = false) :
    docDraft ctx d false = ⟨.ok ⟨[], []⟩, []⟩ := by
  have hat : docAt ctx d d.cursor = pure [] := by
    unfold docAt
    rw [Site.ofLine?_eq_none_iff.mpr hpast]
  have hpending : [d.cursor].filter (fun line => !isDocumented d.text line) = [d.cursor] := by
    simp [hnew]
  have hchosen : chosenLines ctx d false "Select declarations to document" (fun _ => true) =
      pure [d.cursor] := rfl
  unfold docDraft
  rw [hchosen, bind_of_ok (outcome_pure _), hpending]
  dsimp only
  unfold docInsertions
  rw [hat]
  rfl

namespace Command

theorem silent_run_iff (c : Command) (ctx : Context) (d : Document) :
    Silent (c.run ctx d) ↔ ∃ draft, (c.draft ctx d).outcome = .ok draft ∧
      draft.insertions = [] ∧ ¬ (c.draft ctx d).Speaks := by
  have hspeaks : (¬ (c.draft ctx d).Speaks) ↔
      ∀ e ∈ (c.draft ctx d).events, e.isMessage = false := by
    simp [Speaks]
  cases hd : (c.draft ctx d).outcome with
  | error f =>
      rw [run_of_error hd]
      exact iff_of_false (not_silent_of_mem (List.mem_append_right _ (List.mem_singleton_self _)))
        (by simp)
  | ok draft =>
      rw [hspeaks]
      by_cases hne : draft.insertions = []
      · rw [run_of_nil hd hne]
        simp [Silent, hne]
      · cases ha : ctx.editor.accepts draft.insertions with
        | false =>
            have hmem : Failure.rejected.shown ∈
                (c.draft ctx d).events ++ [.edit draft.insertions, Failure.rejected.shown] := by
              simp
            rw [run_of_rejected hd hne ha]
            exact iff_of_false (not_silent_of_mem hmem) (by simp [hne])
        | true =>
            rw [run_of_accepted hd hne ha]
            simp [Silent, hne]

theorem insertions_ne_nil {c : Command} {ctx : Context} {d : Document} {draft : Draft}
    (h : (c.draft ctx d).outcome = .ok draft) (hc : ∀ many, c ≠ .doc many) :
    draft.insertions ≠ [] := by
  unfold Command.draft at h
  split at h
  · cases c with
    | accessors which many =>
        obtain ⟨lines, line, -, -, -, rfl⟩ := accessorDraft_eq_ok h
        simp
    | doc many => exact absurd rfl (hc many)
    | constructor =>
        obtain ⟨line, ps, tab, name, -, rfl⟩ := constructorDraft_eq_ok h
        simp
    | skeleton keyword =>
        obtain ⟨name, nameSpace, -, rfl⟩ := skeletonDraft_eq_ok h
        simp
  · exact nomatch h

theorem silent_iff (c : Command) (ctx : Context) (d : Document) :
    Silent (c.run ctx d) ↔ c = .doc false ∧ d.isPhp = true ∧
      (lines d.text).length ≤ d.cursor ∧ isDocumented d.text d.cursor = false := by
  rw [silent_run_iff]
  constructor
  · rintro ⟨draft, hd, hempty, hquiet⟩
    have hphp := isPhp_of_draft_eq_ok hd
    cases c with
    | doc many =>
        rw [draft_doc_of_isPhp hphp] at hd hquiet
        obtain ⟨chosen, hchosen, rfl⟩ := docDraft_eq_ok hd
        have hline : ¬ ∀ line ∈ chosen, isDocumented d.text line = false →
            line < (lines d.text).length :=
          fun hline => hquiet (docDraft_speaks hchosen hempty hline)
        cases many with
        | true =>
            obtain ⟨rfl, -⟩ := chosenLines_many_eq_ok.mp hchosen
            exact absurd (fun line hl _ => lt_length_of_mem_pickedLines hl) hline
        | false =>
            obtain rfl : [d.cursor] = chosen := Except.ok.inj hchosen
            have hcursor : ¬ (isDocumented d.text d.cursor = false →
                d.cursor < (lines d.text).length) := by
              simpa only [List.mem_singleton, forall_eq] using hline
            obtain ⟨hnew, hpast⟩ := Classical.not_imp.mp hcursor
            exact ⟨rfl, hphp, Nat.le_of_not_lt hpast, hnew⟩
    | accessors which many => exact absurd hempty (insertions_ne_nil hd (by simp))
    | constructor => exact absurd hempty (insertions_ne_nil hd (by simp))
    | skeleton keyword => exact absurd hempty (insertions_ne_nil hd (by simp))
  · rintro ⟨rfl, hphp, hpast, hnew⟩
    rw [draft_doc_of_isPhp hphp, docDraft_past_end hpast hnew]
    exact ⟨_, rfl, rfl, by simp [Speaks]⟩

end Command

namespace Server

theorem run_silent_iff (s : Server) (c : Command) (uri : Uri) (line? : Option Nat)
    (editor : Editor) :
    Silent (s.run c uri line? editor).2 ↔ c = .doc false ∧ ∃ d, s.document? uri line? = some d ∧
      d.isPhp = true ∧ (lines d.text).length ≤ d.cursor ∧
      isDocumented d.text d.cursor = false := by
  unfold run
  cases hd : s.document? uri line? with
  | none => simp [Silent, Event.isMessage]
  | some d =>
      have h := c.silent_iff ⟨editor, s.settings, s.project, s.root⟩ d
      dsimp only
      generalize c.run ⟨editor, s.settings, s.project, s.root⟩ d = result at h
      obtain ⟨text?, events⟩ := result
      cases text? with
      | none => simpa using h
      | some text => simpa [Silent] using h

def sampleHeader : String :=
  "<?php\n"

theorem run_silent_past_end :
    let s := openDocument {} sampleUri sampleHeader
    (s.run (.doc false) sampleUri (some 1) ⟨fun _ labels => labels, fun _ => true⟩).2 =
      (none, []) := by
  decide +kernel

end Server

end Scaffold
