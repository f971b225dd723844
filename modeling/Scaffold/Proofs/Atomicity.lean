import Scaffold.Proofs.Draft
/-!
A command is one transaction on one document. It puts at most one edit to the editor; the document
changes by exactly that edit if it is accepted, and otherwise nothing changes at all. Accessors are
announced only after their edit was accepted, in the order of their texts.
-/
namespace Scaffold

open Dialog

inductive Rendered (settings : Settings) : String × String → Prop where
  | getter (p : PropertySignature) (tab : String) (h : Template.getter p tab settings ≠ "") :
      Rendered settings (Template.getter p tab settings, getterNotice p.name)
  | setter (p : PropertySignature) (tab : String) (className : Option String)
      (h : Template.setter p tab className settings ≠ "") :
      Rendered settings (Template.setter p tab className settings, setterNotice p.name)

def announcement (notice : String) : Event :=
  .message .info (Icon.strip notice)

theorem mem_noticed {template notice : String} {a : String × String}
    (h : a ∈ noticed template notice) : template ≠ "" ∧ a = (template, notice) := by
  unfold noticed at h
  split at h
  · exact absurd h List.not_mem_nil
  · exact ⟨‹_›, List.mem_singleton.mp h⟩

theorem rendered_of_mem_accessorsOf {ctx : Context} {which : Accessors} {s : Site}
    {p : PropertySignature} {a : String × String} (h : a ∈ accessorsOf ctx which s p) :
    Rendered ctx.settings a := by
  unfold accessorsOf at h
  rcases List.mem_append.mp h with h | h
  · split at h
    · obtain ⟨hne, rfl⟩ := mem_noticed h
      exact .getter p s.tab hne
    · exact absurd h List.not_mem_nil
  · split at h
    · obtain ⟨hne, rfl⟩ := mem_noticed h
      exact .setter p s.tab s.className hne
    · exact absurd h List.not_mem_nil

theorem rendered_of_mem_accessorsOn {ctx : Context} {which : Accessors} {document : String}
    {line : Nat} {a : String × String} (h : a ∈ accessorsOn ctx which document line) :
    Rendered ctx.settings a := by
  unfold accessorsOn at h
  split at h
  · next s _ =>
      cases hp : s.property? with
      | none => simp [hp] at h
      | some p =>
          rw [hp] at h
          exact rendered_of_mem_accessorsOf h
  · exact absurd h List.not_mem_nil

namespace Command

theorem draft_notices {c : Command} {ctx : Context} {d : Document} {draft : Draft}
    (h : (c.draft ctx d).outcome = .ok draft) :
    match c with
    | accessors _ _ => ∃ (line : Nat) (made : List (String × String)),
        (∀ a ∈ made, Rendered ctx.settings a) ∧
        draft = ⟨[⟨line, String.join (made.map Prod.fst)⟩], made.map Prod.snd⟩
    | _ => draft.notices = [] := by
  unfold Command.draft at h
  split at h
  · cases c with
    | accessors which many =>
        obtain ⟨lines, line, -, -, -, rfl⟩ := accessorDraft_eq_ok h
        refine ⟨line, _, ?_, rfl⟩
        intro a ha
        obtain ⟨l, -, hl⟩ := List.mem_flatMap.mp ha
        exact rendered_of_mem_accessorsOn hl
    | doc many =>
        obtain ⟨lines, -, rfl⟩ := docDraft_eq_ok h
        rfl
    | constructor =>
        obtain ⟨line, ps, tab, name, -, rfl⟩ := constructorDraft_eq_ok h
        rfl
    | skeleton keyword =>
        obtain ⟨name, nameSpace, -, rfl⟩ := skeletonDraft_eq_ok h
        rfl
  · simp at h

inductive Ran (c : Command) (ctx : Context) (d : Document) :
    Option String × List Event → Prop where
  | stopped {events : List Event} (hq : ∀ e ∈ events, e.Quiet) : Ran c ctx d (none, events)
  | rejected {draft : Draft} (hd : (c.draft ctx d).outcome = .ok draft)
      (hne : draft.insertions ≠ []) (ha : ctx.editor.accepts draft.insertions = false) :
      Ran c ctx d
        (none, (c.draft ctx d).events ++ [.edit draft.insertions, Failure.rejected.shown])
  | applied {draft : Draft} (hd : (c.draft ctx d).outcome = .ok draft)
      (hne : draft.insertions ≠ []) (ha : ctx.editor.accepts draft.insertions = true) :
      Ran c ctx d
        (some (Insertion.applyAll d.text draft.insertions),
          (c.draft ctx d).events ++ .edit draft.insertions :: draft.notices.map announcement)

end Command

theorem forM_say (notices : List String) :
    notices.forM (say .info) = ⟨.ok (), notices.map announcement⟩ := by
  induction notices with
  | nil => rfl
  | cons n ns ih =>
      change (do say .info n; ns.forM (say .info)) = _
      rw [ih]
      rfl

namespace Command

theorem submit_of_rejected {ctx : Context} {draft : Draft} (d : Document)
    (hne : draft.insertions ≠ []) (ha : ctx.editor.accepts draft.insertions = false) :
    submit ctx d draft = ⟨.error .rejected, [.edit draft.insertions]⟩ := by
  unfold submit
  rw [if_neg hne, if_neg (by simp [ha])]
  rfl

theorem submit_of_accepted {ctx : Context} {draft : Draft} (d : Document)
    (hne : draft.insertions ≠ []) (ha : ctx.editor.accepts draft.insertions = true) :
    submit ctx d draft =
      ⟨.ok (some (Insertion.applyAll d.text draft.insertions)),
        .edit draft.insertions :: draft.notices.map announcement⟩ := by
  unfold submit
  rw [if_neg hne, if_pos ha]
  change (do emit _; draft.notices.forM (say .info); pure _) = _
  rw [forM_say]
  simp [bind, pure, emit]

section

variable {c : Command} {ctx : Context} {d : Document} {draft : Draft}

theorem run_of_error {f : Failure} (hd : (c.draft ctx d).outcome = .error f) :
    c.run ctx d = (none, (c.draft ctx d).events ++ [f.shown]) := by
  unfold run
  dsimp only
  rw [bind_of_error hd]
  rfl

theorem run_of_nil (hd : (c.draft ctx d).outcome = .ok draft) (hnil : draft.insertions = []) :
    c.run ctx d = (none, (c.draft ctx d).events) := by
  unfold run
  dsimp only
  rw [bind_of_ok hd]
  unfold submit
  rw [if_pos hnil]
  simp

theorem run_of_rejected (hd : (c.draft ctx d).outcome = .ok draft) (hne : draft.insertions ≠ [])
    (ha : ctx.editor.accepts draft.insertions = false) :
    c.run ctx d =
      (none, (c.draft ctx d).events ++ [.edit draft.insertions, Failure.rejected.shown]) := by
  unfold run
  dsimp only
  rw [bind_of_ok hd, submit_of_rejected d hne ha]
  simp [Failure.shown]

theorem run_of_accepted (hd : (c.draft ctx d).outcome = .ok draft) (hne : draft.insertions ≠ [])
    (ha : ctx.editor.accepts draft.insertions = true) :
    c.run ctx d = (some (Insertion.applyAll d.text draft.insertions),
      (c.draft ctx d).events ++ .edit draft.insertions :: draft.notices.map announcement) := by
  unfold run
  dsimp only
  rw [bind_of_ok hd, submit_of_accepted d hne ha]

end

theorem run_ran (c : Command) (ctx : Context) (d : Document) : Ran c ctx d (c.run ctx d) := by
  have hq := c.draft_quiet ctx d
  cases hd : (c.draft ctx d).outcome with
  | error f =>
      rw [run_of_error hd]
      refine .stopped ?_
      intro e he
      rcases List.mem_append.mp he with he | he
      · exact hq.events e he
      · rw [List.mem_singleton.mp he]
        exact hq.failure f hd
  | ok draft =>
      by_cases hne : draft.insertions = []
      · rw [run_of_nil hd hne]
        exact .stopped hq.events
      · cases ha : ctx.editor.accepts draft.insertions with
        | false =>
            rw [run_of_rejected hd hne ha]
            exact .rejected hd hne ha
        | true =>
            rw [run_of_accepted hd hne ha]
            exact .applied hd hne ha

end Command

namespace Server

structure Transacted (s : Server) (c : Command) (uri : Uri) (editor : Editor)
    (s' : Server) (text? : Option String) (events : List Event) : Prop where
  one_edit : (Event.edits events).length ≤ 1
  no_empty_edit : [] ∉ Event.edits events
  accepted : ∀ insertions ∈ Event.edits events, editor.accepts insertions = true →
    ∃ old, s.documents.get? uri.text = some old ∧
      text? = some (Insertion.applyAll old insertions) ∧ s'.documents.get? uri.text = text?
  otherwise : (∀ insertions ∈ Event.edits events, editor.accepts insertions = false) →
    text? = none ∧ s'.documents.get? uri.text = s.documents.get? uri.text ∧
      ∀ e ∈ events, ¬ e.IsNotice
  announced : ∀ before insertions after, events = before ++ .edit insertions :: after →
    editor.accepts insertions = true →
    (∀ e ∈ before, ¬ e.IsNotice) ∧
      ∃ made : List (String × String), (∀ a ∈ made, Rendered s.settings a) ∧
        after = made.map (fun a => announcement a.2) ∧
        match c with
        | .accessors _ _ => ∃ line, insertions = [⟨line, String.join (made.map Prod.fst)⟩]
        | _ => made = []
  others : ∀ name, name ≠ uri.text → s'.documents.get? name = s.documents.get? name
  cursors : s'.cursors = s.cursors
  layers : s'.layers = s.layers
  settings : s'.settings = s.settings
  project : s'.project = s.project
  root : s'.root = s.root

theorem transacted_of_no_edit {s : Server} {c : Command} {uri : Uri} {editor : Editor}
    {events : List Event} (hq : ∀ e ∈ events, e.Quiet) :
    Transacted s c uri editor s none events := by
  have he := Event.edits_of_quiet hq
  refine ⟨by simp [he], by simp [he], by simp [he], ?_, ?_, fun _ _ => rfl, rfl, rfl, rfl, rfl, rfl⟩
  · exact fun _ => ⟨rfl, rfl, fun e hm => (hq e hm).2⟩
  · intro before insertions after h
    have hm : Event.edit insertions ∈ events := by simp [h]
    exact absurd (hq _ hm).1 (by simp [Event.isEdit])

theorem edit_split_unique {es before after after' : List Event} {is is' : List Insertion}
    (hq : ∀ e ∈ es, e.Quiet) (ha : ∀ e ∈ after, e.isEdit = false)
    (h : es ++ .edit is :: after = before ++ .edit is' :: after') :
    before = es ∧ is' = is ∧ after' = after := by
  induction es generalizing before with
  | nil =>
      cases before with
      | nil =>
          obtain ⟨hi, rfl⟩ := List.cons.inj h
          exact ⟨rfl, (Event.edit.inj hi).symm, rfl⟩
      | cons e before =>
          have hm : Event.edit is' ∈ after := by simp [(List.cons.inj h).2]
          exact absurd (ha _ hm) (by simp [Event.isEdit])
  | cons e es ih =>
      cases before with
      | nil =>
          have he : e = .edit is' := (List.cons.inj h).1
          exact absurd (hq e (by simp)).1 (by simp [he, Event.isEdit])
      | cons e' before =>
          obtain ⟨rfl, ht⟩ := List.cons.inj h
          obtain ⟨rfl, rfl, rfl⟩ := ih (fun x hx => hq x (by simp [hx])) ht
          exact ⟨rfl, rfl, rfl⟩

theorem edits_around {es after : List Event} (is : List Insertion) (hq : ∀ e ∈ es, e.Quiet)
    (ha : Event.edits after = []) : Event.edits (es ++ .edit is :: after) = [is] := by
  rw [Event.edits_append, Event.edits_of_quiet hq]
  change is :: Event.edits after = [is]
  rw [ha]

theorem transacted_of_rejected {s : Server} {c : Command} {uri : Uri} {editor : Editor}
    {es : List Event} {is : List Insertion} (hq : ∀ e ∈ es, e.Quiet) (hne : is ≠ [])
    (ha : editor.accepts is = false) :
    Transacted s c uri editor s none (es ++ [.edit is, Failure.rejected.shown]) := by
  have hr : Failure.rejected.shown.Quiet := Failure.quiet_shown (by simp)
  have hs : Event.edits [Failure.rejected.shown] = [] :=
    Event.edits_of_quiet (by simpa using hr)
  have he := edits_around is hq hs
  refine ⟨by simp [he], by simp [he, hne.symm], by simp [he, ha], ?_, ?_, fun _ _ => rfl,
    rfl, rfl, rfl, rfl, rfl⟩
  · refine fun _ => ⟨rfl, rfl, ?_⟩
    intro e hm
    simp only [List.mem_append, List.mem_cons, List.not_mem_nil, or_false] at hm
    rcases hm with hm | rfl | rfl
    · exact (hq e hm).2
    · rintro ⟨name, h | h⟩ <;> exact absurd h (by simp)
    · exact hr.2
  · intro before is' after h hacc
    obtain ⟨-, rfl, -⟩ := edit_split_unique hq (by simpa using hr.1) h
    exact absurd hacc (by simp [ha])

theorem get?_openDocument (s : Server) (uri : Uri) (text name : String) :
    (s.openDocument uri text).documents.get? name =
      if name = uri.text then some text else s.documents.get? name :=
  Store.get?_insert s.documents uri.text name text

theorem transacted_of_applied {s : Server} {c : Command} {uri : Uri} {ctx : Context}
    {d : Document} {draft : Draft} (hset : ctx.settings = s.settings)
    (hold : s.documents.get? uri.text = some d.text)
    (hd : (c.draft ctx d).outcome = .ok draft) (hne : draft.insertions ≠ [])
    (ha : ctx.editor.accepts draft.insertions = true) :
    Transacted s c uri ctx.editor
      (s.openDocument uri (Insertion.applyAll d.text draft.insertions))
      (some (Insertion.applyAll d.text draft.insertions))
      ((c.draft ctx d).events ++ .edit draft.insertions :: draft.notices.map announcement) := by
  have hq := (c.draft_quiet ctx d).events
  have he : Event.edits
      ((c.draft ctx d).events ++ .edit draft.insertions :: draft.notices.map announcement)
        = [draft.insertions] :=
    edits_around draft.insertions hq (Event.edits_messages .info draft.notices)
  have hn : ∀ e ∈ draft.notices.map announcement, e.isEdit = false := by
    intro e hm
    obtain ⟨n, -, rfl⟩ := List.mem_map.mp hm
    rfl
  refine ⟨?_, ?_, ?_, ?_, ?_, ?_, rfl, rfl, rfl, rfl, rfl⟩
  · simp [he]
  · simp [he, hne.symm]
  · intro is his _
    rw [he] at his
    obtain rfl := List.mem_singleton.mp his
    exact ⟨d.text, hold, rfl, by simp [get?_openDocument]⟩
  · intro h
    exact absurd (h draft.insertions (by simp [he])) (by simp [ha])
  · intro before is after h _
    obtain ⟨rfl, rfl, rfl⟩ := edit_split_unique hq hn h
    refine ⟨fun e hm => (hq e hm).2, ?_⟩
    have hdn := Command.draft_notices hd
    cases c with
    | accessors which many =>
        obtain ⟨line, made, hmade, rfl⟩ := hdn
        exact ⟨made, hset ▸ hmade, by simp, line, rfl⟩
    | doc many => exact ⟨[], by simp, by simp [hdn], rfl⟩
    | constructor => exact ⟨[], by simp, by simp [hdn], rfl⟩
    | skeleton keyword => exact ⟨[], by simp, by simp [hdn], rfl⟩
  · intro name hname
    rw [get?_openDocument, if_neg hname]

theorem run_transacted (s : Server) (c : Command) (uri : Uri) (line? : Option Nat)
    (editor : Editor) :
    Transacted s c uri editor (s.run c uri line? editor).1 (s.run c uri line? editor).2.1
      (s.run c uri line? editor).2.2 := by
  unfold run
  cases hd : s.document? uri line? with
  | none =>
      refine transacted_of_no_edit ?_
      intro e he
      rw [List.mem_singleton.mp he]
      exact ⟨rfl, fun hn => absurd (Event.head?_of_isNotice hn) (by decide)⟩
  | some d =>
      have hold : s.documents.get? uri.text = some d.text := by
        obtain ⟨text, ht, hd⟩ := Option.bind_eq_some_iff.mp hd
        rw [ht, ← Option.some.inj hd]
      dsimp only
      generalize hr : c.run ⟨editor, s.settings, s.project, s.root⟩ d = r
      have hran := c.run_ran ⟨editor, s.settings, s.project, s.root⟩ d
      rw [hr] at hran
      cases hran with
      | stopped hq => exact transacted_of_no_edit hq
      | rejected hdraft hne ha =>
          exact transacted_of_rejected (c.draft_quiet _ d).events hne ha
      | applied hdraft hne ha => exact transacted_of_applied rfl hold hdraft hne ha

end Server

end Scaffold
