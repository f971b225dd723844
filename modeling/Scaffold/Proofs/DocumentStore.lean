import Scaffold.Proofs.Batch
import Scaffold.Proofs.History
/-!
Documents and cursors over whole sessions. The text of a document is the one that its last event set,
and the cursor of a command that names no line is where actions were last asked for, unless the
document was closed since. Nothing that happens to one document shows at another.
-/
namespace Scaffold

theorem Command.run_eq_accepted (c : Command) (ctx : Context) (d : Document) :
    (c.run ctx d).1 =
      ((Event.edits (c.run ctx d).2).find? ctx.editor.accepts).map (Insertion.applyAll d.text) := by
  have hquiet := (c.draft_quiet ctx d).events
  have hran := c.run_ran ctx d
  generalize c.run ctx d = result at hran ⊢
  cases hran with
  | stopped hq =>
      rw [Event.edits_of_quiet hq]
      rfl
  | @rejected draft hdraft hne ha =>
      have hshown : Event.edits [Failure.rejected.shown] = [] :=
        Event.edits_of_quiet (by simpa using Failure.quiet_shown (by simp))
      rw [Server.edits_around draft.insertions hquiet hshown, List.find?_singleton, ha]
      rfl
  | @applied draft hdraft hne ha =>
      have hnotices : Event.edits (draft.notices.map announcement) = [] :=
        Event.edits_messages .info draft.notices
      rw [Server.edits_around draft.insertions hquiet hnotices, List.find?_singleton, ha]
      rfl

structure Order where
  command : Command
  uri : Uri
  line? : Option Nat
  editor : Editor

namespace Server

def obeyed (s : Server) (o : Order) : Server × Option String × List Event :=
  s.run o.command o.uri o.line? o.editor

def accepted? (s : Server) (o : Order) : Option String :=
  (s.documents.get? o.uri.text).bind fun old =>
    ((Event.edits (s.obeyed o).2.2).find? o.editor.accepts).map (Insertion.applyAll old)

theorem obeyed_eq (s : Server) (o : Order) :
    (s.obeyed o).1 = (s.accepted? o).elim s (s.openDocument o.uri) := by
  unfold accepted? obeyed
  cases hold : s.documents.get? o.uri.text with
  | none =>
      have hdocument : s.document? o.uri o.line? = none := by simp [document?, hold]
      unfold run
      rw [hdocument]
      rfl
  | some old =>
      have hrun := o.command.run_eq_accepted (s.context o.editor)
        ⟨o.uri, old, s.cursor o.uri o.line?⟩
      rw [run_of_get? hold]
      dsimp only
      rw [hrun]
      rfl

theorem get?_obeyed (s : Server) (o : Order) (name : String) :
    (s.obeyed o).1.documents.get? name =
      (if name = o.uri.text then s.accepted? o else none).or (s.documents.get? name) := by
  rw [obeyed_eq]
  cases s.accepted? o with
  | none => simp
  | some text =>
      change (s.openDocument o.uri text).documents.get? name = _
      rw [get?_openDocument]
      by_cases h : name = o.uri.text
      · simp [h]
      · simp [h]

theorem document?_eq (s : Server) (uri : Uri) (line? : Option Nat) :
    s.document? uri line? =
      (s.documents.get? uri.text).map fun text => ⟨uri, text, s.cursor uri line?⟩ := by
  unfold document?
  cases s.documents.get? uri.text <;> rfl

theorem cursors_obeyed (s : Server) (o : Order) : (s.obeyed o).1.cursors = s.cursors := by
  rw [obeyed_eq]
  cases s.accepted? o <;> rfl

end Server

namespace Step

def target? : Step → Option String
  | openDocument uri _ | changeDocument uri _ | closeDocument uri | codeAction uri _
  | run _ uri _ _ => some uri.text
  | command _ args _ => (Protocol.arguments? args).map fun a => a.uri.text
  | _ => none

end Step

namespace Session

open Server

def order? (s : Session) : Step → Option Order
  | .run id uri line? editor => (Command.ofId? id).map fun c => ⟨c, uri, line?, editor⟩
  | .command id args answers => do
      let c ← Command.ofId? id
      let a ← Protocol.arguments? args
      pure ⟨c, a.uri, a.line?,
        if s.connected then Protocol.client a.labels? answers else Protocol.silent a.labels?⟩
  | _ => none

theorem server_perform_run (s : Session) (id : String) (uri : Uri) (line? : Option Nat)
    (editor : Editor) :
    (s.perform (.run id uri line? editor)).1.server =
      (s.order? (.run id uri line? editor)).elim s.server fun o => (s.server.obeyed o).1 := by
  simp only [perform, order?]
  cases Command.ofId? id <;> rfl

theorem server_perform_command (s : Session) (id : String) (args : List Json)
    (answers : Protocol.ClientAnswers) :
    (s.perform (.command id args answers)).1.server =
      (s.order? (.command id args answers)).elim s.server fun o => (s.server.obeyed o).1 := by
  simp only [perform, obey, order?]
  cases Command.ofId? id with
  | none => rfl
  | some c => cases Protocol.arguments? args <;> rfl

theorem uri_of_order? {s : Session} {st : Step} {o : Order} (h : s.order? st = some o) :
    st.target? = some o.uri.text := by
  cases st with
  | run id uri line? editor =>
      obtain ⟨c, -, rfl⟩ := Option.map_eq_some_iff.mp h
      rfl
  | command id args answers =>
      obtain ⟨c, -, h⟩ := Option.bind_eq_some_iff.mp h
      obtain ⟨a, ha, h⟩ := Option.bind_eq_some_iff.mp h
      obtain rfl := Option.some.inj h
      simp [Step.target?, ha]
  | _ => exact nomatch h

/-- What a step sets the text of a document to: nothing, if it closes the document. -/
def written? (name : String) : Session × Step → Option (Option String)
  | (_, .openDocument uri text) => if name = uri.text then some (some text) else none
  | (_, .changeDocument uri texts) => if name = uri.text then texts.getLast?.map some else none
  | (_, .closeDocument uri) => if name = uri.text then some none else none
  | (s, st) =>
      (s.order? st).bind fun o =>
        if name = o.uri.text then (s.server.accepted? o).map some else none

/-- What a step sets the cursor of a document to. Actions count only if the document is open. -/
def remembered? (name : String) : Session × Step → Option (Option Nat)
  | (s, .codeAction uri line) =>
      if name = uri.text && (s.server.documents.get? name).isSome then some (some line) else none
  | (_, .closeDocument uri) => if name = uri.text then some none else none
  | _ => none

theorem get?_perform (name : String) (s : Session) (st : Step) :
    (s.perform st).1.server.documents.get? name =
      (written? name (s, st)).getD (s.server.documents.get? name) := by
  have horder : ((s.order? st).elim s.server fun o => (s.server.obeyed o).1).documents.get? name =
      ((s.order? st).bind fun o => if name = o.uri.text then (s.server.accepted? o).map some
        else none).getD (s.server.documents.get? name) := by
    cases s.order? st with
    | none => rfl
    | some o =>
        change (s.server.obeyed o).1.documents.get? name = _
        rw [get?_obeyed]
        by_cases h : name = o.uri.text
        · simp only [if_pos h, Option.bind_some]
          cases s.server.accepted? o <;> rfl
        · simp [h]
  cases st with
  | openDocument uri text =>
      change (s.server.openDocument uri text).documents.get? name = _
      rw [get?_openDocument]
      by_cases h : name = uri.text <;> simp [written?, h]
  | changeDocument uri texts =>
      change (s.server.changeDocument uri texts).documents.get? name = _
      simp only [changeDocument, written?]
      cases texts.getLast? with
      | none => simp
      | some text =>
          by_cases h : name = uri.text <;> simp [h]
  | closeDocument uri =>
      change (s.server.documents.erase uri.text).get? name = _
      rw [Store.get?_erase]
      by_cases h : name = uri.text <;> simp [written?, h]
  | codeAction uri line =>
      simp only [perform, codeActions]
      split <;> rfl
  | command id args answers =>
      rw [server_perform_command]
      exact horder
  | run id uri line? editor =>
      rw [server_perform_run]
      exact horder
  | configure json => cases json <;> rfl
  | _ => rfl

theorem cursors_perform (name : String) (s : Session) (st : Step) :
    (s.perform st).1.server.cursors.get? name =
      (remembered? name (s, st)).getD (s.server.cursors.get? name) := by
  cases st with
  | changeDocument uri texts =>
      change (s.server.changeDocument uri texts).cursors.get? name = _
      simp only [changeDocument]
      split <;> rfl
  | closeDocument uri =>
      change (s.server.cursors.erase uri.text).get? name = _
      rw [Store.get?_erase]
      by_cases h : name = uri.text <;> simp [remembered?, h]
  | codeAction uri line =>
      simp only [perform, codeActions, remembered?]
      by_cases h : name = uri.text
      · subst h
        cases s.server.documents.get? uri.text <;> simp
      · cases s.server.documents.get? uri.text <;> simp [h]
  | command id args answers =>
      rw [server_perform_command]
      cases s.order? (.command id args answers) with
      | none => rfl
      | some o => exact congrArg (Store.get? · name) (cursors_obeyed s.server o)
  | run id uri line? editor =>
      rw [server_perform_run]
      cases s.order? (.run id uri line? editor) with
      | none => rfl
      | some o => exact congrArg (Store.get? · name) (cursors_obeyed s.server o)
  | configure json => cases json <;> rfl
  | _ => rfl

theorem written?_of_target {name : String} {st : Step} (h : st.target? ≠ some name) (s : Session) :
    written? name (s, st) = none := by
  have horder : ((s.order? st).bind fun o => if name = o.uri.text then
      (s.server.accepted? o).map some else none) = none := by
    cases ho : s.order? st with
    | none => rfl
    | some o =>
        have hne : name ≠ o.uri.text := fun e => h (e ▸ uri_of_order? ho)
        simp [hne]
  have hne (uri : Uri) (ht : st.target? = some uri.text) : name ≠ uri.text := fun e => h (e ▸ ht)
  cases st with
  | openDocument uri text => exact if_neg (hne uri rfl)
  | changeDocument uri texts => exact if_neg (hne uri rfl)
  | closeDocument uri => exact if_neg (hne uri rfl)
  | _ => exact horder

theorem remembered?_of_target {name : String} {st : Step} (h : st.target? ≠ some name)
    (s : Session) : remembered? name (s, st) = none := by
  have hne (uri : Uri) (ht : st.target? = some uri.text) : name ≠ uri.text := fun e => h (e ▸ ht)
  cases st with
  | codeAction uri line => exact if_neg (by simp [hne uri rfl])
  | closeDocument uri => exact if_neg (hne uri rfl)
  | _ => rfl

theorem step_of_target {name : String} {st : Step} (h : st.target? ≠ some name) (s : Session) :
    (s.step st).1.server.documents.get? name = s.server.documents.get? name ∧
      (s.step st).1.server.cursors.get? name = s.server.cursors.get? name := by
  rw [server_step]
  split
  · rw [get?_perform, cursors_perform, written?_of_target h, remembered?_of_target h]
    exact ⟨rfl, rfl⟩
  · exact ⟨rfl, rfl⟩

theorem step_changeDocument_nil (s : Session) (uri : Uri) :
    (s.step (.changeDocument uri [])).1 = s := by
  unfold step
  split
  · cases hphase : s.phase with
    | ready =>
        change { s with phase := .ready } = s
        rw [← hphase]
    | _ => rfl
  · rfl

theorem documents_steps (workspace? : Option Path) (fs : Files) (connected : Bool)
    (sts : List Step) :
    let s := fresh workspace? fs connected
    let past := s.history sts
    let server := (s.steps sts).server
    let text? := fun name => (past.filterMap (written? name)).getLast?.getD none
    let cursor := fun name => ((past.filterMap (remembered? name)).getLast?.getD none).getD 0
    (∀ name, server.documents.get? name = text? name) ∧
    (∀ uri, server.document? uri none =
      (text? uri.text).map fun text => ⟨uri, text, cursor uri.text⟩) ∧
    (∀ c uri editor,
      server.run c uri none editor = server.run c uri (some (cursor uri.text)) editor) ∧
    (connected = false → past.map Prod.snd = sts) ∧
    (∀ (t : Session) (uri : Uri), (t.step (.changeDocument uri [])).1 = t) ∧
    (∀ (t : Session) (st : Step) (name : String), st.target? ≠ some name →
      (t.step st).1.server.documents.get? name = t.server.documents.get? name ∧
        (t.step st).1.server.cursors.get? name = t.server.cursors.get? name) := by
  intro s past server text? cursor
  have hempty : s.server.documents = {} ∧ s.server.cursors = {} := by
    cases workspace? <;> exact ⟨rfl, rfl⟩
  have htext (name : String) : server.documents.get? name = text? name := by
    have h := view_steps (fun s => s.documents.get? name) (written? name) (get?_perform name) s sts
    rw [hempty.1] at h
    exact h
  have hcursor (uri : Uri) : server.cursor uri none = cursor uri.text := by
    have h := view_steps (fun s => s.cursors.get? uri.text) (remembered? uri.text)
      (cursors_perform uri.text) s sts
    rw [hempty.2] at h
    exact congrArg (Option.getD · 0) h
  have hdocument (uri : Uri) : server.document? uri none =
      (text? uri.text).map fun text => ⟨uri, text, cursor uri.text⟩ := by
    rw [← htext, ← hcursor]
    exact document?_eq server uri none
  refine ⟨htext, hdocument, ?_, fun h => admitted_of_not_connected h sts, step_changeDocument_nil,
    fun t st name h => step_of_target h t⟩
  intro c uri editor
  have hline : server.document? uri none = server.document? uri (some (cursor uri.text)) := by
    rw [document?_eq, document?_eq, hcursor]
    rfl
  unfold run
  rw [hline]

end Session

end Scaffold
