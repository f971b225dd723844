import Scaffold.Proofs.History
/-!
The settings in effect and the project, over whole sessions. Both are kept apart from what they come
from: settings are worked out anew by three kinds of steps, and files are read by one. After any steps
they are what the last load, the last initial options and the last settings object make them.
-/
namespace Scaffold

structure Load where
  files : Files
  root? : Option Path

def Load.layers (l : Load) : List Json :=
  l.files.settingsLayers l.root?

def Load.project? (l : Load) : Option Project :=
  l.root?.map l.files.project

namespace Step

def options? : Step → Option (Option Json)
  | start _ options => some options
  | _ => none

/-- The settings of a step that changes them; what is no object changes nothing. -/
def changed? : Step → Option Json
  | configure (.object members) => some (.object members)
  | _ => none

def isLoad : Step → Bool
  | started => true
  | _ => false

def setsSettings (st : Step) : Bool :=
  st.isLoad || st.options?.isSome || st.changed?.isSome

/-- The loads among some steps. Each sees the files as they are written up to then, and the directory
that was named last. -/
def loads (fs : Files) (root? : Option Path) : List Step → List Load
  | [] => []
  | started :: sts => ⟨fs, root?⟩ :: loads fs root? sts
  | start uri? _ :: sts => loads fs (uri?.bind Uri.path?) sts
  | write path text? :: sts => loads (fs.write path text?) root? sts
  | writeUserSettings text? :: sts => loads (fs.writeUserSettings text?) root? sts
  | _ :: sts => loads fs root? sts

end Step

namespace Server

def background (s : Server) : Server :=
  { s with documents := {}, cursors := {} }

theorem background_run (s : Server) (c : Command) (uri : Uri) (line? : Option Nat)
    (editor : Editor) : (s.run c uri line? editor).1.background = s.background := by
  unfold run
  split
  · rfl
  · split <;> rfl

def Resolved (s : Server) : Prop :=
  s.settings = Settings.ofLayersOrDefault s.layers.all

theorem resolved_empty : ({} : Server).Resolved := by
  unfold Resolved
  rfl

theorem resolved_refresh (s : Server) : s.refresh.Resolved := rfl

end Server

namespace Session

open Server

def settled (s : Session) : Step → Server
  | .start root? options => s.server.start root? options
  | .started => s.server.reload s.files
  | .configure settings => s.server.configure settings
  | _ => s.server

theorem background_perform (s : Session) (st : Step) :
    (s.perform st).1.server.background = (s.settled st).background := by
  cases st with
  | changeDocument uri texts =>
      simp only [perform, changeDocument]
      split <;> rfl
  | codeAction uri line =>
      simp only [perform, codeActions]
      split <;> rfl
  | command id args answers =>
      simp only [perform, obey]
      split
      · exact background_run _ _ _ _ _
      · rfl
  | run id uri line? editor =>
      simp only [perform]
      split
      · exact background_run _ _ _ _ _
      · rfl
  | _ => rfl

theorem view_perform {β : Type} (view : Server → β)
    (hview : ∀ s : Server, view s.background = view s) (s : Session) (st : Step) :
    view (s.perform st).1.server = view (s.settled st) := by
  rw [← hview, background_perform, hview]

theorem resolved_fresh (workspace? : Option Path) (fs : Files) (connected : Bool) :
    (fresh workspace? fs connected).server.Resolved := by
  cases workspace? with
  | none => exact resolved_empty
  | some root => exact resolved_refresh _

theorem resolved_perform (s : Session) (st : Step) (h : s.server.Resolved) :
    (s.perform st).1.server.Resolved := by
  unfold Resolved
  rw [view_perform settings (fun _ => rfl), view_perform layers (fun _ => rfl)]
  cases st with
  | start root? options => exact resolved_refresh _
  | started => exact resolved_refresh _
  | configure json =>
      cases json with
      | object members => exact resolved_refresh _
      | _ => exact h
  | _ => exact h

theorem files_perform (s : Session) (st : Step) :
    (s.perform st).1.files =
      match st with
      | .write path text? => s.files.write path text?
      | .writeUserSettings text? => s.files.writeUserSettings text?
      | _ => s.files := by
  cases st with
  | command id args answers =>
      simp only [perform, obey]
      split <;> rfl
  | run id uri line? editor =>
      simp only [perform]
      split <;> rfl
  | _ => rfl

def load? : Session × Step → Option Load
  | (s, .started) => some ⟨s.files, s.server.root⟩
  | _ => none

theorem loads_history (s : Session) (sts : List Step) :
    (s.history sts).filterMap load? = Step.loads s.files s.server.root (s.admitted sts) := by
  unfold admitted
  induction sts generalizing s with
  | nil => rfl
  | cons st sts ih =>
      rw [history]
      by_cases h : s.admits st = true
      · obtain ⟨p, hp⟩ := step_of_admits h
        have hfiles := files_perform s st
        have hroot := view_perform root (fun _ => rfl) s st
        rw [if_pos h, List.filterMap_cons, ih, List.map_cons, hp]
        dsimp only
        rw [hfiles, hroot]
        cases st with
        | configure json => cases json <;> rfl
        | _ => rfl
      · rw [if_neg h, step_of_not_admits (by simpa using h)]
        exact ih s

section

variable (s : Session) (sts : List Step)

theorem files_steps :
    (s.steps sts).server.layers.files =
      ((Step.loads s.files s.server.root (s.admitted sts)).map Load.layers).getLast?.getD
        s.server.layers.files := by
  rw [view_steps (fun s => s.layers.files) (fun past => (load? past).map Load.layers)]
  · rw [← loads_history, List.map_filterMap]
  · intro s st
    rw [view_perform (fun s => s.layers.files) (fun _ => rfl)]
    cases st with
    | configure json => cases json <;> rfl
    | _ => rfl

theorem initial_steps :
    (s.steps sts).server.layers.initial =
      ((s.admitted sts).filterMap Step.options?).getLast?.getD s.server.layers.initial := by
  rw [view_steps (fun s => s.layers.initial) (fun past => past.2.options?), filterMap_history]
  intro s st
  rw [view_perform (fun s => s.layers.initial) (fun _ => rfl)]
  cases st with
  | configure json => cases json <;> rfl
  | _ => rfl

theorem changed_steps :
    (s.steps sts).server.layers.changed =
      (((s.admitted sts).filterMap Step.changed?).map some).getLast?.getD
        s.server.layers.changed := by
  rw [view_steps (fun s => s.layers.changed) (fun past => past.2.changed?.map some),
    ← filterMap_history, List.map_filterMap]
  intro s st
  rw [view_perform (fun s => s.layers.changed) (fun _ => rfl)]
  cases st with
  | configure json => cases json <;> rfl
  | _ => rfl

theorem project_steps :
    (s.steps sts).server.project =
      ((Step.loads s.files s.server.root (s.admitted sts)).filterMap Load.project?).getLast?.getD
        s.server.project := by
  rw [view_steps project (fun past => (load? past).bind Load.project?)]
  · rw [← loads_history, List.filterMap_filterMap]
  · intro s st
    rw [view_perform project (fun _ => rfl)]
    cases st with
    | configure json => cases json <;> rfl
    | started =>
        simp only [settled, reload, refresh, load?]
        cases s.server.root <;> rfl
    | _ => rfl

end

theorem settings_step_of_not_sets {st : Step} (h : st.setsSettings = false) (s : Session) :
    (s.step st).1.server.settings = s.server.settings := by
  rw [server_step]
  split
  · rw [view_perform settings (fun _ => rfl)]
    cases st with
    | start root? options => exact nomatch h
    | started => exact nomatch h
    | configure json =>
        cases json with
        | object members => exact nomatch h
        | _ => rfl
    | _ => rfl
  · rfl

theorem project_step_of_not_load {st : Step} (h : st.isLoad = false) (s : Session) :
    (s.step st).1.server.project = s.server.project := by
  rw [server_step]
  split
  · rw [view_perform project (fun _ => rfl)]
    cases st with
    | started => exact nomatch h
    | configure json => cases json <;> rfl
    | _ => rfl
  · rfl

def firstLoads (workspace? : Option Path) (fs : Files) : List Load :=
  (workspace?.map fun root => ⟨fs, some root⟩).toList

section

variable (workspace? : Option Path) (fs : Files) (connected : Bool) (ls : List Load)

theorem getD_files_fresh :
    (ls.map Load.layers).getLast?.getD (fresh workspace? fs connected).server.layers.files =
      (firstLoads workspace? fs ++ ls).getLast?.elim [] Load.layers := by
  rw [List.getLast?_map]
  cases workspace? with
  | none =>
      change (ls.getLast?.map Load.layers).getD [] = ls.getLast?.elim [] Load.layers
      cases ls.getLast? <;> rfl
  | some root =>
      change _ = (⟨fs, some root⟩ :: ls).getLast?.elim [] Load.layers
      rw [List.getLast?_cons]
      cases ls.getLast? <;> rfl

theorem getD_project_fresh :
    (ls.filterMap Load.project?).getLast?.getD (fresh workspace? fs connected).server.project =
      ((firstLoads workspace? fs ++ ls).filterMap Load.project?).getLast?.getD {} := by
  cases workspace? with
  | none => rfl
  | some root =>
      change _ = (fs.project root :: ls.filterMap Load.project?).getLast?.getD {}
      rw [List.getLast?_cons]
      rfl

end

theorem effective_steps (workspace? : Option Path) (fs : Files) (connected : Bool)
    (sts : List Step) :
    let s := fresh workspace? fs connected
    let past := s.admitted sts
    let loads := firstLoads workspace? fs ++ Step.loads fs workspace? past
    let layers := loads.getLast?.elim [] Load.layers
      ++ (past.filterMap Step.options?).getLast?.join.toList
      ++ (past.filterMap Step.changed?).getLast?.toList
    (s.steps sts).server.settings = Settings.ofLayersOrDefault layers ∧
    (s.steps sts).server.project = (loads.filterMap Load.project?).getLast?.getD {} ∧
    (connected = false → past = sts) ∧
    (∀ (t : Session) (st : Step), st.setsSettings = false →
      (t.step st).1.server.settings = t.server.settings) ∧
    (∀ (t : Session) (st : Step), st.isLoad = false →
      (t.step st).1.server.project = t.server.project) := by
  intro s past loads layers
  have hroot : s.server.root = workspace? := by cases workspace? <;> rfl
  have hstart : s.server.layers.initial = none ∧ s.server.layers.changed = none := by
    cases workspace? <;> exact ⟨rfl, rfl⟩
  have hfiles : (s.steps sts).server.layers.files = loads.getLast?.elim [] Load.layers := by
    rw [files_steps, hroot]
    exact getD_files_fresh workspace? fs connected _
  have hproject :
      (s.steps sts).server.project = (loads.filterMap Load.project?).getLast?.getD {} := by
    rw [project_steps, hroot]
    exact getD_project_fresh workspace? fs connected _
  have hinitial : (s.steps sts).server.layers.initial =
      (past.filterMap Step.options?).getLast?.join := by
    rw [initial_steps, hstart.1]
    cases (past.filterMap Step.options?).getLast? <;> rfl
  have hchanged : (s.steps sts).server.layers.changed =
      (past.filterMap Step.changed?).getLast? := by
    rw [changed_steps, hstart.2, List.getLast?_map]
    cases (past.filterMap Step.changed?).getLast? <;> rfl
  have hresolved : (s.steps sts).server.Resolved :=
    invariant_steps resolved_perform (resolved_fresh workspace? fs connected) sts
  refine ⟨?_, hproject, fun h => admitted_of_not_connected h sts,
    fun t st h => settings_step_of_not_sets h t, fun t st h => project_step_of_not_load h t⟩
  calc (s.steps sts).server.settings
      = Settings.ofLayersOrDefault (s.steps sts).server.layers.all := hresolved
    _ = Settings.ofLayersOrDefault layers := by
        unfold Layers.all
        rw [hfiles, hinitial, hchanged]

end Session

end Scaffold
