import Scaffold.Proofs.Atomicity
import Scaffold.Proofs.Insertion
/-!
Commands that run one after another on one document, each on the text that the last one left, with
an editor that applies every edit and picks the choices on given lines. Any set of offered lines can
be picked.
-/
namespace Scaffold

open Dialog

structure Editor.Picks (editor : Editor) (choices : List Choice) (lines : List Nat) : Prop where
  applies : ∀ insertions, editor.accepts insertions = true
  picks : ∀ placeholder, ∀ c ∈ choices,
    c.label ∈ editor.choose placeholder (choices.map Choice.label) ↔ c.line ∈ lines

namespace Editor

theorem exists_picks (document : String) (accept : DeclarationLine → Bool) (lines : List Nat) :
    ∃ editor : Editor, editor.Picks (Choice.ofDocument document accept) lines := by
  let chosen := (Choice.ofDocument document accept).filter fun c => lines.contains c.line
  refine ⟨⟨fun _ _ => chosen.map Choice.label, fun _ => true⟩, fun _ => rfl, ?_⟩
  intro placeholder c hc
  constructor
  · intro hl
    obtain ⟨c', hc', hl⟩ := List.mem_map.mp hl
    obtain ⟨hc', hline⟩ := List.mem_filter.mp hc'
    rw [← Choice.eq_of_label_eq hc' hc hl]
    simpa using hline
  · intro hl
    exact List.mem_map.mpr ⟨c, List.mem_filter.mpr ⟨hc, by simpa using hl⟩, rfl⟩

theorem Picks.pickedLines_eq {editor : Editor} {document : String}
    {accept : DeclarationLine → Bool} {lines : List Nat}
    (h : editor.Picks (Choice.ofDocument document accept) lines)
    (hlines : lines.Pairwise (· < ·))
    (hoffered : ∀ l ∈ lines, ∃ c ∈ Choice.ofDocument document accept, c.line = l)
    (placeholder : String) : pickedLines editor placeholder document accept = lines := by
  have hp := pairwise_pickedLines editor placeholder document accept
  have hmem (l : Nat) : l ∈ pickedLines editor placeholder document accept ↔ l ∈ lines := by
    simp only [pickedLines, Choice.restrict, List.mem_map, List.mem_filter, List.contains_iff_mem]
    constructor
    · rintro ⟨c, ⟨hc, hl⟩, rfl⟩
      exact (h.picks placeholder c hc).mp hl
    · intro hl
      obtain ⟨c, hc, rfl⟩ := hoffered l hl
      exact ⟨c, ⟨hc, (h.picks placeholder c hc).mpr hl⟩, rfl⟩
  have hnodup {ls : List Nat} (hls : ls.Pairwise (· < ·)) : ls.Nodup :=
    hls.imp fun hab => Nat.ne_of_lt hab
  have hperm := (List.perm_ext_iff_of_nodup (hnodup hp) (hnodup hlines)).mpr hmem
  exact hperm.eq_of_pairwise (fun a b _ _ hab hba => absurd hab (Nat.lt_asymm hba)) hp hlines

end Editor

def edited (text : String) (outcome : Except Failure Draft) : String :=
  match outcome with
  | .ok draft => Insertion.applyAll text draft.insertions
  | .error _ => text

theorem edited_of_none_picked {ctx : Context} {d : Document} {placeholder : String}
    {accept : DeclarationLine → Bool}
    (h : pickedLines ctx.editor placeholder d.text accept = []) (f : List Nat → Dialog Draft) :
    edited d.text (chosenLines ctx d true placeholder accept >>= f).outcome = d.text := by
  cases hc : (chosenLines ctx d true placeholder accept >>= f).outcome with
  | error f => rfl
  | ok draft =>
      obtain ⟨lines, hlines, -⟩ := outcome_bind_eq_ok.mp hc
      obtain ⟨rfl, hne⟩ := chosenLines_many_eq_ok.mp hlines
      exact absurd h hne

theorem Command.getD_run {ctx : Context} (ha : ∀ insertions, ctx.editor.accepts insertions = true)
    (c : Command) (d : Document) :
    (c.run ctx d).1.getD d.text = edited d.text (c.draft ctx d).outcome := by
  cases hd : (c.draft ctx d).outcome with
  | error f =>
      rw [run_of_error hd]
      rfl
  | ok draft =>
      by_cases hne : draft.insertions = []
      · rw [run_of_nil hd hne]
        simp [edited, hne, Insertion.applyAll_nil]
      · rw [run_of_accepted hd hne (ha _)]
        rfl

namespace Server

def context (s : Server) (editor : Editor) : Context :=
  ⟨editor, s.settings, s.project, s.root⟩

theorem context_run (s : Server) (c : Command) (uri : Uri) (line? : Option Nat)
    (editor : Editor) : (s.run c uri line? editor).1.context editor = s.context editor := by
  unfold run
  split
  · rfl
  · split <;> rfl

def cursor (s : Server) (uri : Uri) (line? : Option Nat) : Nat :=
  (line?.or (s.cursors.get? uri.text)).getD 0

theorem run_of_get? {s : Server} {uri : Uri} {old : String}
    (hold : s.documents.get? uri.text = some old) (c : Command) (line? : Option Nat)
    (editor : Editor) :
    s.run c uri line? editor =
      let result := c.run (s.context editor) ⟨uri, old, s.cursor uri line?⟩
      (result.1.elim s (s.openDocument uri), result) := by
  have hd : s.document? uri line? = some ⟨uri, old, s.cursor uri line?⟩ := by
    unfold document?
    rw [hold]
    rfl
  have hctx : ⟨editor, s.settings, s.project, s.root⟩ = s.context editor := rfl
  unfold run
  rw [hd, hctx]
  dsimp only
  generalize c.run (s.context editor) ⟨uri, old, s.cursor uri line?⟩ = result
  obtain ⟨_ | text, events⟩ := result <;> rfl

theorem get?_run {s : Server} {uri : Uri} {old : String} {editor : Editor}
    (hold : s.documents.get? uri.text = some old)
    (ha : ∀ insertions, editor.accepts insertions = true) (c : Command) (line? : Option Nat) :
    (s.run c uri line? editor).1.documents.get? uri.text =
      some (edited old (c.draft (s.context editor) ⟨uri, old, s.cursor uri line?⟩).outcome) := by
  have hrun : (c.run (s.context editor) ⟨uri, old, s.cursor uri line?⟩).1.getD old = _ :=
    c.getD_run ha ⟨uri, old, s.cursor uri line?⟩
  rw [run_of_get? hold, ← hrun]
  dsimp only
  cases (c.run (s.context editor) ⟨uri, old, s.cursor uri line?⟩).1 with
  | none => exact hold
  | some text => simp [get?_openDocument]

def runAt (s : Server) (uri : Uri) (editor : Editor) (steps : List (Command × Nat)) : Server :=
  steps.foldl (fun s step => (s.run step.1 uri (some step.2) editor).1) s

def editedAt (ctx : Context) (uri : Uri) (text : String) (step : Command × Nat) : String :=
  edited text (step.1.draft ctx ⟨uri, text, step.2⟩).outcome

theorem get?_runAt {s : Server} {uri : Uri} {old : String} {editor : Editor}
    (hold : s.documents.get? uri.text = some old)
    (ha : ∀ insertions, editor.accepts insertions = true) (steps : List (Command × Nat)) :
    (s.runAt uri editor steps).documents.get? uri.text =
      some (steps.foldl (editedAt (s.context editor) uri) old) := by
  induction steps generalizing s old with
  | nil => exact hold
  | cons step steps ih =>
      have hnext := get?_run hold ha step.1 (some step.2)
      have hrest := ih hnext
      rw [context_run] at hrest
      exact hrest

def sampleUri : Uri :=
  ⟨"file:///A.php"⟩

end Server

end Scaffold
