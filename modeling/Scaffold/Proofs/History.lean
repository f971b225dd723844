import Scaffold.Server.Session
/-!
What a server is after the steps of a session, read off the steps themselves. A part of its state that
every step either sets or leaves alone is what the last step set that got past the gate and set it.
-/
namespace Scaffold

namespace Session

def fresh (workspace? : Option Path) (fs : Files) (connected : Bool) : Session :=
  { server := workspace?.elim {} (Server.inWorkspace fs), files := fs, connected }

def admits (s : Session) (st : Step) : Bool :=
  !(s.connected && !st.isLocal) || (s.phase.refusal st).isNone

def history (s : Session) : List Step → List (Session × Step)
  | [] => []
  | st :: sts =>
      if s.admits st then (s, st) :: (s.step st).1.history sts else (s.step st).1.history sts

def admitted (s : Session) (sts : List Step) : List Step :=
  (s.history sts).map Prod.snd

-- The phase opens and closes the gate; what a step does behind it does not depend on the phase.
theorem perform_phase (s : Session) (p : Phase) (st : Step) :
    ({ s with phase := p }.perform st).1 =
      { s with
        phase := p
        server := (s.perform st).1.server
        files := (s.perform st).1.files } := by
  cases st with
  | command id args answers =>
      simp only [perform, obey]
      split <;> rfl
  | run id uri line? editor =>
      simp only [perform]
      split <;> rfl
  | _ => rfl

theorem step_of_not_admits {s : Session} {st : Step} (h : s.admits st = false) :
    (s.step st).1 = s := by
  simp only [admits, Bool.or_eq_false_iff, Bool.not_eq_false'] at h
  obtain ⟨hgate, hrefused⟩ := h
  obtain ⟨reply, hreply⟩ := Option.isSome_iff_exists.mp (Option.isNone_eq_false_iff.mp hrefused)
  unfold step
  rw [if_pos hgate, hreply]

theorem step_of_admits {s : Session} {st : Step} (h : s.admits st = true) :
    ∃ p, (s.step st).1 =
      { s with
        phase := p
        server := (s.perform st).1.server
        files := (s.perform st).1.files } := by
  unfold step
  split
  · next hgate =>
      have hnone : s.phase.refusal st = none := by simpa [admits, hgate] using h
      rw [hnone]
      exact ⟨_, perform_phase s _ st⟩
  · exact ⟨s.phase, perform_phase s s.phase st⟩

theorem server_step (s : Session) (st : Step) :
    (s.step st).1.server = if s.admits st then (s.perform st).1.server else s.server := by
  by_cases h : s.admits st = true
  · obtain ⟨p, hp⟩ := step_of_admits h
    rw [if_pos h, hp]
  · rw [if_neg h, step_of_not_admits (by simpa using h)]

theorem connected_step (s : Session) (st : Step) : (s.step st).1.connected = s.connected := by
  by_cases h : s.admits st = true
  · obtain ⟨p, hp⟩ := step_of_admits h
    rw [hp]
  · rw [step_of_not_admits (by simpa using h)]

theorem steps_cons (s : Session) (st : Step) (sts : List Step) :
    s.steps (st :: sts) = (s.step st).1.steps sts := rfl

theorem admitted_of_not_connected {s : Session} (h : s.connected = false) (sts : List Step) :
    s.admitted sts = sts := by
  induction sts generalizing s with
  | nil => rfl
  | cons st sts ih =>
      have hadmits : s.admits st = true := by simp [admits, h]
      have hrest := ih ((connected_step s st).trans h)
      unfold admitted at hrest ⊢
      rw [history, if_pos hadmits, List.map_cons, hrest]

section

variable {β : Type} {P : Server → Prop}

theorem invariant_steps (hperform : ∀ (s : Session) st, P s.server → P (s.perform st).1.server)
    {s : Session} (hs : P s.server) (sts : List Step) : P (s.steps sts).server := by
  induction sts generalizing s with
  | nil => exact hs
  | cons st sts ih =>
      rw [steps_cons]
      apply ih
      rw [server_step]
      split
      · exact hperform s st hs
      · exact hs

theorem view_steps (view : Server → β) (set? : Session × Step → Option β)
    (hperform : ∀ s st, view (s.perform st).1.server = (set? (s, st)).getD (view s.server))
    (s : Session) (sts : List Step) :
    view (s.steps sts).server =
      ((s.history sts).filterMap set?).getLast?.getD (view s.server) := by
  induction sts generalizing s with
  | nil => rfl
  | cons st sts ih =>
      rw [steps_cons, ih, history, server_step]
      by_cases h : s.admits st = true
      · rw [if_pos h, if_pos h, hperform, List.filterMap_cons]
        cases set? (s, st) with
        | none => rfl
        | some b =>
            rw [List.getLast?_cons]
            rfl
      · rw [if_neg h, if_neg h]

theorem filterMap_history (s : Session) (sts : List Step) (f : Step → Option β) :
    (s.history sts).filterMap (fun past => f past.2) = (s.admitted sts).filterMap f := by
  rw [admitted, List.filterMap_map]
  rfl

end

end Session

end Scaffold
