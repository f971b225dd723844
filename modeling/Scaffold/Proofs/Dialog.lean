import Scaffold.Server.State
/-!
Dialogs that are quiet: before a draft is put to the editor nothing is edited, and nobody is told
that an accessor was made. What a dialog ends in is computed apart from what is said on the way.
-/
namespace Scaffold

def getterNotice (name : String) : String :=
  "Getter for property '" ++ name ++ "' created."

def setterNotice (name : String) : String :=
  "Setter for property '" ++ name ++ "' created."

theorem head?_getterNotice (name : String) : (getterNotice name).toList.head? = some 'G' := by
  unfold getterNotice
  rw [String.toList_append, String.toList_append]
  rfl

theorem head?_setterNotice (name : String) : (setterNotice name).toList.head? = some 'S' := by
  unfold setterNotice
  rw [String.toList_append, String.toList_append]
  rfl

namespace Icon

theorem stripChars_cons {c : Char} (hc : c ≠ '$') (cs : List Char) :
    stripChars (c :: cs) = c :: stripChars cs := by
  have hi : afterIcon? (c :: cs) = none := by
    unfold afterIcon?
    split
    · next h => exact absurd (List.cons.inj h).1 hc
    · rfl
  simp only [stripChars, hi]

theorem head?_strip {s : String} {c : Char} (hs : s.toList.head? = some c) (hc : c ≠ '$') :
    (strip s).toList.head? = some c := by
  obtain ⟨cs, hcs⟩ := List.head?_eq_some_iff.mp hs
  simp [strip, hcs, stripChars_cons hc]

end Icon

namespace Event

def isEdit : Event → Bool
  | edit _ => true
  | _ => false

def edits (events : List Event) : List (List Insertion) :=
  events.filterMap fun
    | edit insertions => some insertions
    | _ => none

def IsNotice (e : Event) : Prop :=
  ∃ name, e = message .info (Icon.strip (getterNotice name))
    ∨ e = message .info (Icon.strip (setterNotice name))

def Quiet (e : Event) : Prop :=
  e.isEdit = false ∧ ¬ e.IsNotice

theorem head?_of_isNotice {text : String} (h : (message .info text).IsNotice) :
    text.toList.head? = some 'G' ∨ text.toList.head? = some 'S' := by
  rcases h with ⟨name, h | h⟩
  · injection h with _ ht
    left
    rw [ht]
    exact Icon.head?_strip (head?_getterNotice name) (by decide)
  · injection h with _ ht
    right
    rw [ht]
    exact Icon.head?_strip (head?_setterNotice name) (by decide)

theorem quiet_pick (placeholder : String) (labels : List String) :
    (pick placeholder labels).Quiet := by
  refine ⟨rfl, ?_⟩
  rintro ⟨name, h | h⟩ <;> exact absurd h (by simp)

theorem quiet_message {severity : Severity} (h : severity ≠ .info) (text : String) :
    (message severity text).Quiet := by
  refine ⟨rfl, ?_⟩
  rintro ⟨name, hn | hn⟩ <;> exact h (message.inj hn).1

def startsPlain (text : String) : Bool :=
  text.toList.head?.all fun c => c != '$' && c != 'G' && c != 'S'

theorem quiet_info {text : String} (h : startsPlain text = true) :
    (message .info (Icon.strip text)).Quiet := by
  refine ⟨rfl, fun hn => ?_⟩
  have hh := head?_of_isNotice hn
  cases ht : text.toList with
  | nil => simp [Icon.strip, Icon.stripChars, ht] at hh
  | cons c cs =>
      have hc : (c ≠ '$' ∧ c ≠ 'G') ∧ c ≠ 'S' := by simpa [startsPlain, ht] using h
      have hs := Icon.head?_strip (by rw [ht]; rfl) hc.1.1
      rw [hs] at hh
      rcases hh with hg | hg
      · exact hc.1.2 (Option.some.inj hg)
      · exact hc.2 (Option.some.inj hg)

theorem edits_append (es es' : List Event) : edits (es ++ es') = edits es ++ edits es' :=
  List.filterMap_append

theorem edits_of_quiet {es : List Event} (h : ∀ e ∈ es, e.Quiet) : edits es = [] := by
  rw [edits, List.filterMap_eq_nil_iff]
  intro e he
  have hq := (h e he).1
  cases e with
  | edit insertions => simp [isEdit] at hq
  | pick placeholder labels => rfl
  | message severity text => rfl

theorem edits_messages (severity : Severity) (texts : List String) :
    edits (texts.map fun t => message severity (Icon.strip t)) = [] := by
  simp [edits, List.filterMap_map]

end Event

def Failure.shown (f : Failure) : Event :=
  .message f.severity (Icon.strip f.message)

theorem Failure.quiet_shown {f : Failure} (h : ∀ reason, f ≠ .noTarget reason) :
    f.shown.Quiet := by
  apply Event.quiet_message
  cases f with
  | noTarget reason => exact absurd rfl (h reason)
  | nothingMade => simp [severity]
  | noPlace => simp [severity]
  | rejected => simp [severity]

namespace Dialog

variable {α β : Type}

structure Quiet (d : Dialog α) : Prop where
  events : ∀ e ∈ d.events, e.Quiet
  failure : ∀ f, d.outcome = .error f → f.shown.Quiet

theorem outcome_bind_eq_ok {d : Dialog α} {f : α → Dialog β} {b : β} :
    (d >>= f).outcome = .ok b ↔ ∃ a, d.outcome = .ok a ∧ (f a).outcome = .ok b := by
  cases h : d.outcome with
  | ok a => simp [bind_of_ok h]
  | error e => simp [bind_of_error h]

theorem quiet_pure (a : α) : (pure a : Dialog α).Quiet :=
  ⟨by simp, by simp⟩

theorem quiet_stop {f : Failure} (h : f.shown.Quiet) : (stop f : Dialog α).Quiet := by
  refine ⟨by simp, ?_⟩
  intro f' hf
  rw [outcome_stop] at hf
  exact Except.error.inj hf ▸ h

theorem quiet_emit {e : Event} (h : e.Quiet) : (emit e).Quiet := by
  refine ⟨?_, by simp [emit]⟩
  intro e' he
  rw [List.mem_singleton.mp he]
  exact h

theorem quiet_bind {d : Dialog α} {f : α → Dialog β} (hd : d.Quiet)
    (hf : ∀ a, d.outcome = .ok a → (f a).Quiet) : (d >>= f).Quiet := by
  cases h : d.outcome with
  | ok a =>
      have ha := hf a h
      rw [bind_of_ok h]
      refine ⟨?_, ha.failure⟩
      intro e he
      rcases List.mem_append.mp he with he | he
      · exact hd.events e he
      · exact ha.events e he
  | error f' =>
      rw [bind_of_error h]
      refine ⟨hd.events, ?_⟩
      intro g hg
      cases hg
      exact hd.failure f' h

theorem outcome_bind_of_ok {d : Dialog α} {a : α} (h : d.outcome = .ok a) (f : α → Dialog β) :
    (d >>= f).outcome = (f a).outcome := by
  rw [bind_of_ok h]

theorem quiet_then {d : Dialog α} {f : α → Dialog β} (hd : d.Quiet) (hf : ∀ a, (f a).Quiet) :
    (d >>= f).Quiet :=
  quiet_bind hd fun a _ => hf a

theorem quiet_pick (editor : Editor) (placeholder : String) (labels : List String) :
    (pick editor placeholder labels).Quiet :=
  quiet_then (quiet_emit (Event.quiet_pick placeholder labels)) fun _ => quiet_pure _

end Dialog

end Scaffold
