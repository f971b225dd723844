import Scaffold.Proofs.Choice
import Scaffold.Proofs.Dialog
/-!
What drafts end in, and that they are made quietly: until a draft is put to the editor, nothing is
edited and no accessor is announced. The value of a dialog that cannot fail is a function of the
document alone, whatever is reported on the way.
-/
namespace Scaffold

open Dialog

def Site.property? (s : Site) : Option PropertySignature :=
  match PropertySignature.ofSite s with
  | .ok p => some p
  | .error _ =>
      match DeclarationLine.property? s.text with
      | some (.property _ name) => some ⟨name, {}⟩
      | _ => none

def Site.signature (document : String) (s : Site) (declared : DeclarationLine) : Signature :=
  match Signature.ofSite document s declared.kind with
  | .ok signature => signature
  | .error _ => declared.signature

def Site.docText (document : String) (s : Site) (settings : Settings) : String :=
  match DeclarationLine.parse? s.text with
  | some declared => Template.doc (s.signature document declared) s.tab settings
  | none => ""

def accessorsOn (ctx : Context) (which : Accessors) (document : String) (line : Nat) :
    List (String × String) :=
  match Site.ofLine? document line with
  | some s => s.property?.elim [] (accessorsOf ctx which s)
  | none => []

def docOn (settings : Settings) (document : String) (line : Nat) : List Insertion :=
  match Site.ofLine? document line with
  | some s =>
      if s.docText document settings = "" then [] else [⟨line, s.docText document settings⟩]
  | none => []

theorem outcome_reportFailure (kind : String) (e : SignatureError) :
    (reportFailure kind e).outcome = .ok () := rfl

theorem outcome_propertyAt? (s : Site) : (propertyAt? s).outcome = .ok s.property? := by
  unfold propertyAt? Site.property?
  cases PropertySignature.ofSite s with
  | ok p => rfl
  | error e =>
      dsimp only
      rw [outcome_bind_of_ok (outcome_reportFailure _ _)]
      cases DeclarationLine.property? s.text with
      | none => rfl
      | some declared => cases declared <;> rfl

theorem outcome_propertyOn? (document : String) (line : Nat) :
    (propertyOn? document line).outcome =
      .ok ((Site.ofLine? document line).bind fun s => s.property?.map fun p => (s, p)) := by
  unfold propertyOn?
  cases Site.ofLine? document line with
  | none => rfl
  | some s =>
      dsimp only
      rw [outcome_bind_of_ok (outcome_propertyAt? s), outcome_pure, Option.bind_some]

theorem outcome_accessorsAt (ctx : Context) (d : Document) (which : Accessors) (line : Nat) :
    (accessorsAt ctx d which line).outcome = .ok (accessorsOn ctx which d.text line) := by
  unfold accessorsAt accessorsOn
  rw [outcome_bind_of_ok (outcome_propertyOn? _ _)]
  cases Site.ofLine? d.text line with
  | none => rfl
  | some s => cases hp : s.property? <;> simp [hp]

theorem outcome_accessorTemplates (ctx : Context) (d : Document) (which : Accessors)
    (lines : List Nat) :
    (accessorTemplates ctx d which lines).outcome =
      .ok (lines.flatMap (accessorsOn ctx which d.text)) := by
  induction lines with
  | nil => rfl
  | cons line lines ih =>
      unfold accessorTemplates
      rw [outcome_bind_of_ok (outcome_accessorsAt _ _ _ _), outcome_bind_of_ok ih]
      rfl

theorem outcome_signatureAt (document : String) (s : Site) (declared : DeclarationLine) :
    (signatureAt document s declared).outcome = .ok (s.signature document declared) := by
  unfold signatureAt Site.signature
  cases Signature.ofSite document s declared.kind with
  | ok signature => rfl
  | error e => rfl

theorem outcome_docTemplate (ctx : Context) (d : Document) (s : Site) :
    (docTemplate ctx d s).outcome = .ok (s.docText d.text ctx.settings) := by
  unfold docTemplate Site.docText
  cases DeclarationLine.parse? s.text with
  | none => rfl
  | some declared =>
      dsimp only
      rw [outcome_bind_of_ok (outcome_signatureAt _ _ _)]
      split <;> rfl

theorem outcome_docAt (ctx : Context) (d : Document) (line : Nat) :
    (docAt ctx d line).outcome = .ok (docOn ctx.settings d.text line) := by
  unfold docAt docOn
  cases Site.ofLine? d.text line with
  | none => rfl
  | some s =>
      dsimp only
      rw [outcome_bind_of_ok (outcome_docTemplate ctx d s)]
      rfl

theorem outcome_docInsertions (ctx : Context) (d : Document) (lines : List Nat) :
    (docInsertions ctx d lines).outcome = .ok (lines.flatMap (docOn ctx.settings d.text)) := by
  induction lines with
  | nil => rfl
  | cons line lines ih =>
      unfold docInsertions
      rw [outcome_bind_of_ok (outcome_docAt _ _ _), outcome_bind_of_ok ih]
      rfl

def pickedLines (editor : Editor) (placeholder document : String)
    (accept : DeclarationLine → Bool) : List Nat :=
  let choices := Choice.ofDocument document accept
  (Choice.restrict choices (editor.choose placeholder (choices.map Choice.label))).map Choice.line

theorem pickChoices_eq_ok {ctx : Context} {placeholder : String} {choices picked : List Choice} :
    (pickChoices ctx placeholder choices).outcome = .ok picked ↔
      picked = Choice.restrict choices (ctx.editor.choose placeholder (choices.map Choice.label)) ∧
        picked ≠ [] := by
  unfold pickChoices
  rw [outcome_bind_of_ok (outcome_pick _ _ _)]
  cases Choice.restrict choices (ctx.editor.choose placeholder (choices.map Choice.label)) with
  | nil => simp
  | cons c cs =>
      simp only [outcome_pure, Except.ok.injEq]
      constructor
      · rintro rfl
        exact ⟨rfl, by simp⟩
      · rintro ⟨rfl, -⟩
        rfl

theorem chosenLines_many_eq_ok {ctx : Context} {d : Document} {placeholder : String}
    {accept : DeclarationLine → Bool} {lines : List Nat} :
    (chosenLines ctx d true placeholder accept).outcome = .ok lines ↔
      lines = pickedLines ctx.editor placeholder d.text accept ∧ lines ≠ [] := by
  unfold chosenLines pickedLines
  rw [if_pos rfl]
  cases Choice.ofDocument d.text accept with
  | nil => simp [Choice.restrict]
  | cons c cs =>
      simp only [outcome_bind_eq_ok, pickChoices_eq_ok, outcome_pure, Except.ok.injEq]
      constructor
      · rintro ⟨picked, ⟨rfl, hne⟩, rfl⟩
        exact ⟨rfl, by simpa using hne⟩
      · rintro ⟨rfl, hne⟩
        exact ⟨_, ⟨rfl, by simpa using hne⟩, rfl⟩

theorem pairwise_pickedLines (editor : Editor) (placeholder document : String)
    (accept : DeclarationLine → Bool) :
    (pickedLines editor placeholder document accept).Pairwise (· < ·) :=
  List.pairwise_map.mpr ((Choice.pairwise_line document accept).filter _)

theorem pairwise_of_chosenLines {ctx : Context} {d : Document} {many : Bool}
    {placeholder : String} {accept : DeclarationLine → Bool} {lines : List Nat}
    (h : (chosenLines ctx d many placeholder accept).outcome = .ok lines) :
    lines.Pairwise (· < ·) := by
  cases many with
  | true =>
      rw [(chosenLines_many_eq_ok.mp h).1]
      exact pairwise_pickedLines _ _ _ _
  | false =>
      rw [← Except.ok.inj h]
      exact List.pairwise_singleton _ _

theorem accessorDraft_eq_ok {ctx : Context} {d : Document} {which : Accessors} {many : Bool}
    {draft : Draft} (h : (accessorDraft ctx d which many).outcome = .ok draft) :
    ∃ lines line, classEnd? d.text = some line ∧
      (chosenLines ctx d many "Select properties" isProperty).outcome = .ok lines ∧
      lines.flatMap (accessorsOn ctx which d.text) ≠ [] ∧
      draft = ⟨[⟨line, String.join ((lines.flatMap (accessorsOn ctx which d.text)).map Prod.fst)⟩],
        (lines.flatMap (accessorsOn ctx which d.text)).map Prod.snd⟩ := by
  unfold accessorDraft at h
  split at h
  · simp at h
  · obtain ⟨lines, hlines, h⟩ := outcome_bind_eq_ok.mp h
    rw [outcome_bind_of_ok (outcome_accessorTemplates _ _ _ _)] at h
    split at h
    · simp at h
    · next hne =>
        cases hend : classEnd? d.text with
        | none => simp [hend] at h
        | some line =>
            rw [hend] at h
            exact ⟨lines, line, rfl, hlines, hne, (Except.ok.inj h).symm⟩

theorem outcome_docDraft {ctx : Context} {d : Document} {many : Bool} {lines : List Nat}
    (h : (chosenLines ctx d many "Select declarations to document" fun _ => true).outcome
      = .ok lines) :
    (docDraft ctx d many).outcome =
      .ok ⟨(lines.filter fun line => !isDocumented d.text line).flatMap
        (docOn ctx.settings d.text), []⟩ := by
  unfold docDraft
  rw [outcome_bind_of_ok h]
  split
  · next hnone =>
      rw [hnone]
      rfl
  · rw [outcome_bind_of_ok (outcome_docInsertions _ _ _)]
    rfl

theorem docDraft_eq_ok {ctx : Context} {d : Document} {many : Bool} {draft : Draft}
    (h : (docDraft ctx d many).outcome = .ok draft) :
    ∃ lines,
      (chosenLines ctx d many "Select declarations to document" fun _ => true).outcome
        = .ok lines ∧
      draft = ⟨(lines.filter fun line => !isDocumented d.text line).flatMap
        (docOn ctx.settings d.text), []⟩ := by
  obtain ⟨lines, hlines, -⟩ := outcome_bind_eq_ok.mp h
  rw [outcome_docDraft hlines] at h
  exact ⟨lines, hlines, (Except.ok.inj h).symm⟩

theorem constructorDraft_eq_ok {ctx : Context} {d : Document} {draft : Draft}
    (h : (constructorDraft ctx d).outcome = .ok draft) :
    ∃ line properties tab className,
      constructorPlace? d.text ((Choice.ofDocument d.text isProperty).getLast?.map Choice.line)
        = some line ∧
      draft = ⟨[⟨line, Template.constructor properties tab className ctx.settings⟩], []⟩ := by
  unfold constructorDraft at h
  obtain ⟨picked, -, h⟩ := outcome_bind_eq_ok.mp h
  obtain ⟨found, -, h⟩ := outcome_bind_eq_ok.mp h
  dsimp only at h
  split at h
  · simp at h
  · split at h
    · simp at h
    · next line hplace => exact ⟨line, _, _, _, hplace, (Except.ok.inj h).symm⟩

theorem skeletonDraft_eq_ok {ctx : Context} {d : Document} {keyword : Php.ClassKeyword}
    {draft : Draft} (h : (skeletonDraft ctx d keyword).outcome = .ok draft) :
    ∃ name nameSpace, Template.skeleton keyword name nameSpace ctx.settings ≠ "" ∧
      draft = ⟨[⟨0, Template.skeleton keyword name nameSpace ctx.settings⟩], []⟩ := by
  unfold skeletonDraft at h
  split at h
  · simp at h
  · obtain ⟨_, -, h⟩ := outcome_bind_eq_ok.mp h
    dsimp only at h
    split at h
    · simp at h
    · next hne => exact ⟨_, _, hne, (Except.ok.inj h).symm⟩

theorem pickChoices_quiet (ctx : Context) (placeholder : String) (choices : List Choice) :
    (pickChoices ctx placeholder choices).Quiet := by
  refine quiet_then (Dialog.quiet_pick _ _ _) fun labels => ?_
  split
  · exact quiet_stop (Event.quiet_info (by decide))
  · exact quiet_pure _

theorem chosenLines_quiet (ctx : Context) (d : Document) (many : Bool) (placeholder : String)
    (accept : DeclarationLine → Bool) : (chosenLines ctx d many placeholder accept).Quiet := by
  unfold chosenLines
  split
  · split
    · exact quiet_stop (Event.quiet_info (by decide))
    · exact quiet_then (pickChoices_quiet _ _ _) fun _ => quiet_pure _
  · exact quiet_pure _

theorem reportFailure_quiet (kind : String) (e : SignatureError) : (reportFailure kind e).Quiet :=
  quiet_emit (Event.quiet_message (by decide) _)

theorem propertyAt?_quiet (s : Site) : (propertyAt? s).Quiet := by
  unfold propertyAt?
  split
  · exact quiet_pure _
  · refine quiet_then (reportFailure_quiet _ _) fun _ => ?_
    split <;> exact quiet_pure _

theorem propertyOn?_quiet (document : String) (line : Nat) : (propertyOn? document line).Quiet := by
  unfold propertyOn?
  split
  · exact quiet_then (propertyAt?_quiet _) fun _ => quiet_pure _
  · exact quiet_pure _

theorem signatureAt_quiet (document : String) (s : Site) (declared : DeclarationLine) :
    (signatureAt document s declared).Quiet := by
  unfold signatureAt
  split
  · exact quiet_pure _
  · exact quiet_then (reportFailure_quiet _ _) fun _ => quiet_pure _

theorem accessorTemplates_quiet (ctx : Context) (d : Document) (which : Accessors)
    (lines : List Nat) : (accessorTemplates ctx d which lines).Quiet := by
  induction lines with
  | nil => exact quiet_pure _
  | cons line lines ih =>
      have here : (accessorsAt ctx d which line).Quiet :=
        quiet_then (propertyOn?_quiet _ _) fun _ => quiet_pure _
      exact quiet_then here fun _ => quiet_then ih fun _ => quiet_pure _

theorem accessorDraft_quiet (ctx : Context) (d : Document) (which : Accessors) (many : Bool) :
    (accessorDraft ctx d which many).Quiet := by
  unfold accessorDraft
  split
  · exact quiet_stop (Event.quiet_info (by decide))
  · refine quiet_then (chosenLines_quiet _ _ _ _ _) fun lines => ?_
    refine quiet_then (accessorTemplates_quiet _ _ _ _) fun made => ?_
    split
    · exact quiet_stop (Failure.quiet_shown (by simp))
    · split
      · exact quiet_pure _
      · exact quiet_stop (Failure.quiet_shown (by simp))

theorem docTemplate_quiet (ctx : Context) (d : Document) (s : Site) :
    (docTemplate ctx d s).Quiet := by
  unfold docTemplate
  split
  · refine quiet_then (signatureAt_quiet _ _ _) fun signature => ?_
    dsimp only
    split
    · exact quiet_then (quiet_emit (Event.quiet_message (by decide) _)) fun _ => quiet_pure _
    · exact quiet_pure _
  · exact quiet_then (quiet_emit (Event.quiet_message (by decide) _)) fun _ => quiet_pure _

theorem docAt_quiet (ctx : Context) (d : Document) (line : Nat) : (docAt ctx d line).Quiet := by
  unfold docAt
  split
  · exact quiet_then (docTemplate_quiet _ _ _) fun _ => quiet_pure _
  · exact quiet_pure _

theorem docInsertions_quiet (ctx : Context) (d : Document) (lines : List Nat) :
    (docInsertions ctx d lines).Quiet := by
  induction lines with
  | nil => exact quiet_pure _
  | cons line lines ih =>
      exact quiet_then (docAt_quiet _ _ _) fun _ => quiet_then ih fun _ => quiet_pure _

theorem docDraft_quiet (ctx : Context) (d : Document) (many : Bool) :
    (docDraft ctx d many).Quiet := by
  unfold docDraft
  refine quiet_then (chosenLines_quiet _ _ _ _ _) fun lines => ?_
  split
  · refine quiet_then (quiet_emit ?_) fun _ => quiet_pure _
    exact Event.quiet_info (by decide)
  · exact quiet_then (docInsertions_quiet _ _ _) fun _ => quiet_pure _

theorem propertiesAt_quiet (d : Document) (tab : String) (lines : List Nat) :
    (propertiesAt d tab lines).Quiet := by
  induction lines generalizing tab with
  | nil => exact quiet_pure _
  | cons line lines ih =>
      refine quiet_then (propertyOn?_quiet _ _) fun found => ?_
      split
      · exact quiet_then (ih _) fun _ => quiet_pure _
      · exact ih _

theorem constructorDraft_quiet (ctx : Context) (d : Document) :
    (constructorDraft ctx d).Quiet := by
  have hp (choices : List Choice) : (pickProperties ctx choices).Quiet := by
    unfold pickProperties
    split
    · exact quiet_pure _
    · exact pickChoices_quiet _ _ _
  refine quiet_then (hp _) fun picked => quiet_then (propertiesAt_quiet _ _ _) fun found => ?_
  dsimp only
  split
  · exact quiet_stop (Failure.quiet_shown (by simp))
  · split
    · exact quiet_stop (Failure.quiet_shown (by simp))
    · exact quiet_pure _

theorem skeletonDraft_quiet (ctx : Context) (d : Document) (keyword : Php.ClassKeyword) :
    (skeletonDraft ctx d keyword).Quiet := by
  have hw : (warnOfEnum ctx keyword).Quiet := by
    unfold warnOfEnum
    split
    · exact quiet_emit (Event.quiet_message (by decide) _)
    · exact quiet_pure _
  unfold skeletonDraft
  split
  · exact quiet_stop (Event.quiet_info (by decide))
  · refine quiet_then hw fun _ => ?_
    dsimp only
    split
    · exact quiet_stop (Failure.quiet_shown (by simp))
    · exact quiet_pure _

namespace Command

variable {d : Document}

theorem draft_accessors_of_isPhp (h : d.isPhp = true) (ctx : Context) (which : Accessors)
    (many : Bool) : (accessors which many).draft ctx d = accessorDraft ctx d which many :=
  if_pos h

theorem draft_doc_of_isPhp (h : d.isPhp = true) (ctx : Context) (many : Bool) :
    (doc many).draft ctx d = docDraft ctx d many :=
  if_pos h

theorem isPhp_of_draft_eq_ok {c : Command} {ctx : Context} {draft : Draft}
    (h : (c.draft ctx d).outcome = .ok draft) : d.isPhp = true := by
  unfold Command.draft at h
  split at h
  · next hphp => exact hphp
  · exact nomatch h

end Command

theorem Command.draft_quiet (c : Command) (ctx : Context) (d : Document) :
    (c.draft ctx d).Quiet := by
  unfold draft
  split
  · cases c with
    | accessors which many => exact accessorDraft_quiet ctx d which many
    | doc many => exact docDraft_quiet ctx d many
    | constructor => exact constructorDraft_quiet ctx d
    | skeleton keyword => exact skeletonDraft_quiet ctx d keyword
  · exact quiet_stop (Event.quiet_info (by decide))

end Scaffold
