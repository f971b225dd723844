import Scaffold.Proofs.AccessorBatch
/-!
Offers agree with runs. Documentation is offered for a line exactly if it can be put there, and
accessors that are offered are made, wherever the document has a place for them. A document without
content offers neither, and has no line that declares anything.
-/
namespace Scaffold

open Dialog Text

namespace Text

theorem isBlank_or_mem_trim {s : String} {c : Char} (h : c ∈ s.toList) :
    isBlank c = true ∨ c ∈ (trim s).toList := by
  have hdrop {cs : List Char} (hc : c ∈ cs) : isBlank c = true ∨ c ∈ dropBlanks cs := by
    rw [← List.takeWhile_append_dropWhile (p := isBlank) (l := cs)] at hc
    exact (List.mem_append.mp hc).imp (List.all_eq_true.mp List.all_takeWhile c) id
  rw [trim, String.toList_ofList, dropBlanksEnd, List.mem_reverse]
  rcases hdrop h with hblank | hmem
  · exact .inl hblank
  · exact hdrop (List.mem_reverse.mpr hmem)

end Text

theorem declaredOn?_of_trim {document : String}
    (h : trim document = "" ∨ trim document = "<?php") (line : Nat) :
    declaredOn? document line = none := by
  have hchars {c : Char} (hc : c ∈ document.toList) : isBlank c || "<?php".toList.contains c := by
    rcases isBlank_or_mem_trim hc with hblank | hmem
    · rw [hblank, Bool.true_or]
    · rcases h with h | h
      · rw [h] at hmem
        exact nomatch hmem
      · rw [h] at hmem
        rw [List.contains_iff_mem.mpr hmem, Bool.or_true]
  have hkeyword : ∀ w ∈ Line.keywords,
      w.toList.all (fun c => isBlank c || "<?php".toList.contains c) = false := by
    decide
  cases hd : declaredOn? document line with
  | none => rfl
  | some declared =>
      obtain ⟨text, ht, hparse⟩ := Option.bind_eq_some_iff.mp hd
      obtain ⟨w, hw, hsub⟩ := DeclarationLine.holdsKeyword_of_parse? hparse
      have hall : w.toList.all (fun c => isBlank c || "<?php".toList.contains c) = true :=
        List.all_eq_true.mpr fun c hc =>
          hchars (mem_of_mem_lines (List.mem_of_getElem? ht) (hsub hc))
      rw [hkeyword w hw] at hall
      exact nomatch hall

namespace Server

theorem doc_mem_offered_iff {document : String} {line : Nat} :
    .doc false ∈ offered document line ↔
      (∃ declared, declaredOn? document line = some declared) ∧
        isDocumented document line = false := by
  unfold offered
  dsimp only
  split
  · next hcontent =>
      rw [declaredOn?_of_trim (by simpa using hcontent)]
      simp
  · unfold declaredOn?
    cases (lines document)[line]?.bind DeclarationLine.parse? with
    | none => simp
    | some declared => by_cases hk : declared.kind = .property <;> simp [hk]

theorem accessors_mem_offered_iff {document : String} {line : Nat} {which : Accessors} :
    .accessors which false ∈ offered document line ↔
      ∃ declared, declaredOn? document line = some declared ∧ declared.kind = .property := by
  unfold offered
  dsimp only
  split
  · next hcontent =>
      rw [declaredOn?_of_trim (by simpa using hcontent)]
      simp
  · unfold declaredOn?
    cases (lines document)[line]?.bind DeclarationLine.parse? with
    | none => simp
    | some declared => cases which <;> by_cases hk : declared.kind = .property <;> simp [hk]

def Applied (uri : Uri) (old : String) (insertions : List Insertion)
    (result : Server × Option String × List Event) : Prop :=
  Event.edits result.2.2 = [insertions] ∧
    result.2.1 = some (Insertion.applyAll old insertions) ∧
    result.1.documents.get? uri.text = result.2.1

def PlacedOrRefused (s : Server) (uri : Uri) (old : String)
    (result : Server × Option String × List Event) : Prop :=
  (∃ k text, ClosesAt old k ∧ Applied uri old [⟨k, text⟩] result) ∨
    (∀ k, ¬ ClosesAt old k) ∧ Event.edits result.2.2 = [] ∧ result.1 = s ∧ result.2.1 = none ∧
      result.2.2.getLast? = some Failure.noPlace.shown

section

variable {s : Server} {uri : Uri} {old : String} {editor : Editor} {line : Nat} {c : Command}

theorem applied_of_draft {draft : Draft} (hold : s.documents.get? uri.text = some old)
    (hd : (c.draft (s.context editor) ⟨uri, old, line⟩).outcome = .ok draft)
    (hne : draft.insertions ≠ []) (ha : editor.accepts draft.insertions = true) :
    Applied uri old draft.insertions (s.run c uri (some line) editor) := by
  have hcursor : s.cursor uri (some line) = line := rfl
  rw [run_of_get? hold, hcursor, Command.run_of_accepted hd hne ha]
  refine ⟨?_, rfl, by simp [get?_openDocument]⟩
  exact edits_around _ (c.draft_quiet _ _).events (Event.edits_messages .info draft.notices)

theorem exists_draft_of_run {ctx : Context} {d : Document} {new : String}
    (h : (c.run ctx d).1 = some new) : ∃ draft, (c.draft ctx d).outcome = .ok draft ∧
      draft.insertions ≠ [] ∧ ctx.editor.accepts draft.insertions = true := by
  have hran := c.run_ran ctx d
  generalize c.run ctx d = result at h hran
  cases hran with
  | stopped hq => exact nomatch h
  | rejected hd hne ha => exact nomatch h
  | applied hd hne ha => exact ⟨_, hd, hne, ha⟩

theorem applied_iff {insertions : List Insertion} (hold : s.documents.get? uri.text = some old)
    (ha : ∀ insertions, editor.accepts insertions = true) :
    Applied uri old insertions (s.run c uri (some line) editor) ↔
      insertions ≠ [] ∧ ∃ draft,
        (c.draft (s.context editor) ⟨uri, old, line⟩).outcome = .ok draft ∧
          draft.insertions = insertions := by
  constructor
  · intro happlied
    have hsome := happlied.2.1
    rw [run_of_get? hold] at hsome
    obtain ⟨draft, hd, hne, -⟩ := exists_draft_of_run hsome
    have hedits := (applied_of_draft hold hd hne (ha _)).1
    have hline : s.cursor uri (some line) = line := rfl
    rw [hline, happlied.1] at hedits
    obtain rfl : insertions = draft.insertions := by simpa using hedits
    exact ⟨hne, draft, hd, rfl⟩
  · rintro ⟨hne, draft, hd, rfl⟩
    exact applied_of_draft hold hd hne (ha _)

end

end Server

theorem Command.edits_run_of_error {c : Command} {ctx : Context} {d : Document} {f : Failure}
    (hd : (c.draft ctx d).outcome = .error f) : Event.edits (c.run ctx d).2 = [] := by
  have hshown : Event.edits [f.shown] = [] := rfl
  rw [run_of_error hd]
  dsimp only
  rw [Event.edits_append, Event.edits_of_quiet (c.draft_quiet ctx d).events, hshown,
    List.nil_append]

theorem outcome_docDraft_cursor (ctx : Context) (d : Document) :
    (docDraft ctx d false).outcome = .ok
      ⟨if isDocumented d.text d.cursor then [] else docOn ctx.settings d.text d.cursor, []⟩ := by
  have hchosen : (chosenLines ctx d false "Select declarations to document"
      fun _ => true).outcome = .ok [d.cursor] := rfl
  rw [outcome_docDraft hchosen]
  cases h : isDocumented d.text d.cursor <;> simp [h]

theorem outcome_accessorDraft_cursor {d : Document} {declared : DeclarationLine}
    (h : declaredOn? d.text d.cursor = some declared) (hk : declared.kind = .property)
    (ctx : Context) (which : Accessors) :
    (accessorDraft ctx d which false).outcome =
      match classEnd? d.text with
      | some line =>
          .ok ⟨[⟨line, String.join ((accessorsOn ctx which d.text d.cursor).map Prod.fst)⟩],
            (accessorsOn ctx which d.text d.cursor).map Prod.snd⟩
      | none => .error .noPlace := by
  have hchosen : (chosenLines ctx d false "Select properties" isProperty).outcome =
      .ok [d.cursor] := rfl
  have hmade : [d.cursor].flatMap (accessorsOn ctx which d.text) =
      accessorsOn ctx which d.text d.cursor := by simp
  unfold accessorDraft
  rw [if_neg (by simp [startsPropertyAt_of_declaredOn? h hk]), outcome_bind_of_ok hchosen,
    outcome_bind_of_ok (outcome_accessorTemplates _ _ _ _), hmade,
    if_neg (accessorsOn_ne_nil h hk ctx which)]
  cases classEnd? d.text <;> rfl

theorem Dialog.mem_events_bind {α β : Type} {d : Dialog α} {f : α → Dialog β} {e : Event}
    (h : e ∈ (d >>= f).events) : e ∈ d.events ∨ ∃ a, e ∈ (f a).events := by
  cases hd : d.outcome with
  | ok a =>
      rw [bind_of_ok hd] at h
      exact (List.mem_append.mp h).imp id fun hf => ⟨a, hf⟩
  | error e' =>
      rw [bind_of_error hd] at h
      exact .inl h

def Event.IsReport (e : Event) : Prop :=
  ∃ kind error, e ∈ (reportFailure kind error).events

theorem isReport_of_mem_propertyOn? {document : String} {line : Nat} {e : Event}
    (h : e ∈ (propertyOn? document line).events) : e.IsReport := by
  unfold propertyOn? at h
  split at h
  · rcases mem_events_bind h with h | ⟨_, h⟩
    · unfold propertyAt? at h
      split at h
      · exact absurd h List.not_mem_nil
      · rcases mem_events_bind h with h | ⟨_, h⟩
        · exact ⟨_, _, h⟩
        · split at h <;> exact absurd h List.not_mem_nil
    · exact absurd h List.not_mem_nil
  · exact absurd h List.not_mem_nil

theorem isReport_of_mem_accessorTemplates {ctx : Context} {d : Document} {which : Accessors}
    {lines : List Nat} {e : Event} (h : e ∈ (accessorTemplates ctx d which lines).events) :
    e.IsReport := by
  induction lines with
  | nil => exact absurd h List.not_mem_nil
  | cons line lines ih =>
      unfold accessorTemplates at h
      rcases mem_events_bind h with h | ⟨_, h⟩
      · rcases mem_events_bind h with h | ⟨_, h⟩
        · exact isReport_of_mem_propertyOn? h
        · exact absurd h List.not_mem_nil
      · rcases mem_events_bind h with h | ⟨_, h⟩
        · exact ih h
        · exact absurd h List.not_mem_nil

theorem isReport_of_mem_accessorDraft {ctx : Context} {d : Document} {which : Accessors}
    {e : Event} (h : e ∈ (accessorDraft ctx d which false).events) : e.IsReport := by
  unfold accessorDraft at h
  split at h
  · exact absurd h List.not_mem_nil
  · -- Without a choice to make, only the search for properties speaks.
    rcases mem_events_bind h with h | ⟨lines, h⟩
    · exact absurd h List.not_mem_nil
    · rcases mem_events_bind h with h | ⟨made, h⟩
      · exact isReport_of_mem_accessorTemplates h
      · split at h
        · exact absurd h List.not_mem_nil
        · split at h <;> exact absurd h List.not_mem_nil

def Event.first? : Event → Option Char
  | message _ text => text.toList.head?
  | _ => none

theorem Event.first?_message (severity : Severity) (text : String) :
    (message severity text).first? = text.toList.head? := rfl

theorem Event.IsReport.first? {e : Event} (h : e.IsReport) : e.first? = some 'F' := by
  obtain ⟨kind, error, h⟩ := h
  have he := List.mem_singleton.mp h
  rw [he, first?_message]
  refine Icon.head?_strip ?_ (by decide)
  simp only [String.toList_append, List.append_assoc]
  rfl

theorem Event.IsNotice.first? {e : Event} (h : e.IsNotice) :
    e.first? = some 'G' ∨ e.first? = some 'S' := by
  rcases h with ⟨name, rfl | rfl⟩
  · rw [first?_message]
    exact head?_of_isNotice ⟨name, .inl rfl⟩
  · rw [first?_message]
    exact head?_of_isNotice ⟨name, .inr rfl⟩

theorem Rendered.isNotice {settings : Settings} {a : String × String} (h : Rendered settings a) :
    (announcement a.2).IsNotice := by
  cases h with
  | getter p tab h => exact ⟨p.name, .inl rfl⟩
  | setter p tab className h => exact ⟨p.name, .inr rfl⟩

theorem isNotice_of_mem_announcements {ctx : Context} {which : Accessors} {document : String}
    {line : Nat} {e : Event}
    (h : e ∈ ((accessorsOn ctx which document line).map Prod.snd).map announcement) :
    e.IsNotice := by
  obtain ⟨notice, hnotice, rfl⟩ := List.mem_map.mp h
  obtain ⟨a, hmem, rfl⟩ := List.mem_map.mp hnotice
  exact (rendered_of_mem_accessorsOn hmem).isNotice

def misses : List Failure :=
  [.noTarget "No property found on the current line.", .nothingMade]

theorem shown_not_mem {f : Failure} (hf : f ∈ misses) {events : List Event}
    (h : ∀ e ∈ events, e.IsReport ∨ e.isEdit = true ∨ e.IsNotice ∨ e = Failure.noPlace.shown) :
    f.shown ∉ events := by
  have hfirst : ∀ f ∈ misses, f.shown.first? = some 'N' ∨ f.shown.first? = some 'E' := by decide
  have hplace : ∀ f ∈ misses, f.shown ≠ Failure.noPlace.shown := by decide
  intro hmem
  rcases h _ hmem with hreport | hedit | hnotice | hshown
  · rcases hfirst f hf with hc | hc <;> simp [hreport.first?] at hc
  · exact nomatch hedit
  · rcases hfirst f hf with hc | hc <;> rcases hnotice.first? with hn | hn <;> simp [hn] at hc
  · exact hplace f hf hshown

namespace Server

section

variable {s : Server} {uri : Uri} {old : String} {editor : Editor} {line : Nat}

theorem exists_applied_doc_iff (hold : s.documents.get? uri.text = some old)
    (hphp : (Document.mk uri old line).isPhp = true)
    (ha : ∀ insertions, editor.accepts insertions = true) :
    (∃ text, Applied uri old [⟨line, text⟩] (s.run (.doc false) uri (some line) editor)) ↔
      (∃ declared, declaredOn? old line = some declared) ∧ isDocumented old line = false := by
  simp only [applied_iff hold ha, Command.draft_doc_of_isPhp hphp, outcome_docDraft_cursor]
  constructor
  · rintro ⟨text, -, draft, hdraft, hinsertions⟩
    rw [← Except.ok.inj hdraft] at hinsertions
    split at hinsertions
    · exact nomatch hinsertions
    · next hnew =>
        refine ⟨?_, by simpa using hnew⟩
        cases hdeclared : declaredOn? old line with
        | none =>
            have hnil := docOn_eq_nil hdeclared s.settings
            exact absurd (hnil.symm.trans hinsertions) (by simp)
        | some declared => exact ⟨declared, rfl⟩
  · rintro ⟨⟨declared, hdeclared⟩, hnew⟩
    obtain ⟨site, -, -, hdoc⟩ := docOn_eq_singleton hdeclared s.settings
    refine ⟨site.docText old s.settings, by simp, _, rfl, ?_⟩
    rw [if_neg (by simp [hnew])]
    exact hdoc

theorem accessors_of_declared {declared : DeclarationLine}
    (hold : s.documents.get? uri.text = some old)
    (hphp : (Document.mk uri old line).isPhp = true)
    (ha : ∀ insertions, editor.accepts insertions = true)
    (hdeclared : declaredOn? old line = some declared) (hk : declared.kind = .property)
    (which : Accessors) :
    let result := s.run (.accessors which false) uri (some line) editor
    (∀ f ∈ misses, f.shown ∉ result.2.2) ∧ s.PlacedOrRefused uri old result := by
  have hcursor : s.cursor uri (some line) = line := rfl
  have hdraft := Command.draft_accessors_of_isPhp hphp (s.context editor) which false
  have houtcome := outcome_accessorDraft_cursor (d := ⟨uri, old, line⟩) hdeclared hk
    (s.context editor) which
  rw [← hdraft] at houtcome
  have hreport {e : Event} (he : e ∈ ((Command.accessors which false).draft (s.context editor)
      ⟨uri, old, line⟩).events) : e.IsReport :=
    isReport_of_mem_accessorDraft (hdraft ▸ he)
  dsimp only at houtcome ⊢
  cases hend : classEnd? old with
  | some k =>
      rw [hend] at houtcome
      have happlied := applied_of_draft hold houtcome (by simp) (ha _)
      refine ⟨fun f hf => shown_not_mem hf ?_, .inl ⟨k, _, closesAt_of_classEnd? hend, happlied⟩⟩
      rw [run_of_get? hold, hcursor, Command.run_of_accepted houtcome (by simp) (ha _)]
      intro e he
      rcases List.mem_append.mp he with he | he
      · exact .inl (hreport he)
      · rcases List.mem_cons.mp he with rfl | he
        · exact .inr (.inl rfl)
        · exact .inr (.inr (.inl (isNotice_of_mem_announcements he)))
  | none =>
      rw [hend] at houtcome
      have hedits := Command.edits_run_of_error houtcome
      rw [run_of_get? hold, hcursor]
      dsimp only
      rw [Command.run_of_error houtcome] at hedits ⊢
      refine ⟨fun f hf => shown_not_mem hf ?_, .inr ⟨not_closesAt_of_classEnd? hend, hedits, rfl,
        rfl, List.getLast?_concat⟩⟩
      intro e he
      rcases List.mem_append.mp he with he | he
      · exact .inl (hreport he)
      · exact .inr (.inr (.inr (List.mem_singleton.mp he)))

end

theorem codeActions_agree {s : Server} {uri : Uri} {old : String} {editor : Editor}
    (hold : s.documents.get? uri.text = some old) (line : Nat)
    (hphp : (Document.mk uri old line).isPhp = true)
    (ha : ∀ insertions, editor.accepts insertions = true) :
    ∃ commands, (s.codeActions uri line).2 = some commands ∧
      (.doc false ∈ commands ↔
        ∃ text, Applied uri old [⟨line, text⟩] (s.run (.doc false) uri (some line) editor)) ∧
      ∀ which, .accessors which false ∈ commands →
        let result := s.run (.accessors which false) uri (some line) editor
        (∀ f ∈ misses, f.shown ∉ result.2.2) ∧ s.PlacedOrRefused uri old result := by
  have hdoc := doc_mem_offered_iff.trans (exists_applied_doc_iff hold hphp ha).symm
  refine ⟨offered old line, ?_, hdoc, ?_⟩
  · unfold codeActions
    rw [hold]
  · intro which hmem
    obtain ⟨declared, hdeclared, hk⟩ := accessors_mem_offered_iff.mp hmem
    exact accessors_of_declared hold hphp ha hdeclared hk which

theorem codeActions_agree_sample :
    let s := openDocument {} sampleUri sampleProperties
    (s.codeActions sampleUri 3).2 = some [.accessors .getter false, .accessors .setter false,
        .accessors .both false, .doc false, .doc true, .accessors .both true, .constructor] ∧
      (∃ text, Applied sampleUri sampleProperties [⟨3, text⟩]
        (s.run (.doc false) sampleUri (some 3) sampleEditor)) ∧
      ∃ k text, ClosesAt sampleProperties k ∧ Applied sampleUri sampleProperties [⟨k, text⟩]
        (s.run (.accessors .both false) sampleUri (some 3) sampleEditor) := by
  intro s
  have hold : s.documents.get? sampleUri.text = some sampleProperties := by
    simp [s, get?_openDocument]
  have hactions : (s.codeActions sampleUri 3).2 = some [.accessors .getter false,
      .accessors .setter false, .accessors .both false, .doc false, .doc true,
      .accessors .both true, .constructor] := by
    decide +kernel
  have hcloses : ClosesAt sampleProperties 5 :=
    ⟨by decide, "\x7d", by decide +kernel, by decide⟩
  have haccepts : ∀ insertions, sampleEditor.accepts insertions = true := fun _ => rfl
  obtain ⟨commands, hcommands, hdoc, haccessors⟩ := codeActions_agree hold 3 rfl haccepts
  obtain rfl := Option.some.inj (hactions.symm.trans hcommands)
  refine ⟨hactions, hdoc.mp (by simp), ?_⟩
  rcases (haccessors .both (by simp)).2 with hplaced | hrefused
  · exact hplaced
  · exact absurd hcloses (hrefused.1 5)

end Server

end Scaffold
