import Scaffold.Command.Target
import Scaffold.Placement
import Scaffold.Template.Accessor
import Scaffold.Template.Class
/-!
What each command makes of a document.
-/
namespace Scaffold

def isProperty (d : DeclarationLine) : Bool :=
  d.kind == .property

def noticed (template notice : String) : List (String × String) :=
  if template = "" then [] else [(template, notice)]

def accessorsOf (ctx : Context) (which : Accessors) (s : Site) (p : PropertySignature) :
    List (String × String) :=
  (if which.hasGetter then
    noticed (Template.getter p s.tab ctx.settings)
      ("Getter for property '" ++ p.name ++ "' created.")
   else [])
  ++ (if which.hasSetter then
    noticed (Template.setter p s.tab s.className ctx.settings)
      ("Setter for property '" ++ p.name ++ "' created.")
   else [])

def accessorsAt (ctx : Context) (d : Document) (which : Accessors) (line : Nat) :
    Dialog (List (String × String)) := do
  let found ← propertyOn? d.text line
  pure (found.elim [] fun (s, p) => accessorsOf ctx which s p)

def accessorTemplates (ctx : Context) (d : Document) (which : Accessors) :
    List Nat → Dialog (List (String × String))
  | [] => pure []
  | line :: lines => do
      let here ← accessorsAt ctx d which line
      let rest ← accessorTemplates ctx d which lines
      pure (here ++ rest)

def startsPropertyAt (document : String) (line : Nat) : Bool :=
  match (Text.lines document)[line]? with
  | some text => startsProperty text
  | none => false

/-- Accessors go before the closing brace of the class. -/
def accessorDraft (ctx : Context) (d : Document) (which : Accessors) (many : Bool) :
    Dialog Draft := do
  if !many && !startsPropertyAt d.text d.cursor then
    Dialog.stop (.noTarget "No property found on the current line.")
  else
    let lines ← chosenLines ctx d many "Select properties" isProperty
    let made ← accessorTemplates ctx d which lines
    if made = [] then Dialog.stop .nothingMade
    else
      match classEnd? d.text with
      | some line => pure ⟨[⟨line, String.join (made.map Prod.fst)⟩], made.map Prod.snd⟩
      | none => Dialog.stop .noPlace

def docTemplate (ctx : Context) (d : Document) (s : Site) : Dialog String := do
  match DeclarationLine.parse? s.text with
  | some declared =>
      let signature ← signatureAt d.text s declared
      let template := Template.doc signature s.tab ctx.settings
      if template = "" then
        Dialog.say .error (Failure.nothingMade.cause ++ " - in block " ++ signature.name)
      pure template
  | none =>
      Dialog.say .error (Failure.nothingMade.cause ++ " - in block ")
      pure ""

def docAt (ctx : Context) (d : Document) (line : Nat) : Dialog (List Insertion) :=
  match Site.ofLine? d.text line with
  | some s => do
      let template ← docTemplate ctx d s
      pure (if template = "" then [] else [⟨line, template⟩])
  | none => pure []

def docInsertions (ctx : Context) (d : Document) : List Nat → Dialog (List Insertion)
  | [] => pure []
  | line :: lines => do
      let here ← docAt ctx d line
      let rest ← docInsertions ctx d lines
      pure (here ++ rest)

/-- Documentation goes before the lines that it describes, unless some stands there. -/
def docDraft (ctx : Context) (d : Document) (many : Bool) : Dialog Draft := do
  let lines ← chosenLines ctx d many "Select declarations to document" fun _ => true
  match lines.filter fun line => !isDocumented d.text line with
  | [] =>
      Dialog.say .info "Phpdoc already exists"
      pure ⟨[], []⟩
  | pending =>
      let insertions ← docInsertions ctx d pending
      pure ⟨insertions, []⟩

/-- The properties on some lines, with the indentation of the last; `tab` is that before them. -/
def propertiesAt (d : Document) (tab : String) :
    List Nat → Dialog (List PropertySignature × String)
  | [] => pure ([], tab)
  | line :: lines => do
      match ← propertyOn? d.text line with
      | some (s, p) =>
          let (ps, tab) ← propertiesAt d s.tab lines
          pure (p :: ps, tab)
      | none => propertiesAt d tab lines

def pickProperties (ctx : Context) (choices : List Choice) : Dialog (List Choice) :=
  match choices with
  | [] => pure []
  | choices => pickChoices ctx "Select properties to include in the constructor" choices

/-- A constructor for the chosen properties, after the last property of the document. -/
def constructorDraft (ctx : Context) (d : Document) : Dialog Draft := do
  let choices := Choice.ofDocument d.text isProperty
  let picked ← pickProperties ctx choices
  let (properties, tab) ← propertiesAt d Template.memberTab (picked.map Choice.line)
  if picked != [] && properties = [] then Dialog.stop .nothingMade
  else
    match constructorPlace? d.text (choices.getLast?.map Choice.line) with
    | none => Dialog.stop .noPlace
    | some line =>
        let className := classNameAbove d.text line
        pure ⟨[⟨line, Template.constructor properties tab className ctx.settings⟩], []⟩

def Context.namespaceOf (ctx : Context) (path : Path) : String :=
  match ctx.root, path.parent? with
  | some root, some dir => Scaffold.namespaceOf ctx.project.mappings root dir
  | _, _ => ""

def warnOfEnum (ctx : Context) (keyword : Php.ClassKeyword) : Dialog Unit :=
  if keyword = .enum && !ctx.project.hasEnums then
    Dialog.say .warning ("Enums require PHP 8.1 or newer, but the project targets PHP "
      ++ ctx.project.phpVersion ++ ".")
  else pure ()

def skeletonDraft (ctx : Context) (d : Document) (keyword : Php.ClassKeyword) :
    Dialog Draft := do
  match d.uri.path? with
  | none => Dialog.stop (.noTarget "The active document has no file path.")
  | some path =>
      warnOfEnum ctx keyword
      let template := Template.skeleton keyword path.typeName (ctx.namespaceOf path) ctx.settings
      if template = "" then Dialog.stop .nothingMade else pure ⟨[⟨0, template⟩], []⟩

namespace Command

def draft (c : Command) (ctx : Context) (d : Document) : Dialog Draft := do
  if d.isPhp then
    match c with
    | accessors which many => accessorDraft ctx d which many
    | doc many => docDraft ctx d many
    | constructor => constructorDraft ctx d
    | skeleton keyword => skeletonDraft ctx d keyword
  else Dialog.stop (.noTarget "The active document is not a PHP file.")

def submit (ctx : Context) (d : Document) (draft : Draft) : Dialog (Option String) := do
  if draft.insertions = [] then pure none
  else
    Dialog.emit (.edit draft.insertions)
    if ctx.editor.accepts draft.insertions then
      draft.notices.forM (Dialog.say .info)
      pure (some (Insertion.applyAll d.text draft.insertions))
    else Dialog.stop .rejected

def run (c : Command) (ctx : Context) (d : Document) : Option String × List Event :=
  let dialog : Dialog (Option String) := do
    let made ← c.draft ctx d
    submit ctx d made
  match dialog.outcome with
  | .ok text? => (text?, dialog.events)
  | .error e => (none, dialog.events ++ [.message e.severity (Icon.strip e.message)])

end Command

end Scaffold
