import Scaffold.Command.Draft
import Scaffold.Server.Files
import Scaffold.Server.Store
/-!
The state of a server and what each step does to it.
-/
namespace Scaffold

structure Layers where
  files : List Json := []
  initial : Option Json := none
  changed : Option Json := none

def Layers.all (l : Layers) : List Json :=
  l.files ++ l.initial.toList ++ l.changed.toList

structure Server where
  documents : Store String := {}
  cursors : Store Nat := {}
  root : Option Path := none
  project : Project := {}
  layers : Layers := {}
  /-- The settings in effect, as they were last worked out. -/
  settings : Settings := {}

namespace Server

def refresh (s : Server) : Server :=
  { s with settings := Settings.ofLayersOrDefault s.layers.all }

def reload (s : Server) (fs : Files) : Server :=
  refresh { s with
    project := s.root.elim s.project fs.project
    layers := { s.layers with files := fs.settingsLayers s.root } }

def inWorkspace (fs : Files) (root : Path) : Server :=
  reload { root := some root } fs

def start (s : Server) (root? : Option Uri) (options : Option Json) : Server :=
  refresh { s with
    root := root?.bind Uri.path?
    layers := { s.layers with initial := options } }

def openDocument (s : Server) (uri : Uri) (text : String) : Server :=
  { s with documents := s.documents.insert uri.text text }

/-- Only the last of several whole texts counts. -/
def changeDocument (s : Server) (uri : Uri) (texts : List String) : Server :=
  match texts.getLast? with
  | some text => { s with documents := s.documents.insert uri.text text }
  | none => s

def closeDocument (s : Server) (uri : Uri) : Server :=
  { s with
    documents := s.documents.erase uri.text
    cursors := s.cursors.erase uri.text }

/-- New settings replace earlier ones as a whole; what is no object is ignored. -/
def configure (s : Server) (settings : Json) : Server :=
  match settings with
  | .object _ => refresh { s with layers := { s.layers with changed := some settings } }
  | _ => s

def offered (document : String) (line : Nat) : List Command :=
  let content := Text.trim document
  if content = "" || content = "<?php" then
    [.plain, .abstract, .final, .interface, .trait, .enum].map Command.skeleton
  else
    let here :=
      match (Text.lines document)[line]?.bind DeclarationLine.parse? with
      | some r =>
          (if r.kind = .property then
            [.getter, .setter, .both].map (Command.accessors · false)
           else [])
          ++ (if isDocumented document line then [] else [.doc false])
      | none => []
    here ++ [.doc true, .accessors .both true, .constructor]

def codeActions (s : Server) (uri : Uri) (line : Nat) : Server × Option (List Command) :=
  match s.documents.get? uri.text with
  | some text => ({ s with cursors := s.cursors.insert uri.text line }, some (offered text line))
  | none => (s, none)

/-- An open document with its cursor: the given line, else the one remembered, else the first. -/
def document? (s : Server) (uri : Uri) (line? : Option Nat) : Option Document := do
  let text ← s.documents.get? uri.text
  pure ⟨uri, text, (line?.or (s.cursors.get? uri.text)).getD 0⟩

def run (s : Server) (c : Command) (uri : Uri) (line? : Option Nat) (editor : Editor) :
    Server × Option String × List Event :=
  match s.document? uri line? with
  | none => (s, none, [.message .info "Open a PHP document before running this command."])
  | some d =>
      match c.run ⟨editor, s.settings, s.project, s.root⟩ d with
      | (some text, events) => (s.openDocument uri text, some text, events)
      | (none, events) => (s, none, events)

end Server

end Scaffold
