import Scaffold.Server.Protocol
/-!
Whole sessions: steps that come one after another, with or without an editor behind the protocol.
An editor's messages pass a gate, which opens with the first initialization and closes with the
shutdown.
-/
namespace Scaffold

inductive Phase where
  | fresh
  | ready
  | stopped
  deriving DecidableEq, Repr

structure Session where
  server : Server := {}
  files : Files := {}
  phase : Phase := .fresh
  connected : Bool := false

inductive Step where
  | start (root? : Option Uri) (options : Option Json)
  | started
  | openDocument (uri : Uri) (text : String)
  | changeDocument (uri : Uri) (texts : List String)
  | closeDocument (uri : Uri)
  | configure (settings : Json)
  | codeAction (uri : Uri) (line : Nat)
  | command (id : String) (args : List Json) (answers : Protocol.ClientAnswers)
  /-- A command with a given editor, past the gate. -/
  | run (id : String) (uri : Uri) (line? : Option Nat) (editor : Editor)
  | write (path : Path) (text? : Option String)
  | writeUserSettings (text? : Option String)
  | shutdown

inductive Reply where
  | done
  | result (value : Json)
  | refused (code : Int) (message : String)
  | ran (text? : Option String) (events : List Event)

namespace Step

def isRequest : Step → Bool
  | start .. | codeAction .. | command .. | shutdown => true
  | _ => false

def isLocal : Step → Bool
  | run .. | write .. | writeUserSettings .. => true
  | _ => false

end Step

namespace Phase

/-- Why the gate turns a step away, if it does: nothing for a step that nobody waits for. -/
def refusal : Phase → Step → Option Reply
  | fresh, .start .. => none
  | fresh, s =>
      if s.isRequest then some (.refused (-32002) "Server not initialized") else some .done
  | ready, .start .. => some (.refused (-32600) "Invalid request")
  | ready, _ => none
  | stopped, s => if s.isRequest then some (.refused (-32600) "Invalid request") else some .done

def next : Phase → Step → Phase
  | fresh, .start .. => ready
  | ready, .shutdown => stopped
  | p, _ => p

end Phase

namespace Session

def welcome (p : Project) : String :=
  "PHPForge initialized! PHP " ++ p.phpVersion ++ ", " ++ toString p.mappings.length
    ++ " PSR-4 mapping(s)"

def obey (s : Session) (id : String) (args : List Json) (answers : Protocol.ClientAnswers) :
    Session × List Outgoing :=
  match Command.ofId? id, Protocol.arguments? args with
  | some c, some a =>
      let editor :=
        if s.connected then Protocol.client a.labels? answers
        else Protocol.silent a.labels?
      let (server, _, events) := s.server.run c a.uri a.line? editor
      ({ s with server := server }, events.flatMap (Protocol.outgoing a.uri a.labels?))
  | _, _ => (s, [])

def perform (s : Session) : Step → Session × Reply × List Outgoing
  | .start root? options =>
      ({ s with server := s.server.start root? options },
        .result Protocol.greeting, [])
  | .started =>
      let server := s.server.reload s.files
      ({ s with server := server }, .done, [.log (Protocol.level .info) (welcome server.project)])
  | .openDocument uri text =>
      ({ s with server := s.server.openDocument uri text }, .done,
        [.log Protocol.logLevel ("Opened file: " ++ uri.text)])
  | .changeDocument uri texts =>
      ({ s with server := s.server.changeDocument uri texts }, .done, [])
  | .closeDocument uri => ({ s with server := s.server.closeDocument uri }, .done, [])
  | .configure settings => ({ s with server := s.server.configure settings }, .done, [])
  | .codeAction uri line =>
      let (server, commands?) := s.server.codeActions uri line
      ({ s with server := server },
        .result (Json.ofOption
          (fun cs => .array (cs.map (Protocol.actionJson uri line))) commands?), [])
  | .command id args answers =>
      let (s, sent) := s.obey id args answers
      (s, .result .null, sent)
  | .run id uri line? editor =>
      match Command.ofId? id with
      | some c =>
          let (server, text?, events) := s.server.run c uri line? editor
          ({ s with server := server }, .ran text? events, [])
      | none => (s, .ran none [], [])
  | .write path text? => ({ s with files := s.files.write path text? }, .done, [])
  | .writeUserSettings text? =>
      ({ s with files := s.files.writeUserSettings text? }, .done, [])
  | .shutdown => (s, .result .null, [])

/-- One step of a session. Nothing is sent where no editor is connected. -/
def step (s : Session) (st : Step) : Session × Reply × List Outgoing :=
  if s.connected && !st.isLocal then
    match s.phase.refusal st with
    | some reply => (s, reply, [])
    | none => { s with phase := s.phase.next st }.perform st
  else
    let (s, reply, _) := s.perform st
    (s, reply, [])

def steps (s : Session) (sts : List Step) : Session :=
  sts.foldl (fun s st => (s.step st).1) s

end Session

end Scaffold
