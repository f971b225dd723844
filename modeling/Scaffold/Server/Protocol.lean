import Scaffold.Server.State
/-!
The messages of the protocol between an editor and the server.
-/
namespace Scaffold

inductive Outgoing where
  | log (level : Nat) (text : String)
  | notice (severity : Severity) (text : String)
  | ask (placeholder : String) (labels : List String)
  | applyEdit (uri : Uri) (insertions : List Insertion)

namespace Protocol

def everyLabel : String := "All"

def level : Severity → Nat
  | .error => 1
  | .warning => 2
  | .info => 3

def logLevel : Nat := 4

/-- Lines are counted in 32 bits. -/
def lineJson (line : Nat) : Json :=
  .ofNat (line % UInt32.size)

def editJson (s : Insertion) : Json :=
  let position := Json.object [("line", lineJson s.line), ("character", .ofNat 0)]
  .object [("newText", .string s.text),
    ("range", .object [("start", position), ("end", position)])]

def outgoingJson : Outgoing → Json
  | .log level text => message "window/logMessage" [("type", .ofNat level), ("message", .string text)]
  | .notice severity text =>
      message "window/showMessage" [("type", .ofNat (level severity)), ("message", .string text)]
  | .ask placeholder labels =>
      message "window/showMessageRequest" [("type", .ofNat (level .info)),
        ("message", .string placeholder),
        ("actions", .array ((labels ++ [everyLabel]).map fun l => .object [("title", .string l)]))]
  | .applyEdit uri insertions =>
      message "workspace/applyEdit"
        [("edit", .object [("changes", .object [(uri.text, .array (insertions.map editJson))])])]
where
  message (method : String) (params : List (String × Json)) : Json :=
    .object [("method", .string method), ("params", .object params)]

def serverName : String := "PHPForge"
def serverVersion : String := "0.1.0"

def greeting : Json :=
  .object [
    ("capabilities", .object [
      ("codeActionProvider", .bool true),
      ("executeCommandProvider", .object [("commands", Json.strings Command.ids)]),
      ("textDocumentSync", .ofNat 1)]),
    ("serverInfo", .object [("name", .string serverName), ("version", .string serverVersion)])]

def actionJson (uri : Uri) (line : Nat) (c : Command) : Json :=
  .object [("title", .string c.title), ("kind", .string "refactor"),
    ("command", .object [("title", .string c.title), ("command", .string c.id),
      ("arguments", .array [.string uri.text, .ofNat line])])]

structure Arguments where
  uri : Uri
  line? : Option Nat
  labels? : Option (List String)

def arguments? (args : List Json) : Option Arguments := do
  let uri ← (← args[0]?.bind Json.string?) |> Uri.parse?
  pure ⟨uri, args[1]?.bind Json.nat?,
    (args[2]?.bind Json.items?).map fun items => items.filterMap Json.string?⟩

structure ClientAnswers where
  chosen : Option String := none
  applied : Bool := true

/-- An editor behind the protocol. Labels in a command's arguments answer for the user. -/
def client (labels? : Option (List String)) (answers : ClientAnswers) : Editor where
  choose _ labels :=
    match labels?, answers.chosen with
    | some chosen, _ => chosen
    | none, some title => if labels = [] then [] else if title = everyLabel then labels else [title]
    | none, none => []
  accepts _ := answers.applied

def silent (labels? : Option (List String)) : Editor where
  choose _ _ := labels?.getD []
  accepts _ := true

def outgoing (uri : Uri) (labels? : Option (List String)) : Event → List Outgoing
  | .pick placeholder labels =>
      if labels?.isSome || labels = [] then [] else [.ask placeholder labels]
  | .edit insertions => [.applyEdit uri insertions]
  | .message severity text => [.notice severity text]

end Protocol

end Scaffold
