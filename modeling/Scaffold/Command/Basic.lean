import Scaffold.Declaration.Lookup
import Scaffold.Icon
import Scaffold.Insertion
import Scaffold.Project
import Scaffold.Settings
import Scaffold.Uri
/-!
Commands, the editor that they talk to, and what they say to it.
-/
namespace Scaffold

inductive Severity where
  | info
  | warning
  | error
  deriving DecidableEq, Repr

inductive Event where
  | pick (placeholder : String) (labels : List String)
  | edit (insertions : List Insertion)
  | message (severity : Severity) (text : String)
  deriving DecidableEq, Repr

structure Editor where
  choose : String → List String → List String
  accepts : List Insertion → Bool

structure Document where
  uri : Uri
  text : String
  cursor : Nat

/-- Whatever is no file of another kind may hold PHP. -/
def Document.isPhp (d : Document) : Bool :=
  match d.uri.path?.bind Path.extension? with
  | some extension => Path.isPhp extension
  | none => true

inductive Accessors where
  | getter
  | setter
  | both
  deriving DecidableEq, Repr

namespace Accessors

def hasGetter : Accessors → Bool
  | setter => false
  | _ => true

def hasSetter : Accessors → Bool
  | getter => false
  | _ => true

def text : Accessors → String
  | getter => "getter"
  | setter => "setter"
  | both => "getter and setter"

end Accessors

/-- What can be made. `many` lets the user choose the declarations to make it for. -/
inductive Command where
  | accessors (which : Accessors) (many : Bool)
  | doc (many : Bool)
  | constructor
  | skeleton (keyword : Php.ClassKeyword)
  deriving DecidableEq, Repr

namespace Command

def table : List (String × Command) := [
  ("phpforge.insertGetter", accessors .getter false),
  ("phpforge.insertSetter", accessors .setter false),
  ("phpforge.insertGetterSetter", accessors .both false),
  ("phpforge.insertGettersMany", accessors .getter true),
  ("phpforge.insertSettersMany", accessors .setter true),
  ("phpforge.insertGettersSettersMany", accessors .both true),
  ("phpforge.generatePhpdoc", doc false),
  ("phpforge.generatePhpdocMany", doc true),
  ("phpforge.generateConstructor", constructor),
  ("phpforge.generateClass", skeleton .plain),
  ("phpforge.generateAbstractClass", skeleton .abstract),
  ("phpforge.generateFinalClass", skeleton .final),
  ("phpforge.generateInterface", skeleton .interface),
  ("phpforge.generateTrait", skeleton .trait),
  ("phpforge.generateEnum", skeleton .enum)]

def ids : List String :=
  table.map Prod.fst

def ofId? (id : String) : Option Command :=
  table.lookup id

def id (c : Command) : String :=
  ((table.find? fun (_, c') => c' == c).map Prod.fst).getD ""

def title : Command → String
  | accessors which true => "Insert " ++ which.text ++ "s for properties…"
  | accessors which false => "Insert " ++ which.text
  | doc false => "Generate PHPDoc"
  | doc true => "Generate PHPDoc for declarations…"
  | constructor => "Generate constructor…"
  | skeleton keyword => "Generate " ++ keyword.text

end Command

inductive Failure where
  | nothingMade
  | noPlace
  | noTarget (reason : String)
  | rejected
  deriving DecidableEq, Repr

namespace Failure

def cause : Failure → String
  | nothingMade => "Missing template to render"
  | noPlace => "Unable to detect insert line for template."
  | noTarget reason => reason
  | rejected => "The editor rejected the edit."

def severity : Failure → Severity
  | noTarget _ => .info
  | _ => .error

def message : Failure → String
  | noTarget reason => reason
  | e => "Error generating object: '" ++ e.cause ++ "'."

end Failure

structure Context where
  editor : Editor
  settings : Settings
  project : Project
  root : Option Path

structure Dialog (α : Type) where
  outcome : Except Failure α
  events : List Event

namespace Dialog

instance : Monad Dialog where
  pure a := ⟨.ok a, []⟩
  bind d f :=
    match d.outcome with
    | .ok a =>
        let next := f a
        ⟨next.outcome, d.events ++ next.events⟩
    | .error e => ⟨.error e, d.events⟩

def emit (e : Event) : Dialog Unit :=
  ⟨.ok (), [e]⟩

def say (severity : Severity) (text : String) : Dialog Unit :=
  emit (.message severity (Icon.strip text))

def pick (editor : Editor) (placeholder : String) (labels : List String) :
    Dialog (List String) := do
  emit (.pick placeholder labels)
  pure (editor.choose placeholder labels)

def stop {α : Type} (e : Failure) : Dialog α :=
  ⟨.error e, []⟩

variable {α β : Type}

@[simp] theorem outcome_pure (a : α) : (pure a : Dialog α).outcome = .ok a := rfl

@[simp] theorem events_pure (a : α) : (pure a : Dialog α).events = [] := rfl

@[simp] theorem outcome_stop (e : Failure) : (stop e : Dialog α).outcome = .error e := rfl

@[simp] theorem events_stop (e : Failure) : (stop e : Dialog α).events = [] := rfl

@[simp] theorem outcome_say (severity : Severity) (text : String) :
    (say severity text).outcome = .ok () := rfl

@[simp] theorem outcome_pick (editor : Editor) (placeholder : String) (labels : List String) :
    (pick editor placeholder labels).outcome = .ok (editor.choose placeholder labels) := rfl

theorem bind_of_ok {d : Dialog α} {a : α} (h : d.outcome = .ok a) (f : α → Dialog β) :
    (d >>= f) = ⟨(f a).outcome, d.events ++ (f a).events⟩ := by
  simp only [bind, h]

theorem bind_of_error {d : Dialog α} {e : Failure} (h : d.outcome = .error e)
    (f : α → Dialog β) : (d >>= f) = ⟨.error e, d.events⟩ := by
  simp only [bind, h]

end Dialog

structure Draft where
  insertions : List Insertion
  notices : List String := []

end Scaffold
