import Scaffold.Choice
import Scaffold.Command.Basic
/-!
The lines that a command works on, and the signatures found there. A declaration that cannot be
parsed is reported, and what its line shows is used instead.
-/
namespace Scaffold

def pickChoices (ctx : Context) (placeholder : String) (choices : List Choice) :
    Dialog (List Choice) := do
  let labels ← Dialog.pick ctx.editor placeholder (choices.map Choice.label)
  match Choice.restrict choices labels with
  | [] => Dialog.stop (.noTarget "Nothing selected.")
  | picked => pure picked

def chosenLines (ctx : Context) (d : Document) (many : Bool) (placeholder : String)
    (accept : DeclarationLine → Bool) : Dialog (List Nat) := do
  if many then
    match Choice.ofDocument d.text accept with
    | [] => Dialog.stop (.noTarget "No matching declarations found.")
    | choices =>
        let picked ← pickChoices ctx placeholder choices
        pure (picked.map Choice.line)
  else pure [d.cursor]

def reportFailure (kind : String) (e : SignatureError) : Dialog Unit :=
  Dialog.say .error ("Failed to parse " ++ kind ++ ": " ++ e.message ++ ".")

/-- The property of a line; if it cannot be parsed, its name without a type. -/
def propertyAt? (s : Site) : Dialog (Option PropertySignature) := do
  match PropertySignature.ofSite s with
  | .ok p => pure (some p)
  | .error e =>
      reportFailure "property" e
      match DeclarationLine.property? s.text with
      | some (.property _ name) => pure (some ⟨name, {}⟩)
      | _ => pure none

def propertyOn? (document : String) (line : Nat) : Dialog (Option (Site × PropertySignature)) :=
  match Site.ofLine? document line with
  | some s => do
      let p? ← propertyAt? s
      pure (p?.map fun p => (s, p))
  | none => pure none

def DeclarationKind.noun : DeclarationKind → String
  | classLike => "class"
  | constant => "constant"
  | property => "property"
  | function => "function"

def DeclarationLine.signature : DeclarationLine → Signature
  | .classLike keyword name =>
      .classLike ⟨name,
        match keyword with
        | "interface" => .interface
        | "trait" => .trait
        | "enum" => .enum
        | _ => .plain⟩
  | .constant _ name => .constant ⟨name, UnionType.mixed⟩
  | .property _ name => .property ⟨name, {}⟩
  | .function name _ => .function ⟨name, [], UnionType.mixed, []⟩

def Signature.ofSite (document : String) (s : Site) :
    DeclarationKind → Except SignatureError Signature
  | .classLike => (ClassSignature.ofSite s).map .classLike
  | .constant => (ConstantSignature.ofSite s).map .constant
  | .property => (PropertySignature.ofSite s).map .property
  | .function => (FunctionSignature.ofSite document s).map .function

/-- The signature of what a line declares; if it cannot be parsed, what the line shows. -/
def signatureAt (document : String) (s : Site) (declared : DeclarationLine) :
    Dialog Signature := do
  match Signature.ofSite document s declared.kind with
  | .ok signature => pure signature
  | .error e =>
      reportFailure declared.kind.noun e
      pure declared.signature

end Scaffold
