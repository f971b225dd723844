import Scaffold.Json.Value
import Scaffold.Text.Printable
/-!
The options that generated text depends on, and how they are read from layers of JSON objects. A
later layer overrides an earlier one key by key.
-/
namespace Scaffold

structure Settings where
  functionDescription : Bool := false
  propertyDescription : Bool := false
  constantDescription : Bool := false
  linesAfterDescription : UInt64 := 0
  linesBeforeReturn : UInt64 := 0
  linesBeforeThrows : UInt64 := 0
  returnVoid : Bool := false
  throwsOnOwnLines : Bool := true
  strictTypes : Bool := true
  skeletonDoc : Bool := false
  accessorDoc : Bool := true
  fluentSetters : Bool := false
  /-- The longest signature line of a constructor, in characters. -/
  constructorLineLength : UInt64 := 120
  deriving DecidableEq, Repr

inductive SettingError where
  | wrongType (found : Json) (expected : String)
  | negative (n : Int)

def Json.described : Json → String
  | null => "null"
  | bool b => "boolean \x60" ++ (if b then "true" else "false") ++ "\x60"
  | number (.integer n) => "integer \x60" ++ toString n.value ++ "\x60"
  | number (.decimal d) => "floating point \x60" ++ d.doubleText ++ "\x60"
  | string s => "string " ++ Text.quoted s
  | array _ => "sequence"
  | object _ => "map"

def SettingError.message : SettingError → String
  | wrongType found expected =>
      "invalid option value: invalid type: " ++ found.described ++ ", expected " ++ expected
  | negative n =>
      "invalid option value: invalid value: integer \x60" ++ toString n ++ "\x60, expected usize"

structure Setting where
  key : String
  read : Json → Settings → Except SettingError Settings
  write : Settings → Json

namespace Setting

def readFlag : Json → Except SettingError Bool
  | .bool b => .ok b
  | j => .error (.wrongType j "a boolean")

def readCount : Json → Except SettingError UInt64
  | .number (.integer n) =>
      if n.value < 0 then .error (.negative n.value) else .ok (.ofNat n.value.toNat)
  | j => .error (.wrongType j "usize")

def flag (key : String) (get : Settings → Bool) (set : Bool → Settings → Settings) : Setting :=
  ⟨key, fun j s => (readFlag j).map (set · s), fun s => .bool (get s)⟩

def count (key : String) (get : Settings → UInt64) (set : UInt64 → Settings → Settings) :
    Setting :=
  ⟨key, fun j s => (readCount j).map (set · s), fun s => .ofUInt64 (get s)⟩

def all : List Setting := [
  flag "phpdoc-function-show-description" (·.functionDescription)
    fun b s => { s with functionDescription := b },
  flag "phpdoc-property-show-description" (·.propertyDescription)
    fun b s => { s with propertyDescription := b },
  flag "phpdoc-constant-show-description" (·.constantDescription)
    fun b s => { s with constantDescription := b },
  count "phpdoc-empty-lines-after-description" (·.linesAfterDescription)
    fun n s => { s with linesAfterDescription := n },
  count "phpdoc-empty-lines-before-return" (·.linesBeforeReturn)
    fun n s => { s with linesBeforeReturn := n },
  count "phpdoc-empty-lines-before-throws" (·.linesBeforeThrows)
    fun n s => { s with linesBeforeThrows := n },
  flag "phpdoc-function-return-void" (·.returnVoid) fun b s => { s with returnVoid := b },
  flag "phpdoc-show-throws-on-diff-lines" (·.throwsOnOwnLines)
    fun b s => { s with throwsOnOwnLines := b },
  flag "builder-strict-types" (·.strictTypes) fun b s => { s with strictTypes := b },
  flag "builder-generate-phpdoc" (·.skeletonDoc) fun b s => { s with skeletonDoc := b },
  flag "getter-setter-generate-phpdoc" (·.accessorDoc) fun b s => { s with accessorDoc := b },
  flag "setter-return-self" (·.fluentSetters) fun b s => { s with fluentSetters := b },
  count "constructor-args-one-line-max-length" (·.constructorLineLength)
    fun n s => { s with constructorLineLength := n }]

end Setting

namespace Settings

def toMembers (s : Settings) : List (String × Json) :=
  Setting.all.map fun o => (o.key, o.write s)

def toJson (s : Settings) : Json :=
  .object s.toMembers

/-- The options of a layer: those in its own section if it has one, else all of it. -/
def optionsOf (layer : Json) : List (String × Json) :=
  match layer with
  | .object ms =>
      match ms.lookup "phpforge" with
      | some (.object nested) => nested
      | _ => ms
  | _ => []

/-- The last value of every key, over the values that hold without any layer. -/
def merged (layers : List Json) : List (String × Json) :=
  layers.foldl
    (fun acc layer => (optionsOf layer).foldl (fun acc (k, v) => Json.setMember k v acc) acc)
    (toMembers {})

/-- Reads the options one after another; the first that cannot be read is the error. -/
def ofMembers (ms : List (String × Json)) : Except SettingError Settings :=
  Setting.all.foldlM
    (fun s o =>
      match ms.lookup o.key with
      | some j => o.read j s
      | none => .ok s)
    {}

def ofLayers (layers : List Json) : Except SettingError Settings :=
  ofMembers (merged layers)

/-- Layers that cannot be read as a whole give the settings that hold without any. -/
def ofLayersOrDefault (layers : List Json) : Settings :=
  match ofLayers layers with
  | .ok s => s
  | .error _ => {}

end Settings

end Scaffold
