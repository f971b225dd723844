import Scaffold.Json.Reader
import Scaffold.Project
import Scaffold.Toml.Reader
/-!
The files that a server reads: what a project says about itself, and settings of the user and of
the project.
-/
namespace Scaffold

structure Files where
  userSettings : Option String := none
  contents : List (Path × String) := []

namespace Files

def read? (fs : Files) (p : Path) : Option String :=
  (fs.contents.find? fun (q, _) => q.parts == p.parts).map Prod.snd

def write (fs : Files) (p : Path) (text? : Option String) : Files :=
  let rest := fs.contents.filter fun (q, _) => q.parts != p.parts
  { fs with contents := text?.elim rest fun text => (p, text) :: rest }

def writeUserSettings (fs : Files) (text? : Option String) : Files :=
  { fs with userSettings := text? }

def child (root : Path) (name : String) : Path :=
  ⟨root.bytes ++ Path.slash :: Text.encodeUtf8 name⟩

/-- The project under a directory. A file that is missing or cannot be read says nothing. -/
def project (fs : Files) (root : Path) : Project :=
  match (fs.read? (child root "composer.json")).bind Json.parse? with
  | some json => Project.ofJson json
  | none => {}

/-- The user's settings, then those of the project; a text that cannot be read is left out. -/
def settingsLayers (fs : Files) (root? : Option Path) : List Json :=
  let texts := fs.userSettings.toList
    ++ (root?.bind fun root => fs.read? (child root ".phpforge.toml")).toList
  texts.filterMap Toml.parse?

end Files

end Scaffold
