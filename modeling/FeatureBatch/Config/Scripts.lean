import FeatureBatch.Files.FileSystem
import FeatureBatch.Log

/-!
Configuration scripts: texts that are read once, when a run is configured. One that is missing is
no error; what was read and what was not is reported as log events.
-/

namespace FeatureBatch

/-- The texts of the scripts that are there. -/
structure Scripts where
  base : Option String
  config : Option String
  configEnv : Option String
  deriving DecidableEq, Repr

namespace Scripts

def isEmpty (s : Scripts) : Bool := s.base.isNone && s.config.isNone && s.configEnv.isNone

def baseScript : String := "suite-base.js"

def configScript : String := "suite-config.js"

/-- The name of the script of an environment. -/
def envScript (env : String) : String := "suite-config-" ++ env ++ ".js"

/-- Where a script lies: below the directory, unless its name is absolute. -/
def locate (root : Path) (name : String) : Path := root.join (.ofText name)

/-- The text of a script, with the event that tells whether it was found. -/
def read (fs : FileSystem) (root : Path) (name : String) : Option String × Log :=
  let path := locate root name
  match fs.readText path with
  | .ok text => (some text, [⟨.debug, "[config] " ++ path.display⟩])
  | .error e => (none, [⟨.trace, s!"file not found: {name} - {e.message}"⟩])

/-- Reads the scripts of a directory, with that of an environment if one is given. -/
def load (fs : FileSystem) (root : Path) (env : Option String) : Scripts × Log :=
  let (base, log₁) := read fs root baseScript
  let (config, log₂) := read fs root configScript
  let (configEnv, log₃) := match env with
    | none => (none, [])
    | some env => read fs root (envScript env)
  (⟨base, config, configEnv⟩, log₁ ++ log₂ ++ log₃)

end Scripts

end FeatureBatch
