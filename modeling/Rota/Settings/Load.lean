import Rota.Settings.Layers
import Rota.Settings.Typed
import Rota.Toml.Reader

/-!
# Loading settings

* `Settings.layered`   the three layers as one value: the default file, the local file, and the
  environment, the later ones covering the earlier ones;
* `Settings.load`      the settings, loaded and checked.
-/

namespace Rota

inductive LoadFault where
  | unreadable
  | invalid (fault : SettingsFault)
deriving DecidableEq, Repr

def LoadFault.message : LoadFault → String
  | .unreadable => "Failed to load configuration"
  | .invalid fault => "Invalid configuration: " ++ fault.message

namespace Settings

def addFile (base : Toml) : Option String → Option Toml
  | none => some base
  | some text => (Toml.parse? text).map (Layers.layerOf base)

def layered (common site : Option String) (environment : List (String × String)) :
    Option Toml := do
  let base ← addFile (.table []) common
  let base ← addFile base site
  return Layers.variableLayer base environment

/-- the settings of the files and the environment -/
def load (common site : Option String) (environment : List (String × String)) :
    Except LoadFault Settings :=
  match (layered common site environment).bind ofToml? with
  | none => .error .unreadable
  | some settings =>
    match settings.fault? with
    | some fault => .error (.invalid fault)
    | none => .ok settings

end Settings

end Rota
