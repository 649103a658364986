import Rota.Status.Basic

/-!
# The registry of statuses

Every module publishes its status under a name.  The registry keeps the last one, also after the
module is gone.

* `Registry.register`   a new publication under a name, in place of the old one;
* `Registry.publish`    a new status from the module that is registered under a name;
* `Registry.close`      the module will publish nothing more;
* `Registry.get?`       the last status under a name;
* `Registry.names`      the names, in order.

Names are ordered by their code points, which is the order of their bytes in UTF-8.
-/

namespace Rota

structure Publication where
  status : ModuleStatus
  isOpen : Bool := true
deriving DecidableEq

/-- publications under names, in the order of the names -/
structure Registry where
  entries : List (String × Publication) := []

namespace Registry

def insert (name : String) (p : Publication) :
    List (String × Publication) → List (String × Publication)
  | [] => [(name, p)]
  | (n, q) :: rest =>
    if n = name then (name, p) :: rest
    else if name < n then (name, p) :: (n, q) :: rest
    else (n, q) :: insert name p rest

def find? (r : Registry) (name : String) : Option Publication := r.entries.lookup name

def register (r : Registry) (name : String) (status : ModuleStatus) : Registry :=
  ⟨insert name ⟨status, true⟩ r.entries⟩

/-- publishes what `f` makes of the last status; nothing happens when the publication is closed -/
def publish (r : Registry) (name : String) (f : ModuleStatus → ModuleStatus) : Registry :=
  match r.find? name with
  | some ⟨status, true⟩ => ⟨insert name ⟨f status, true⟩ r.entries⟩
  | _ => r

def isOpen (r : Registry) (name : String) : Bool := (r.find? name).any (·.isOpen)

def close (r : Registry) (name : String) : Registry :=
  match r.find? name with
  | some p => ⟨insert name { p with isOpen := false } r.entries⟩
  | none => r

/-- the last status under a name -/
def get? (r : Registry) (name : String) : Option ModuleStatus := (r.find? name).map (·.status)

def names (r : Registry) : List String := r.entries.map (·.1)

end Registry

end Rota
