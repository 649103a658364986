import Rota.Json.Basic

/-!
# Reports

* `Report`          what a module reports: its name, a kind, and a value;
* `Report.toJson`   a report as JSON.
-/

namespace Rota

structure Report where
  module : String
  kind : String
  payload : Json

def Report.toJson (r : Report) : Json :=
  .obj [("module", .str r.module), ("kind", .str r.kind), ("payload", r.payload)]

end Rota
