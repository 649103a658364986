import Rota.Calendar.Rfc3339
import Rota.Json.Decode

/-!
# Moments as JSON

A stamp is a text in the form of RFC 3339 (`Stamp.text`, `Stamp.read?`), and so is a moment.
-/

namespace Rota

def Stamp.toJson (s : Stamp) : Json := .str s.text

def Stamp.ofJson (j : Json) : Except Json.Fault Stamp :=
  Json.shaped (fun j => j.str?.bind Stamp.read?) j

def Moment.toJson (m : Moment) : Json := .str m.text

end Rota
