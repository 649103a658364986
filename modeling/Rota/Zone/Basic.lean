import Rota.Schedule.Error
import Rota.Text.Blank
import Rota.Zone.Clock

/-!
# Zones of schedules

The times of day of a schedule are read in a zone: the zone of the host, or a named one.

* `ZoneDatabase`   what is known about zones: their names, their clocks and the clock of the host;
* `Zone.parse`     the zone of a name; nothing and `local` mean the host;
* `Zone.text`      the name of a zone;
* `Zone.clock`     the clock of a zone.

The database is not part of the program, so it is a parameter here.
-/

namespace Rota

open Text

/-- texts that can name a zone: not empty, without blanks, and not `local` in any case -/
structure IsZoneName (s : String) : Prop where
  ne_empty : s.toList ≠ []
  not_blank : ∀ c ∈ s.toList, isBlank c = false
  ne_local : s.toList.map Char.toLower ≠ ['l', 'o', 'c', 'a', 'l']

/-- the zones that can be named, with their clocks, and the clock of the host -/
class ZoneDatabase where
  Named : Type
  name : Named → String
  ofName? : String → Option Named
  clock : Named → ZoneClock
  host : ZoneClock
  isZoneName : ∀ z, IsZoneName (name z)
  ofName?_name : ∀ z, ofName? (name z) = some z

section
variable [ZoneDatabase]

namespace ZoneDatabase

theorem name_injective {a b : Named} (h : name a = name b) : a = b := by
  have hread := congrArg ofName? h
  rwa [ofName?_name, ofName?_name, Option.some.injEq] at hread

instance : DecidableEq Named := fun a b =>
  decidable_of_iff (name a = name b) ⟨name_injective, congrArg name⟩

end ZoneDatabase

inductive Zone where
  | host
  | named (zone : ZoneDatabase.Named)
deriving DecidableEq

namespace Zone

/-- the zone of a name; blanks at its ends do not count, and neither does the case of `local` -/
def parse (raw : String) : Except ScheduleError Zone :=
  let cs := trim raw.toList
  if cs = [] ∨ cs.map Char.toLower = ['l', 'o', 'c', 'a', 'l'] then .ok .host
  else
    match ZoneDatabase.ofName? (String.ofList cs) with
    | some z => .ok (.named z)
    | none => .error (.invalidValue (.unknownZone (String.ofList cs)))

def text : Zone → String
  | .host => "local"
  | .named z => ZoneDatabase.name z

def clock : Zone → ZoneClock
  | .host => ZoneDatabase.host
  | .named z => ZoneDatabase.clock z

end Zone

end

end Rota
