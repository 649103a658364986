/-!
# Days of the week

* `Weekday`             the seven days, Sunday first;
* `Weekday.number`      their numbers, Sunday being 0, and `Weekday.ofNumber?`;
* `Weekday.name`        the full English name, in lower case;
* `Weekday.short`       the three-letter name with a capital, as descriptors show it.
-/

namespace Rota

inductive Weekday where
  | sunday
  | monday
  | tuesday
  | wednesday
  | thursday
  | friday
  | saturday
deriving DecidableEq, Repr

namespace Weekday

def all : List Weekday := [.sunday, .monday, .tuesday, .wednesday, .thursday, .friday, .saturday]

def number : Weekday → Nat
  | .sunday => 0
  | .monday => 1
  | .tuesday => 2
  | .wednesday => 3
  | .thursday => 4
  | .friday => 5
  | .saturday => 6

def ofNumber? (n : Nat) : Option Weekday := all[n]?

def name : Weekday → String
  | .sunday => "sunday"
  | .monday => "monday"
  | .tuesday => "tuesday"
  | .wednesday => "wednesday"
  | .thursday => "thursday"
  | .friday => "friday"
  | .saturday => "saturday"

def short : Weekday → String
  | .sunday => "Sun"
  | .monday => "Mon"
  | .tuesday => "Tue"
  | .wednesday => "Wed"
  | .thursday => "Thu"
  | .friday => "Fri"
  | .saturday => "Sat"

/-- the day whose name, or whose first three letters, are these (in lower case) -/
def ofName? (cs : List Char) : Option Weekday :=
  all.find? fun d => cs == d.name.toList || cs == d.name.toList.take 3

/-! ## small laws -/

theorem ofNumber?_number (d : Weekday) : ofNumber? d.number = some d := by cases d <;> rfl

theorem number_lt (d : Weekday) : d.number < 7 := by cases d <;> decide

theorem ofName?_name (d : Weekday) : ofName? d.name.toList = some d := by cases d <;> decide

theorem name_injective {a b : Weekday} (h : a.name = b.name) : a = b := by
  have := congrArg (fun s => ofName? s.toList) h
  simp only [ofName?_name, Option.some.injEq] at this
  exact this

end Weekday

end Rota
