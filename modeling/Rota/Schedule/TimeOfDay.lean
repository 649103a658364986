import Rota.Schedule.Error
import Rota.Text.Blank

/-!
# Times of day

A time of day has an hour and a minute.

* `TimeOfDay.ofNumbers?`   from two numbers;
* `TimeOfDay.parse`        from a text `H:MM` or `HH:MM`;
* `TimeOfDay.text`         as `HH:MM`.
-/

namespace Rota

open Text

structure TimeOfDay where
  hour : Fin 24
  minute : Fin 60
deriving DecidableEq, Repr

namespace TimeOfDay

def ofNumbers? (hour minute : Nat) : Option TimeOfDay :=
  if h : hour < 24 ∧ minute < 60 then some ⟨⟨hour, h.1⟩, ⟨minute, h.2⟩⟩ else none

def seconds (t : TimeOfDay) : Int := (t.hour.val : Int) * 3600 + (t.minute.val : Int) * 60

/-- one or two digits of the hour, a colon, two digits of the minute -/
def ofChars? (cs : List Char) : Option TimeOfDay :=
  let hours := cs.takeWhile (· ≠ ':')
  match cs.dropWhile (· ≠ ':') with
  | [] => none
  | _ :: minutes =>
    if (hours.length = 1 ∨ hours.length = 2) ∧ hours.all Char.isDigit
        ∧ minutes.length = 2 ∧ minutes.all Char.isDigit then
      ofNumbers? (Numeral.value hours) (Numeral.value minutes)
    else none

def parse (raw : String) : Except ScheduleError TimeOfDay :=
  match ofChars? (trim raw.toList) with
  | some t => .ok t
  | none => .error (.invalidValue (.notTime raw))

def chars (t : TimeOfDay) : List Char :=
  Numeral.padded 2 t.hour.val ++ ':' :: Numeral.padded 2 t.minute.val

def text (t : TimeOfDay) : String := String.ofList t.chars

end TimeOfDay

end Rota
