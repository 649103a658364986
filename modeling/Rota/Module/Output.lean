import Rota.Text.Utf8

/-!
# Outputs

The output of a program is read piece by piece, as it comes.  Only its beginning is kept.  The rest
is read all the same, so that the program never has to wait for its reader.

* `Output`            an output that is still to be read;
* `Output.all`        all that there is to read;
* `Output.read`       one read;
* `Output.readUpTo`   reads until so many bytes are there, or the output ends;
* `Output.drain`      reads to the end and keeps nothing;
* `Output.capture`    the bytes that are kept of an output;
* `captured`          their text.
-/

namespace Rota

open Text

/-- an output that is still to be read; no piece of it is empty -/
inductive Output where
  | ended
  | broken (reason : String)
  | piece (first : UInt8) (more : List UInt8) (rest : Output)
deriving DecidableEq, Repr

def keptBytes : Nat := 65536

namespace Output

def put (bs : List UInt8) (o : Output) : Output :=
  match bs with
  | [] => o
  | b :: bs => .piece b bs o

def ofPieces (pieces : List (List UInt8)) : Output := pieces.foldr put .ended

def all : Output → Except String (List UInt8)
  | .ended => .ok []
  | .broken reason => .error reason
  | .piece b bs rest => rest.all.map (b :: bs ++ ·)

def size : Output → Nat
  | .ended => 0
  | .broken _ => 0
  | .piece _ bs rest => bs.length + 1 + rest.size

/-- one read: at most `room` bytes of the next piece, and what is still to be read after it.  Where
there is room, it finds nothing only at the end. -/
def read (room : Nat) : Output → Except String (List UInt8 × Output)
  | .ended => .ok ([], .ended)
  | .broken reason => .error reason
  | .piece b bs rest => .ok ((b :: bs).take room, put ((b :: bs).drop room) rest)

theorem size_put (bs : List UInt8) (o : Output) : (put bs o).size = bs.length + o.size := by
  cases bs with
  | nil => exact (Nat.zero_add _).symm
  | cons b bs => rfl

theorem size_of_read {room : Nat} {o rest : Output} {got : List UInt8}
    (h : o.read room = .ok (got, rest)) : got.length + rest.size = o.size := by
  cases o with
  | ended =>
    cases h
    rfl
  | broken reason => exact nomatch h
  | piece b bs o =>
    cases h
    rw [size_put, ← Nat.add_assoc, ← List.length_append, List.take_append_drop]
    rfl

def readUpTo (room : Nat) (o : Output) : Except String (List UInt8 × Output) :=
  if room = 0 then .ok ([], o)
  else
    match o.read room with
    | .error reason => .error reason
    | .ok ([], rest) => .ok ([], rest)
    | .ok (b :: bs, rest) =>
      (rest.readUpTo (room - (bs.length + 1))).map fun (cs, left) => (b :: bs ++ cs, left)
termination_by room

def drainRoom : Nat := 8192

def drain (o : Output) : Except String Nat :=
  match h : o.read drainRoom with
  | .error reason => .error reason
  | .ok ([], _) => .ok 0
  | .ok (_ :: bs, rest) => rest.drain.map (bs.length + 1 + ·)
termination_by o.size
decreasing_by
  have hsize := size_of_read h
  rw [List.length_cons] at hsize
  omega

def capture (o : Output) : Except String (List UInt8) := do
  let (kept, rest) ← o.readUpTo keptBytes
  let _ ← rest.drain
  return kept

end Output

def captured (bs : List UInt8) : String := String.ofList (Utf8.lossy (bs.take keptBytes))

end Rota
