import Rota.Text.Raw

/-!
# Streams

What a program reads is a stream: bytes, and what comes after them.

* `Tail`            how a stream goes on after its bytes;
* `Stream.takeOf`   the first bytes, if so many ever come;
* `Stream.flatMap`  every byte replaced.
-/

namespace Rota.Program

open Text

/-- what comes after the bytes of a stream -/
inductive Tail where
  | ends
  | repeats (text : Raw)
  /-- nothing, but the end does not come either -/
  | hangs
deriving DecidableEq, Repr

namespace Tail

def flatMap (f : Char → Raw) : Tail → Tail
  | .repeats t => if t.flatMap f = [] then .hangs else .repeats (t.flatMap f)
  | t => t

end Tail

structure Stream where
  text : Raw := []
  tail : Tail := .ends
deriving DecidableEq, Repr

namespace Stream

def cycle (t : Raw) (n : Nat) : Raw :=
  match t with
  | [] => []
  | [c] => List.replicate n c
  | c :: d :: r => ((List.replicate (n / (r.length + 2) + 1) (c :: d :: r)).flatten).take n

/-- the first `n` bytes, as many of them as come, and whether the reader waits for more in vain -/
def takeOf (s : Stream) (n : Nat) : Raw × Bool :=
  let front := s.text.take n
  let missing := n - front.length
  if missing = 0 then (front, false)
  else
    match s.tail with
    | .ends => (front, false)
    | .repeats t => (front ++ cycle t missing, false)
    | .hangs => (front, true)

def dropOf (s : Stream) (n : Nat) : Stream := { s with text := s.text.drop n }

def flatMap (s : Stream) (f : Char → Raw) : Stream := ⟨s.text.flatMap f, s.tail.flatMap f⟩

/-! ## small laws -/

end Stream

end Rota.Program
