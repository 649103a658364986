import Rota.Report.Basic

/-!
# Forwarding reports

The forwarder takes reports out of the channel and hands each one to a publisher.

* `Publisher`          what becomes of a report, given how many were handed over before;
* `Forwarder`          the reports that were handed over, with their verdicts;
* `Forwarder.hand`     hands one more report over, `Forwarder.handAll` a list of them;
* `Forwarder.seen`     the reports that were published, in order.
-/

namespace Rota

inductive Verdict where
  | published
  | refused (reason : String)
  | breakdown
deriving DecidableEq, Repr

/-- a publisher: its verdict on a report when so many were handed over before -/
abbrev Publisher := Nat → Report → Verdict

def publishError (reason : String) : String := "Failed to publish report: " ++ reason

namespace Publisher

def all : Publisher := fun _ _ => .published

/-- the publisher that breaks down on the reports of one module, and refuses the reports whose module
or kind is among `names` -/
def refusing (names : List String) (broken : Option String) : Publisher := fun _ r =>
  if broken = some r.module then .breakdown
  else if r.module ∈ names ∨ r.kind ∈ names then .refused ("refused " ++ r.module)
  else .published

end Publisher

structure Forwarder where
  handed : List (Report × Verdict) := []

namespace Forwarder

def hand (f : Forwarder) (p : Publisher) (r : Report) : Forwarder × Verdict :=
  let v := p f.handed.length r
  (⟨f.handed ++ [(r, v)]⟩, v)

def handAll (f : Forwarder) (p : Publisher) (rs : List Report) : Forwarder :=
  rs.foldl (fun f r => (f.hand p r).1) f

def seen (f : Forwarder) : List Report :=
  (f.handed.filter fun h => h.2 = .published).map (·.1)

def published (f : Forwarder) : Nat := f.seen.length

/-! ## small laws -/

theorem handed_hand (f : Forwarder) (p : Publisher) (r : Report) :
    (f.hand p r).1.handed = f.handed ++ [(r, p f.handed.length r)] := rfl

end Forwarder

end Rota
