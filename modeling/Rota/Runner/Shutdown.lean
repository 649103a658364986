/-!
# The order to stop

One signal tells all loops to stop.  It is given once and holds for good; whoever listens sees it,
also those who begin to listen later.

* `Shutdown`            the signal and its listeners;
* `Shutdown.trigger`    gives the order;
* `Shutdown.drop`       gives the signal away: no order can come any more;
* `Shutdown.returns`    whether waiting for the order comes to an end.
-/

namespace Rota

structure Shutdown where
  isTriggered : Bool := false
  isGone : Bool := false
  listeners : Nat := 0
deriving DecidableEq, Repr

namespace Shutdown

def trigger (s : Shutdown) : Shutdown := { s with isTriggered := true }

/-- one more listener; gives its number -/
def subscribe (s : Shutdown) : Shutdown × Nat := ({ s with listeners := s.listeners + 1 }, s.listeners)

def drop (s : Shutdown) : Shutdown := { s with isGone := true }

/-- whether waiting comes to an end: the order was given, or it can never be given -/
def returns (s : Shutdown) : Bool := s.isTriggered || s.isGone

/-! ## small laws -/

end Shutdown

end Rota
