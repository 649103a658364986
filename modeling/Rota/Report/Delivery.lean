import Rota.Report.Channel
import Rota.Report.Forwarder

/-!
# Delivering reports

One sender puts reports into a channel, and a forwarder takes each one out before the next one is
sent.

* `Delivery`             the channel and the forwarder;
* `Delivery.deliver`     one report;
* `Delivery.deliverAll`  a list of them, with what became of each one.

When the publisher breaks down the channel is closed, and all later reports find it so.
-/

namespace Rota

structure Delivery where
  channel : Channel
  forwarder : Forwarder := {}

namespace Delivery

/-- the forwarder takes out the first report, if there is one, and hands it over -/
def forward (d : Delivery) (p : Publisher) : Delivery :=
  match d.channel.receive? with
  | none => d
  | some (r, channel, _) =>
    let (forwarder, verdict) := d.forwarder.hand p r
    ⟨if verdict = .breakdown then channel.close.1 else channel, forwarder⟩

def deliver (d : Delivery) (p : Publisher) (r : Report) : Delivery × SendResult :=
  let (channel, result) := d.channel.send 0 r
  match result with
  | .closed => (d, .closed)
  | result => ({ d with channel := channel }.forward p, result)

def deliverAll (p : Publisher) : Delivery → List Report → Delivery × List SendResult
  | d, [] => (d, [])
  | d, r :: rs =>
    let (d, result) := d.deliver p r
    let (d, results) := deliverAll p d rs
    (d, result :: results)

end Delivery

end Rota
