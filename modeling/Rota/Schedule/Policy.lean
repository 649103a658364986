/-!
# Policies

A schedule follows one of four policies.

* `Policy.weekly`          on a weekday at a time, every so many weeks;
* `Policy.monthly`         on a day of the month at a time, every so many months;
* `Policy.dailyTime`       every day at a time;
* `Policy.plainInterval`   after every so many seconds.
-/

namespace Rota

inductive Policy where
  | weekly
  | monthly
  | dailyTime
  | plainInterval
deriving DecidableEq, Repr

/-- the name of the policy, as status answers and fingerprints write it -/
def Policy.name : Policy → String
  | .weekly => "weekly"
  | .monthly => "monthly"
  | .dailyTime => "daily_time"
  | .plainInterval => "plain_interval"

end Rota
