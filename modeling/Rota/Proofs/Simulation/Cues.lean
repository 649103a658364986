import Rota.Proofs.Simulation.Mirror
import Rota.Proofs.Simulation.Shutdown

/-!
# A session in time, seen as an ensemble

While a session has turns to take, time stands still; then it goes on to the next time at which a task
wakes up.  An ensemble does the same millisecond by millisecond, at the cues of a script.

* `Session.Mirrors.atRest`   when nobody is in line everybody rests;
* `Session.Mirrors.wakeAt`, `.jump`, `.orderStop`   what a cue does to a session and an ensemble;
* `Ensemble.Enacts.wakeAt`   time goes on until somebody wakes up;
* `Session.InTime`           a session that an ensemble enacts, in time;
* `Session.InTime.pass`, `Session.InTime.jump`   **time passes, and the wall clock is set**;
* `Ensemble.Enacts.finish`   **all go on until the last one has stopped**.
-/

namespace Rota

/-! ## the wall clock -/

theorem SimClock.now_ne_last_iff {clock : SimClock} : clock.now ≠ Moment.last ↔
    Calendar.firstNano ≤ clock.origin.nanos + (clock.elapsed + clock.shift) * nanosPerMilli ∧
      clock.origin.nanos + (clock.elapsed + clock.shift) * nanosPerMilli < Calendar.lastNano := by
  unfold now Moment.add? Moment.ofNanos?
  split
  case isFalse h =>
    refine iff_of_false (fun h => h rfl) fun h' => h ⟨h'.1, h'.2.le⟩
  case isTrue h =>
    rw [Option.getD_some, and_iff_right h.1, lt_iff_le_and_ne, and_iff_right h.2, Ne, Ne, Moment.last]
    exact not_congr ⟨fun he => congrArg Moment.nanos he, fun he => Moment.ext_nanos he⟩

theorem SimClock.now_between {clock : SimClock} {ms k : Nat} (h : clock.now ≠ Moment.last)
    (h' : (clock.pass ms).now ≠ Moment.last) (hk : k ≤ ms) : (clock.pass k).now ≠ Moment.last := by
  rw [now_ne_last_iff] at h h' ⊢
  simp only [pass, nanosPerMilli] at h h' ⊢
  omega

open StateStore

variable [ZoneDatabase]
variable {p : Publisher} {script : Nat → Cue} {s s' : Session} {c c₀ : Ensemble} {i n : Nat} {t : Task}

/-! ## cues -/

theorem Ensemble.cue_eq {x : Cue} (h : ∀ pl : Player, pl.cue x = pl) (c : Ensemble) :
    c.cue x = { c with clock := c.clock.cue x, cues := c.cues + 1 } := by
  have hplayers : c.players.map (·.cue x) = c.players :=
    (List.map_congr_left fun pl _ => h pl).trans c.players.map_id
  rw [Ensemble.cue, hplayers]

theorem Ensemble.Course.cue (hcourse : c₀.Course p script c) (hrest : c.AtRest) {x : Cue}
    (hscript : script c.cues = x) : c₀.Course p script (c.cue x) := by
  have hmove : c.Move p script _ := .cue hrest
  rw [hscript] at hmove
  exact hcourse.snoc hmove

namespace Session

theorem wakeAt_of_late {elapsed : Nat} (h : ∀ z ∈ s.sleepers, elapsed < z.due) :
    s.wakeAt elapsed = { s with clock := { s.clock with elapsed } } := by
  have hnobody : s.sleepers.filter (fun z => decide (z.due ≤ elapsed)) = [] :=
    List.filter_eq_nil_iff.2 fun z hz => by simpa using h z hz
  have hall : s.sleepers.filter (fun z => !decide (z.due ≤ elapsed)) = s.sleepers :=
    List.filter_eq_self.2 fun z hz => by simpa using h z hz
  rw [wakeAt_eq, hnobody, hall]
  rfl

/-- told to stop, whoever waits for a slot wakes up, and nobody else does -/
theorem Awaited.stop {w : Wait} (h : Awaited s.sleepers s.clock.elapsed i t w)
    (ht : s.tasks[i]? = some t) (hs : t.Sane) :
    Awaited (s.sleepers.filter fun z => !s.isWaiting z.task) s.clock.elapsed i
      { t with runner := t.runner.stop } (if t.runner.phase = .waiting then .time 0 else w) := by
  have hwaiting : s.isWaiting i = decide (t.runner.phase = .waiting) := by
    rw [isWaiting, ht]
    rfl
  split
  case isTrue hphase =>
    refine .awake (fun hi => ?_) (hs.silent fun _ h => nomatch hphase.symm.trans h) (Nat.zero_le _)
    obtain ⟨z, hz, rfl⟩ := List.mem_map.1 hi
    have hnot := (List.mem_filter.1 hz).2
    rw [hwaiting, decide_eq_true hphase] at hnot
    exact nomatch hnot
  case isFalse hphase =>
    cases h with
    | asleep hz hi =>
      refine .asleep (List.mem_filter.2 ⟨hz, ?_⟩) hi
      rw [hi, hwaiting, decide_eq_false hphase]
      rfl
    | awake hi hsilent hdue =>
      exact .awake (fun hi' => hi ((List.filter_sublist.map _).subset hi')) hsilent hdue
    | sending hr => exact .sending hr

namespace Mirrors

theorem exists_task (h : s.Mirrors c) {pl : Player} (hpl : pl ∈ c.players) :
    ∃ i t, c.players[i]? = some pl ∧ s.tasks[i]? = some t ∧
      t.PlayedBy s.store (s.deedsOf t.runner.name) pl ∧
      Awaited s.sleepers s.clock.elapsed i t pl.wait := by
  obtain ⟨i, hi⟩ := List.mem_iff_getElem?.1 hpl
  have hlt := (List.getElem?_eq_some_iff.1 hi).1
  rw [h.length] at hlt
  have ht := List.getElem?_eq_getElem hlt
  obtain ⟨pl', hpl', hplayed, hwait⟩ := h.played i _ ht
  obtain rfl := Option.some.inj (hpl'.symm.trans hi)
  exact ⟨i, _, hi, ht, hplayed, hwait⟩

theorem atRest (h : s.Mirrors c) (hsound : s.Sound p []) : c.AtRest where
  queue := h.channel ▸ hsound.quiet.1
  inHand := h.inHand
  players pl hpl := by
    obtain ⟨i, t, -, ht, hplayed, hwait⟩ := h.exists_task hpl
    have hsilent := hsound.quiet.2 t (List.mem_of_getElem? ht)
    have hreport : t.report? = none := by rw [Task.report?, hsilent, if_neg Bool.false_ne_true]
    constructor
    · rw [Player.isReady_eq_false_iff, hplayed.runner, h.clock]
      rintro ⟨hover, due, hdue, hw⟩
      rw [hw] at hwait
      cases hwait with
      | asleep hz _ => exact absurd hdue (Nat.not_le.2 (h.late _ hz))
      | awake hawake _ _ =>
        rcases hsound.placed.somewhere i t ht with h | h | h | h
        · exact hover h
        · exact Bool.false_ne_true (hsilent.symm.trans h)
        · exact List.not_mem_nil h
        · exact hawake h
    · intro r hw
      rw [hw] at hwait
      cases hwait with
      | sending hr => exact Option.some_ne_none _ (hr.symm.trans hreport)

theorem atRest_of_over (h : s.Mirrors c) (hsane : ∀ t ∈ s.tasks, t.Sane)
    (hover : ∀ t ∈ s.tasks, t.runner.IsOver) (hqueue : s.channel.queue = []) :
    c.AtRest ∧ ∀ pl ∈ c.players, pl.runner.IsOver := by
  have hplayer : ∀ pl ∈ c.players, pl.runner.IsOver ∧ ∀ r, pl.wait ≠ .room r := by
    intro pl hpl
    obtain ⟨i, t, hi, ht, hplayed, hwait⟩ := h.exists_task hpl
    have ht := List.mem_of_getElem? ht
    refine ⟨hplayed.runner ▸ hover t ht, fun r hw => ?_⟩
    rw [hw] at hwait
    cases hwait with
    | sending hr =>
      rw [Task.report?, (hsane t ht).silent fun _ => (hover t ht).not_running _] at hr
      cases hr
  refine ⟨⟨fun pl hpl => ?_, h.channel ▸ hqueue, h.inHand⟩, fun pl hpl => (hplayer pl hpl).1⟩
  obtain ⟨hover, hwait⟩ := hplayer pl hpl
  exact ⟨pl.isReady_eq_false_iff.2 fun hready => hready.1 hover, hwait⟩

theorem wakeAt (h : s.Mirrors c) {line : List Job} (hplaced : s.Placed line) :
    (s.wakeAt (s.clock.elapsed + 1)).Mirrors (c.cue .tick) := by
  obtain ⟨line, hwake⟩ := s.exists_wakeAt (s.clock.elapsed + 1)
  rw [hwake, Ensemble.cue_eq fun _ => rfl]
  exact {
    wake := h.wake
    clock := by
      rw [h.clock]
      rfl
    store := h.store
    channel := h.channel
    forwarder := h.forwarder
    inHand := h.inHand
    length := h.length
    late := fun z hz => by simpa using (List.mem_filter.1 hz).2
    played := fun i t ht => by
      obtain ⟨pl, hpl, hplayed, hwait⟩ := h.played i t ht
      refine ⟨pl, hpl, hplayed, ?_⟩
      generalize pl.wait = w at hwait ⊢
      cases hwait with
      | sending hr => exact .sending hr
      | awake hi hsilent hdue =>
        refine .awake (fun hi' => hi ?_) hsilent (Nat.le_succ_of_le hdue)
        exact (List.filter_sublist.map _).subset hi'
      | @asleep z hz hi =>
        by_cases hdue : z.due ≤ s.clock.elapsed + 1
        · -- it wakes up now, and nobody sleeps twice
          obtain ⟨-, t', ht', hsilent⟩ := hplaced.asleep i (List.mem_map.2 ⟨z, hz, hi⟩)
          obtain rfl := Option.some.inj (ht'.symm.trans ht)
          refine .awake (fun hi' => ?_) hsilent hdue
          obtain ⟨z', hz', he⟩ := List.mem_map.1 hi'
          obtain ⟨hz', hlate⟩ := List.mem_filter.1 hz'
          have hsame := List.inj_on_of_nodup_map hplaced.asleepNodup hz' hz (he.trans hi.symm)
          rw [hsame, decide_eq_true hdue] at hlate
          exact nomatch hlate
        · exact .asleep (List.mem_filter.2 ⟨hz, by simpa using hdue⟩) hi }

theorem jump (h : s.Mirrors c) (ms : Int) : (s.jump ms).Mirrors (c.cue (.jump ms)) := by
  rw [Ensemble.cue_eq fun _ => rfl]
  refine ⟨h.wake, ?_, h.store, h.channel, h.forwarder, h.inHand, h.length, h.played, h.late⟩
  rw [h.clock]
  rfl

theorem orderStop (h : s.Mirrors c) (hsane : ∀ t ∈ s.tasks, t.Sane) :
    s.orderStop.Mirrors (c.cue .stop) := by
  obtain ⟨line, horder⟩ := s.exists_orderStop
  rw [horder]
  exact {
    wake := h.wake
    clock := h.clock
    store := h.store
    channel := h.channel
    forwarder := h.forwarder
    inHand := h.inHand
    length := by
      rw [Ensemble.cue, List.length_map, h.length]
      exact (List.length_map _).symm
    late := fun z hz => h.late z (List.mem_filter.1 hz).1
    played := fun i t' ht' => by
      change (s.tasks.map _)[i]? = some t' at ht'
      rw [List.getElem?_map, Option.map_eq_some_iff] at ht'
      obtain ⟨t, ht, rfl⟩ := ht'
      obtain ⟨pl, hpl, hplayed, hwait⟩ := h.played i t ht
      refine ⟨pl.cue .stop, by rw [Ensemble.cue, List.getElem?_map, hpl]; rfl, ?_, ?_⟩
      · exact ⟨congrArg Runner.stop hplayed.runner, hplayed.callback, hplayed.calls, hplayed.deeds,
          hplayed.begins, hplayed.since, hplayed.deal⟩
      · have hstop : (pl.cue .stop).wait =
            if t.runner.phase = .waiting then .time 0 else pl.wait := by
          rw [← hplayed.runner]
          rfl
        rw [hstop]
        exact hwait.stop ht (hsane t (List.mem_of_getElem? ht)) }

end Mirrors

/-- a session that an ensemble enacts, and whose schedules are such as are accepted -/
structure InTime (p : Publisher) (script : Nat → Cue) (c₀ : Ensemble) (s : Session) (n : Nat) :
    Prop where
  sound : s.Sound p s.line
  scheduled : s.Scheduled
  enacted : c₀.Enacts p script s n

end Session

namespace Ensemble.Enacts

open Session

/-- everybody rests and a cue is given -/
theorem cue (h : c₀.Enacts p script s n) (hsound : s.Sound p []) {x : Cue} (hscript : script n = x)
    (hcue : ∀ {c : Ensemble}, s.Mirrors c → s'.Mirrors (c.cue x)) : c₀.Enacts p script s' (n + 1) := by
  obtain ⟨c, hcourse, hmirrors, rfl⟩ := h
  exact ⟨_, hcourse.cue (hmirrors.atRest hsound) hscript, hcue hmirrors, rfl⟩

theorem wakeAt (h : c₀.Enacts p script s n) (hsound : s.Sound p []) (k : Nat)
    (hlate : ∀ z ∈ s.sleepers, s.clock.elapsed + k ≤ z.due)
    (hscript : ∀ j < k, script (n + j) = .tick) :
    c₀.Enacts p script (s.wakeAt (s.clock.elapsed + k)) (n + k) := by
  induction k with
  | zero =>
    rw [Nat.add_zero, wakeAt_of_late h.late]
    exact h
  | succ k ih =>
    have hearlier : ∀ z ∈ s.sleepers, s.clock.elapsed + k < z.due := hlate
    have hgone := ih (fun z hz => (hearlier z hz).le) fun j hj => hscript j (Nat.lt_succ_of_lt hj)
    rw [wakeAt_of_late hearlier] at hgone
    have hsound' : Sound p { s with clock := { s.clock with elapsed := s.clock.elapsed + k } } [] :=
      ⟨hsound.faithful.congr rfl rfl rfl rfl, hsound.placed.congr rfl rfl rfl⟩
    exact hgone.cue hsound' (hscript k (Nat.lt_succ_self k)) fun hmirrors =>
      hmirrors.wakeAt hsound'.placed

end Ensemble.Enacts

/-! ## time -/

namespace Session

theorem nextDue_cases (s : Session) : s.nextDue = none ∧ s.sleepers = [] ∨
    ∃ z ∈ s.sleepers, s.nextDue = some z.due ∧ ∀ z' ∈ s.sleepers, z.due ≤ z'.due := by
  cases hdue : s.nextDue with
  | none =>
    rw [nextDue, List.min?_eq_none_iff] at hdue
    exact .inl ⟨rfl, List.map_eq_nil_iff.1 hdue⟩
  | some due =>
    obtain ⟨hmem, hleast⟩ := List.min?_eq_some_iff.1 hdue
    obtain ⟨z, hz, rfl⟩ := List.mem_map.1 hmem
    exact .inr ⟨z, hz, rfl, fun z' hz' => hleast _ (List.mem_map_of_mem hz')⟩

namespace InTime

section
variable (hp : p.Steady) (htidy : c₀.Tidy)
include hp htidy

theorem settle (h : s.InTime p script c₀ n) (hnow : s.clock.now ≠ Moment.last) :
    (s.settle s.settleFuel).InTime p script c₀ n ∧ (s.settle s.settleFuel).line = [] ∧
      (s.settle s.settleFuel).clock = s.clock := by
  have hkeeps := keeps_settle hp s.settleFuel h.sound
  exact ⟨⟨(fares_settle hp _ h.sound).sound, hkeeps.scheduled h.scheduled,
    h.enacted.settle hp htidy _ h.sound⟩, settled hp h.sound (h.scheduled.tame hnow), hkeeps.clock⟩

end

theorem wakeAt (h : s.InTime p script c₀ n) (hline : s.line = []) (k : Nat)
    (hlate : ∀ z ∈ s.sleepers, s.clock.elapsed + k ≤ z.due)
    (hscript : ∀ j < k, script (n + j) = .tick) :
    (s.wakeAt (s.clock.elapsed + k)).InTime p script c₀ (n + k) where
  sound := (fares_wakeAt h.sound _).sound
  scheduled := by
    obtain ⟨line, hwake⟩ := s.exists_wakeAt (s.clock.elapsed + k)
    rw [hwake]
    exact h.scheduled
  enacted := h.enacted.wakeAt (hline ▸ h.sound) k hlate hscript

theorem runTo (hp : p.Steady) (htidy : c₀.Tidy) (fuel k : Nat) (h : s.InTime p script c₀ n)
    (hnow : ∀ j ≤ k, (s.clock.pass j).now ≠ Moment.last) (hfuel : k < fuel)
    (hscript : ∀ j < k, script (n + j) = .tick) :
    (Session.runTo (s.clock.elapsed + k) fuel s).InTime p script c₀ (n + k) ∧
      (Session.runTo (s.clock.elapsed + k) fuel s).line = [] ∧
      (Session.runTo (s.clock.elapsed + k) fuel s).clock = s.clock.pass k := by
  induction fuel generalizing s n k with
  | zero => exact absurd hfuel (Nat.not_lt_zero _)
  | succ fuel ih =>
    obtain ⟨hsettled, hline, hclock⟩ := h.settle hp htidy (hnow 0 (Nat.zero_le _))
    rw [Session.runTo]
    generalize s.settle s.settleFuel = s' at hsettled hline hclock
    rw [← hclock] at hnow ⊢
    -- if nobody wakes up in time, nothing is left to do
    have hend : (∀ z ∈ s'.sleepers, s'.clock.elapsed + k < z.due) →
        InTime p script c₀ { s' with clock := s'.clock.pass k } (n + k) ∧
          s'.line = [] ∧ s'.clock.pass k = s'.clock.pass k := by
      intro hlate
      have hgone := hsettled.wakeAt hline k (fun z hz => (hlate z hz).le) hscript
      rw [wakeAt_of_late hlate] at hgone
      exact ⟨hgone, hline, rfl⟩
    obtain ⟨hdue, hnobody⟩ | ⟨z, hz, hdue, hleast⟩ := s'.nextDue_cases
    · rw [hdue]
      exact hend (by simp [hnobody])
    · rw [hdue]
      dsimp only
      split
      case isFalse hlate =>
        exact hend fun z' hz' => Nat.lt_of_lt_of_le (Nat.not_le.1 hlate) (hleast z' hz')
      case isTrue hle =>
        have hlate := hsettled.enacted.late z hz
        obtain ⟨d, hd⟩ := Nat.exists_eq_add_of_le hlate.le
        obtain ⟨rest, rfl⟩ : ∃ rest, k = d + rest := Nat.exists_eq_add_of_le (by omega)
        rw [max_eq_right hlate.le, hd]
        have hwoken := hsettled.wakeAt hline d (fun z' hz' => hd ▸ hleast z' hz')
          fun j hj => hscript j (by omega)
        have hclock : (s'.wakeAt (s'.clock.elapsed + d)).clock = s'.clock.pass d := by
          obtain ⟨line, hwake⟩ := s'.exists_wakeAt (s'.clock.elapsed + d)
          rw [hwake]
          rfl
        have hnext := ih rest hwoken
          (fun j hj => by rw [hclock, SimClock.pass_pass]; exact hnow _ (by omega)) (by omega)
          fun j hj => by rw [Nat.add_assoc]; exact hscript _ (by omega)
        rw [hclock, SimClock.pass_pass, Nat.add_assoc] at hnext
        have htarget : (s'.clock.pass d).elapsed + rest = s'.clock.elapsed + (d + rest) :=
          Nat.add_assoc _ _ _
        rw [htarget] at hnext
        exact hnext

theorem pass (hp : p.Steady) (htidy : c₀.Tidy) (h : s.InTime p script c₀ n) {ms : Nat}
    (hnow : s.clock.now ≠ Moment.last) (hnow' : (s.clock.pass ms).now ≠ Moment.last)
    (hscript : ∀ j < ms, script (n + j) = .tick) :
    (s.pass ms).InTime p script c₀ (n + ms) ∧ (s.pass ms).line = [] ∧
      (s.pass ms).clock = s.clock.pass ms :=
  runTo hp htidy (ms + 2) ms h (fun _ hj => SimClock.now_between hnow hnow' hj) (by omega) hscript

theorem jump (h : s.InTime p script c₀ n) (hline : s.line = []) {ms : Int}
    (hscript : script n = .jump ms) : (s.jump ms).InTime p script c₀ (n + 1) where
  sound := (fares_jump h.sound ms).sound
  scheduled := h.scheduled
  enacted := h.enacted.cue (hline ▸ h.sound) hscript fun hmirrors => hmirrors.jump ms

end InTime

end Session

/-! ## the end -/

theorem Ensemble.Enacts.finish (hp : p.Steady) (htidy : c₀.Tidy) (fuel : Nat)
    (h : c₀.Enacts p script s n) (hsound : s.Sound p s.line) (hclosing : s.Closing)
    (hscript : ∀ k, script (n + k) = .tick) : ∃ n', c₀.Enacts p script (Session.finish fuel s) n' := by
  induction fuel generalizing s n with
  | zero => exact ⟨n, h⟩
  | succ fuel ih =>
    have hline := Session.settled hp hsound hclosing.tame
    have hclosing := (Session.keeps_settle hp s.settleFuel hsound).closing hclosing
    have hsettled := h.settle hp htidy s.settleFuel hsound
    have hsound := (Session.fares_settle hp s.settleFuel hsound).sound
    rw [Session.finish]
    generalize Session.settle s.settleFuel s = s' at hline hclosing hsettled hsound
    obtain ⟨hdue, -⟩ | ⟨z, hz, hdue, hleast⟩ := s'.nextDue_cases
    · rw [hdue]
      exact ⟨n, hsettled⟩
    · rw [hdue]
      obtain ⟨d, hd⟩ := Nat.exists_eq_add_of_le (hsettled.late z hz).le
      have hmax : max s'.clock.elapsed z.due = s'.clock.elapsed + d := by omega
      have hwoken := hsettled.wakeAt (hline ▸ hsound) d (fun z' hz' => hd ▸ hleast z' hz')
        fun j _ => hscript j
      dsimp only
      rw [hmax]
      refine ih hwoken (Session.fares_wakeAt hsound _).sound ?_ fun k => by
        rw [Nat.add_assoc]
        exact hscript _
      obtain ⟨line, hwake⟩ := s'.exists_wakeAt (s'.clock.elapsed + d)
      rw [hwake]
      exact hclosing

end Rota
