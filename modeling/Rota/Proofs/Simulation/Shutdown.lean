import Rota.Proofs.Simulation.Settling

/-!
# A session that is told to stop comes to its end

Once all tasks are told to stop nobody falls asleep any more.  Whoever is in a run ends it, after its
report is sent if it has one, and the session settles whatever the clock reads.

* `Session.Sound.isOver`    when nobody is in line or asleep, everything is over;
* `Session.ended_finish`    the sleepers wake up one time after the other;
* `Session.over_shutdown`   **at the end all loops are over and the channel is empty**.
-/

namespace Rota.Session

variable [ZoneDatabase]
variable {p : Publisher} {s : Session}

theorem Sound.quiet (h : s.Sound p []) :
    s.channel.queue = [] ∧ ∀ t ∈ s.tasks, t.isSending = false := by
  have hqueue : s.channel.queue = [] := by
    by_contra hne
    exact nomatch h.placed.queued hne
  have hgranted : s.channel.granted = [] :=
    List.eq_nil_iff_forall_not_mem.2 fun g hg => nomatch h.placed.granted g hg
  have hwaiting : s.channel.waiting = [] := by
    by_contra hne
    exact (h.placed.waiting hne).elim (fun h => h hqueue) fun h => h hgranted
  refine ⟨hqueue, fun t ht => Bool.eq_false_iff.2 fun hsending => ?_⟩
  -- whoever is about to send a report has or awaits a place, and nobody does
  obtain ⟨i, hi⟩ := List.mem_iff_getElem?.1 ht
  obtain ⟨-, r, -, -, hr⟩ := (h.faithful.sane t ht).report hsending
  have hheld := (h.faithful.places.held i r).2 ((sending_crew hi).trans hr)
  change (i, r) ∈ s.channel.granted ++ s.channel.waiting at hheld
  rw [hgranted, hwaiting] at hheld
  exact nomatch hheld

theorem Sound.isOver (h : s.Sound p []) (hsleepers : s.sleepers = []) :
    (∀ t ∈ s.tasks, t.runner.IsOver) ∧ s.channel.queue = [] := by
  obtain ⟨hqueue, hsilent⟩ := h.quiet
  refine ⟨fun t ht => ?_, hqueue⟩
  obtain ⟨i, hi⟩ := List.mem_iff_getElem?.1 ht
  rcases h.placed.somewhere i t hi with hover | hsending | hline | hasleep
  · exact hover
  · exact nomatch (hsilent t ht).symm.trans hsending
  · exact nomatch hline
  · rw [hsleepers] at hasleep
    exact nomatch hasleep

theorem ended_finish (hp : p.Steady) (fuel : Nat) (h : s.Sound p s.line) (hclosing : s.Closing)
    (hfuel : s.sleepers.length < fuel) :
    (finish fuel s).line = [] ∧ (finish fuel s).sleepers = [] := by
  induction fuel generalizing s with
  | zero => exact absurd hfuel (Nat.not_lt_zero _)
  | succ fuel ih =>
    have hkeeps := keeps_settle hp s.settleFuel h
    have hline := settled hp h hclosing.tame
    have hsleepers := hkeeps.sleepers hclosing
    have hsound := (fares_settle hp s.settleFuel h).sound
    rw [finish]
    generalize settle s.settleFuel s = s' at hkeeps hline hsleepers hsound ⊢
    split
    case h_2 hdue =>
      refine ⟨hline, ?_⟩
      rw [nextDue, List.min?_eq_none_iff] at hdue
      exact List.map_eq_nil_iff.1 hdue
    case h_1 due hdue =>
      have hwake := fares_wakeAt hsound (max s'.clock.elapsed due)
      obtain ⟨line, hwakeAt⟩ := s'.exists_wakeAt (max s'.clock.elapsed due)
      -- whoever is due first wakes up
      have hless : (s'.wakeAt (max s'.clock.elapsed due)).sleepers.length < s'.sleepers.length := by
        obtain ⟨z, hz, rfl⟩ := List.mem_map.1 (List.min?_mem hdue)
        rw [hwakeAt]
        exact List.length_filter_lt_length_iff_exists.2 ⟨z, hz, by simp⟩
      refine ih hwake.sound ?_ ?_
      · rw [hwakeAt]
        exact hkeeps.closing hclosing
      · rw [hsleepers] at hless
        exact hless.trans_le (Nat.le_of_lt_succ hfuel)

theorem closing_orderStop (s : Session) : s.orderStop.Closing := by
  obtain ⟨line, horder⟩ := s.exists_orderStop
  rw [horder]
  intro t ht
  obtain ⟨t, -, rfl⟩ := List.mem_map.1 ht
  rfl

/-- a session that is told to stop is over in the end -/
theorem over_shutdown (hp : p.Steady) (h : s.Sound p s.line) :
    (∀ t ∈ s.shutdown.tasks, t.runner.IsOver) ∧ s.shutdown.channel.queue = [] := by
  have hstop := (fares_orderStop hp h).sound
  have hend := (fares_shutdown hp h).sound
  obtain ⟨line, horder⟩ := s.exists_orderStop
  have hasleep : s.orderStop.sleepers.length < s.tasks.length + 2 := by
    have hbound : ∀ i ∈ s.orderStop.sleepers.map Sleeper.task, i < s.orderStop.tasks.length := by
      intro i hi
      obtain ⟨-, t, ht, -⟩ := hstop.placed.asleep i hi
      exact (List.getElem?_eq_some_iff.1 ht).1
    have hlength := length_le_of_bounded hstop.placed.asleepNodup hbound
    have htasks : s.orderStop.tasks.length = s.tasks.length := by
      rw [horder]
      exact List.length_map _
    rw [List.length_map, htasks] at hlength
    omega
  obtain ⟨hline, hsleepers⟩ := ended_finish hp (s.tasks.length + 2) hstop s.closing_orderStop hasleep
  rw [shutdown] at hend ⊢
  rw [hline] at hend
  exact hend.isOver hsleepers

end Rota.Session
