import Rota.Proofs.Agent.Delivery
import Rota.Proofs.Simulation.Line

/-!
# A session is a crew at work

Between two steps a session is a crew: its tasks are the members, and the forwarder has nothing in
hand.  Here each step of a session is made of moves of that crew.

* `Session.crew`       a session as a crew;
* `Session.Leads`      some course of the crew leads from one session to the other;
* `Session.Faithful`   what is needed for that;
* `Session.Faithful.silentTurn`, `.accept`, `.wait`, `.enter`, `.forward`   the steps, one after the other.
-/

namespace Rota.Session

variable [ZoneDatabase]
variable {p : Publisher} {s s' s'' : Session} {i : Nat} {t : Task}

def crew (s : Session) : Crew where
  members := s.tasks.map Task.member
  channel := s.channel
  forwarder := s.forwarder

/-- a course of the crew leads from a session to another one -/
def Leads (p : Publisher) (s s' : Session) : Prop := ∃ ds, s.crew.Course p ds s'.crew

theorem Leads.of_eq (h : s'.crew = s.crew) : Leads p s s' := ⟨[], h ▸ .start⟩

theorem Leads.trans (h : Leads p s s') (h' : Leads p s' s'') : Leads p s s'' := by
  obtain ⟨ds, hcourse⟩ := h
  obtain ⟨new, hcourse'⟩ := h'
  exact ⟨ds ++ new, hcourse.trans hcourse'⟩

/-- the books of all tasks are in order, and so are the places of those about to send a report -/
structure Faithful (p : Publisher) (s : Session) : Prop where
  publisher : s.publisher = p
  unbroken : s.isBroken = false
  sane : ∀ t ∈ s.tasks, t.Sane
  places : s.crew.Places

theorem Faithful.of_leads (hp : p.Steady) (h : s.Faithful p) (hleads : Leads p s s')
    (hpublisher : s'.publisher = s.publisher) (hbroken : s'.isBroken = s.isBroken)
    (hsane : ∀ t ∈ s'.tasks, t.Sane) : s'.Faithful p where
  publisher := hpublisher.trans h.publisher
  unbroken := hbroken.trans h.unbroken
  sane := hsane
  places := by
    obtain ⟨ds, hcourse⟩ := hleads
    exact hcourse.places hp h.places

theorem member_crew (ht : s.tasks[i]? = some t) : s.crew.members[i]? = some t.member := by
  rw [crew, List.getElem?_map, ht]
  rfl

theorem sending_crew (ht : s.tasks[i]? = some t) : s.crew.sending i = t.report? :=
  Crew.sending_of_member (member_crew ht)

theorem crew_record (s : Session) (i : Nat) (turn : TaskTurn) :
    (s.record i turn).crew = s.crew.put i turn.task.member := by
  rw [crew, record, List.map_set]
  rfl

theorem task_record (ht : s.tasks[i]? = some t) (turn : TaskTurn) :
    (s.record i turn).tasks[i]? = some turn.task := by
  rw [record, List.getElem?_set_self (List.getElem?_eq_some_iff.1 ht).1]

theorem answer_eq (ht : s.tasks[i]? = some t) (sent : Bool) :
    s.answer i sent = s.record i (t.answer s.clock s.store sent) := by
  rw [answer, ht]

theorem sane_record {turn : TaskTurn} (h : ∀ t ∈ s.tasks, t.Sane) (hturn : turn.task.Sane) :
    ∀ t ∈ (s.record i turn).tasks, t.Sane :=
  fun t ht => (List.mem_or_eq_of_mem_set ht).elim (h t) fun he => he ▸ hturn

namespace Faithful

theorem sane_of (h : s.Faithful p) (ht : s.tasks[i]? = some t) : t.Sane :=
  h.sane t (List.mem_of_getElem? ht)

theorem free_of_silent (h : s.Faithful p) (ht : s.tasks[i]? = some t) (hsilent : t.isSending = false) :
    ∀ g ∈ s.channel.held, g.1 ≠ i := by
  intro g hg he
  have hsending := (h.places.held g.1 g.2).1 hg
  rw [he, sending_crew ht, Task.report?, if_neg (by simp [hsilent])] at hsending
  cases hsending

theorem sending_of_held (h : s.Faithful p) {g : Nat × Report} (hg : g ∈ s.channel.held) :
    ∃ t, s.tasks[g.1]? = some t ∧ t.isSending = true := by
  have hsending := (h.places.held g.1 g.2).1 hg
  obtain ⟨m, hm, hr⟩ := Option.bind_eq_some_iff.1 hsending
  rw [crew, List.getElem?_map] at hm
  obtain ⟨t, ht, rfl⟩ := Option.map_eq_some_iff.1 hm
  refine ⟨t, ht, (h.sane_of ht).isSending_iff.2 ?_⟩
  change t.report? = some g.2 at hr
  rw [hr]
  exact Option.some_ne_none _

end Faithful

def letIn (s : Session) (i : Nat) (channel : Channel) : Session :=
  ({ s with channel }.call .forwarder).answer i true

theorem exists_letIn (ht : s.tasks[i]? = some t) (channel : Channel) :
    ∃ line, Joined s.line [.forwarder] line ∧
      s.letIn i channel =
        { s with channel, line }.record i (t.answer s.clock s.store true) := by
  obtain ⟨line, hcall, hjoined⟩ := exists_call { s with channel } .forwarder
  refine ⟨line, hjoined, ?_⟩
  rw [letIn, hcall]
  exact answer_eq (s := { s with channel, line }) ht true

theorem sane_letIn {started : Moment} (h : ∀ t ∈ s.tasks, t.Sane) (ht : s.tasks[i]? = some t)
    (hphase : t.runner.phase = .running started) (channel : Channel) :
    ∀ t ∈ (s.letIn i channel).tasks, t.Sane := by
  obtain ⟨line, -, hletIn⟩ := exists_letIn ht channel
  rw [hletIn]
  exact sane_record (s := { s with channel, line }) h
    ((h t (List.mem_of_getElem? ht)).ended hphase _ _ _ _)

theorem course_letIn {started : Moment} {r : Report} (ht : s.tasks[i]? = some t) (hs : t.Sane)
    (hphase : t.runner.phase = .running started) (hplan : t.plan.report? = some r) (channel : Channel) :
    Crew.Course p { s.crew.put i (t.idler.hear r .accepted) with channel } []
      (s.letIn i channel).crew := by
  obtain ⟨line, -, hletIn⟩ := exists_letIn ht channel
  have hput : (s.crew.put i (t.idler.hear r .accepted)).members[i]? =
      some (t.idler.hear r .accepted) := by rw [Crew.member_put (member_crew ht), if_pos rfl]
  have hcourse := hs.course_ended (p := p)
    (c := { s.crew.put i (t.idler.hear r .accepted) with channel }) hphase hplan hput s.store
    s.clock.now (s.clock.elapsed - t.since)
  have hcrew : (s.letIn i channel).crew =
      { s.crew.put i (t.answer s.clock s.store true).task.member with channel } := by
    rw [hletIn, crew_record]
    rfl
  rw [hcrew, Task.member_of_silent rfl]
  simp only [Crew.put, List.set_set] at hcourse ⊢
  exact hcourse

namespace Faithful

variable {turn : TaskTurn} {r : Report} {channel : Channel}

theorem course_send (h : s.Faithful p) (ht : s.tasks[i]? = some t)
    (hsilent : t.isSending = false) (htakes : t.Takes s.clock.now turn.task (.send r)) {result : SendResult}
    (hsend : s.channel.send i r = (channel, result)) :
    s.crew.Course p (.called i r :: Deed.ofSend i r result)
      { s.crew.put i (turn.task.idler.hear r result) with channel } := by
  have hm : s.crew.members[i]? = some t.idler := by
    rw [member_crew ht, Task.member_of_silent hsilent]
  obtain ⟨hturn, ⟨started, hphase⟩, hplan⟩ := htakes.sends
  rw [hturn]
  rw [(h.sane_of ht).plan_eq hphase] at hplan
  exact (Crew.Move.send (p := p) hm hphase rfl ⟨rfl, hplan⟩ hsend).course

section
variable (hp : p.Steady) (h : s.Faithful p) (ht : s.tasks[i]? = some t)
include hp h ht

theorem silentTurn (hsilent : t.isSending = false) (htakes : t.Takes s.clock.now turn.task turn.next)
    (hnext : ∀ r, turn.next ≠ .send r) :
    Leads p s (s.record i turn) ∧ (s.record i turn).Faithful p := by
  have hm : s.crew.members[i]? = some t.idler := by
    rw [member_crew ht, Task.member_of_silent hsilent]
  have hcourse := htakes.course (h.sane_of ht) hm (p := p)
  rw [← Task.member_of_silent (htakes.silent hsilent hnext), ← crew_record] at hcourse
  have hleads : Leads p s (s.record i turn) := ⟨[], hcourse⟩
  exact ⟨hleads, h.of_leads hp hleads rfl rfl (sane_record h.sane (htakes.sane (h.sane_of ht)))⟩

theorem accept (hsilent : t.isSending = false) (htakes : t.Takes s.clock.now turn.task (.send r))
    (hsend : s.channel.send i r = (channel, .accepted)) :
    Leads p s ((s.record i turn).letIn i channel) ∧
      ((s.record i turn).letIn i channel).Faithful p := by
  have hsane := htakes.sane (h.sane_of ht)
  obtain ⟨hturn, ⟨started, hphase⟩, hplan⟩ := htakes.sends
  have hrunning : turn.task.runner.phase = .running started := by rw [hturn]; exact hphase
  have hletIn := course_letIn (p := p) (task_record ht turn) hsane hrunning
    (by rw [hturn]; exact hplan) channel
  rw [crew_record, Crew.put_put] at hletIn
  have hleads : Leads p s ((s.record i turn).letIn i channel) :=
    ⟨_, (h.course_send ht hsilent htakes hsend).trans hletIn⟩
  obtain ⟨line, -, heq⟩ := exists_letIn (task_record ht turn) channel
  refine ⟨hleads, h.of_leads hp hleads (by rw [heq]; rfl) (by rw [heq]; rfl) ?_⟩
  exact sane_letIn (sane_record h.sane hsane) (task_record ht turn) hrunning channel

theorem wait (hsilent : t.isSending = false) (htakes : t.Takes s.clock.now turn.task (.send r))
    (hsend : s.channel.send i r = (channel, .waits)) :
    Leads p s { s.record i turn with channel } ∧ Faithful p { s.record i turn with channel } := by
  obtain ⟨hturn, -, hplan⟩ := htakes.sends
  have hmember : turn.task.idler.hear r .waits = turn.task.member := by
    have hreport : t.sending.report? = some r := Task.report?_of_plan rfl hplan
    rw [hturn, Task.member, hreport]
    rfl
  have hcrew : { s.record i turn with channel }.crew =
      { s.crew.put i turn.task.member with channel } := by
    rw [← crew_record]
    rfl
  have hleads : Leads p s { s.record i turn with channel } := by
    rw [Leads, hcrew, ← hmember]
    exact ⟨_, h.course_send ht hsilent htakes hsend⟩
  exact ⟨hleads, h.of_leads hp hleads rfl rfl (sane_record h.sane (htakes.sane (h.sane_of ht)))⟩

theorem enter (hsending : t.isSending = true) (henter : s.channel.enter? i = some channel) :
    Leads p s (s.letIn i channel) ∧ (s.letIn i channel).Faithful p := by
  obtain ⟨started, r, hphase, hplan, hr⟩ := (h.sane_of ht).report hsending
  have hmove := Crew.Move.enter (p := p) (member_crew ht) hr henter
  have hleads : Leads p s (s.letIn i channel) :=
    ⟨_, hmove.course.trans (course_letIn ht (h.sane_of ht) hphase hplan channel)⟩
  obtain ⟨line, -, heq⟩ := exists_letIn ht channel
  exact ⟨hleads, h.of_leads hp hleads (by rw [heq]; rfl) (by rw [heq]; rfl)
    (sane_letIn h.sane ht hphase channel)⟩

end

end Faithful

/-! ## the forwarder -/

theorem forward_eq (hp : p.Steady) (hpublisher : s.publisher = p) (r : Report) :
    ∃ events, s.forward r = { s with forwarder := (s.forwarder.hand p r).1, events } := by
  unfold forward
  rw [hpublisher]
  dsimp only
  split
  case h_1 => exact ⟨s.events, rfl⟩
  case h_2 => exact ⟨_, rfl⟩
  case h_3 hbreak => exact absurd hbreak (hp.hand _ _)

theorem Faithful.forward (hp : p.Steady) (h : s.Faithful p) {r : Report} {channel : Channel}
    {w : Option Nat} (hreceive : s.channel.receive? = some (r, channel, w)) (line : List Job) :
    Leads p s ({ s with channel, line }.forward r) ∧ ({ s with channel, line }.forward r).Faithful p := by
  obtain ⟨events, heq⟩ := forward_eq (s := { s with channel, line }) hp h.publisher r
  have htake := (Crew.Move.take (p := p) (c := s.crew) rfl rfl hreceive).course
  have hhand := htake.snoc (Crew.Move.hand rfl)
  rw [if_neg (hp.hand _ _)] at hhand
  have hleads : Leads p s ({ s with channel, line }.forward r) := by
    rw [heq]
    exact ⟨_, hhand⟩
  exact ⟨hleads, h.of_leads hp hleads (by rw [heq]) (by rw [heq]) (by rw [heq]; exact h.sane)⟩

end Rota.Session
