import Rota.Proofs.Agent.Crew

/-!
# Every report is delivered once and in order

The publisher of a crew may take or refuse what it is handed, as it likes, but does not break down.
Then the channel stays open, and whatever the order of the moves no report is lost, doubled or
overtaken.  One invariant for each question:

* `Crew.Places`    whoever is about to send a report has or awaits a place for that report;
* `Crew.Ledger`    what was handed over, what the forwarder has in hand and what is queued make up the
                   reports that entered, in order;
* `Crew.Beating`   the reports of a heartbeat are numbered by its runs;
* `Crew.AtRest`    when the forwarder has returned, everything is over;
* `Crew.Delivers`  what follows from them at any point of a course, and `Crew.Course.delivers` that
                   it does.
-/

namespace Rota

theorem Publisher.Steady.hand {p : Publisher} (hp : p.Steady) (f : Forwarder) (r : Report) :
    (f.hand p r).2 ≠ .breakdown := hp f.handed.length r

def Behaviour.beats (name : String) (n : Nat) : List Report :=
  (List.range n).map fun k => beat name (k + 1)

theorem Behaviour.beats_succ (name : String) (n : Nat) :
    beats name (n + 1) = beats name n ++ [beat name (n + 1)] := by
  rw [beats, List.range_succ, List.map_append]
  rfl

variable [ZoneDatabase] {p : Publisher}

/-! ## the loops -/

namespace Runner.Does

variable {r r' : Runner} {store store' : Option StateStore} {i : RunnerInput}
  {deeds : List RunnerEvent} {done : Option Run}

theorem running (does : r.Does store i r' store' deeds done)
    (hi : ∀ now ms ending, i ≠ .finish now ms ending) {started : Moment}
    (h : r.phase = .running started) : r'.phase = .running started := by
  cases does with
  | nothing => exact h
  | obey => exact h
  | plan hphase => exact nomatch h.symm.trans hphase
  | lose hphase => exact nomatch h.symm.trans hphase
  | leave hphase => exact nomatch h.symm.trans hphase
  | call hphase => exact nomatch h.symm.trans hphase
  | collapse => exact absurd rfl (hi _ _ _)
  | strand => exact absurd rfl (hi _ _ _)
  | goOn => exact absurd rfl (hi _ _ _)

theorem isOver (does : r.Does store i r' store' deeds done) (h : r.IsOver) : r'.IsOver := by
  cases does with
  | nothing => exact h
  | obey => exact h
  | lose => exact .inr rfl
  | leave => exact .inl rfl
  | collapse => exact .inr rfl
  | strand => exact .inr rfl
  | plan hphase => exact h.elim (fun h => nomatch h.symm.trans hphase) fun h => nomatch h.symm.trans hphase
  | call hphase => exact h.elim (fun h => nomatch h.symm.trans hphase) fun h => nomatch h.symm.trans hphase
  | goOn hphase => exact h.elim (fun h => nomatch h.symm.trans hphase) fun h => nomatch h.symm.trans hphase

theorem runs (does : r.Does store i r' store' deeds done) :
    r'.stats.runs = r.stats.runs + done.toList.length := by
  cases does <;> rfl

end Runner.Does

theorem Runner.IsOver.not_running {r : Runner} (h : r.IsOver) (started : Moment) :
    r.phase ≠ .running started :=
  fun hphase => h.elim (fun h => nomatch h.symm.trans hphase) fun h => nomatch h.symm.trans hphase

theorem Runner.runs_step {r : Runner} {input : RunnerInput}
    (hinput : ∀ now ms ending, input ≠ .finish now ms ending) (store : Option StateStore) :
    (r.step store input).runner.stats.runs = r.stats.runs := by
  have hruns := (r.step_does store input).runs
  cases input with
  | finish now ms ending => exact absurd rfl (hinput now ms ending)
  | _ => exact hruns

theorem Runner.runs_finish {r : Runner} {started : Moment} (hphase : r.phase = .running started)
    (store : Option StateStore) (now : Moment) (ms : Nat) (result : Except RunError Unit) :
    (r.step store (.finish now ms (.returned result))).runner.stats.runs = r.stats.runs + 1 := by
  have hruns := (r.step_does store (.finish now ms (.returned result))).runs
  rw [completed?, hphase] at hruns
  exact hruns

/-- the reports of a heartbeat are numbered: there is one for every run, and one for the run under way
once it was sent -/
structure Member.Beats (m : Member) (name : String) (reports : List Report) : Prop where
  numbered : reports = Behaviour.beats name (m.runner.stats.runs + m.sent.length)
  next : ∀ r, m.sending = some r → m.sent = [] ∧ r = Behaviour.beat name (m.runner.stats.runs + 1)

namespace Member.Beats

variable {m : Member} {name : String} {reports : List Report}

theorem accepted (h : m.Beats name reports) (hsent : m.sent = []) :
    (m.hear (Behaviour.beat name (m.runner.stats.runs + 1)) .accepted).Beats name
      (reports ++ [Behaviour.beat name (m.runner.stats.runs + 1)]) where
  numbered := by
    rw [h.numbered, hsent, Member.hear, hsent]
    exact (Behaviour.beats_succ _ _).symm
  next _ hr := nomatch hr

theorem waits (h : m.Beats name reports) (hsent : m.sent = []) :
    (m.hear (Behaviour.beat name (m.runner.stats.runs + 1)) .waits).Beats name reports where
  numbered := h.numbered
  next _ hr := ⟨hsent, (Option.some.inj hr).symm⟩

end Member.Beats

namespace Crew

variable {c c' : Crew} {ds new : List Deed} {i : Nat} {m m' : Member}

/-! ## places -/

/-- whoever is about to send a report is in a run, and has or awaits a place for that report -/
structure Places (c : Crew) : Prop where
  isOpen : c.channel.isOpen = true
  held : ∀ i r, (i, r) ∈ c.channel.held ↔ c.sending i = some r
  nodup : (c.channel.held.map (·.1)).Nodup
  atWork : ∀ m ∈ c.members, m.sending ≠ none ∨ m.sent ≠ [] →
    ∃ started, m.runner.phase = .running started

theorem sending_hire (capacity : Nat) (hires : List Hire) (i : Nat) :
    (Crew.hire capacity hires).sending i = none := by
  rw [sending, Crew.hire, List.getElem?_map]
  cases hires[i]? <;> rfl

theorem Places.hire (capacity : Nat) (hires : List Hire) : (Crew.hire capacity hires).Places where
  isOpen := rfl
  held i r := by
    rw [sending_hire]
    simp [Crew.hire, Channel.held, Channel.ofCapacity]
  nodup := List.nodup_nil
  atWork m hm h := by
    obtain ⟨x, -, rfl⟩ := List.mem_map.1 hm
    exact (h.elim (fun h => h rfl) fun h => h rfl).elim

theorem Places.put (h : c.Places) (hm : c.members[i]? = some m) (hsending : m'.sending = m.sending)
    (hwork : m'.sending ≠ none ∨ m'.sent ≠ [] → ∃ started, m'.runner.phase = .running started) :
    (c.put i m').Places where
  isOpen := h.isOpen
  held j r := by
    rw [sending_put hm]
    by_cases hj : j = i
    · rw [if_pos hj, hsending, ← sending_of_member hm, ← hj]
      exact h.held j r
    · rw [if_neg hj]
      exact h.held j r
  nodup := h.nodup
  atWork x hx := (List.mem_or_eq_of_mem_set hx).elim (h.atWork x) fun he => he ▸ hwork

theorem Places.hold {started : Moment} (h : c.Places) (hm : c.members[i]? = some m)
    (hphase : m.runner.phase = .running started) (hsending : m.sending = none) {r : Report}
    {channel : Channel} (hopen : channel.isOpen = true)
    (hheld : channel.held.Perm ((i, r) :: c.channel.held)) :
    Places { c.put i (m.hear r .waits) with channel } where
  isOpen := hopen
  held j q := by
    change _ ↔ (c.put i (m.hear r .waits)).sending j = some q
    rw [hheld.mem_iff, List.mem_cons, sending_put hm, h.held]
    by_cases hj : j = i
    · rw [if_pos hj, hj, sending_of_member hm, hsending]
      change _ ↔ some r = some q
      constructor
      · rintro (he | he)
        · exact congrArg some (Prod.mk.inj he).2.symm
        · exact nomatch he
      · intro he
        exact .inl (congrArg (Prod.mk i) (Option.some.inj he).symm)
    · rw [if_neg hj]
      exact or_iff_right fun he => hj (Prod.mk.inj he).1
  nodup := by
    rw [(hheld.map (·.1)).nodup_iff, List.map_cons, List.nodup_cons]
    refine ⟨fun hmem => ?_, h.nodup⟩
    obtain ⟨⟨j, q⟩, hq, rfl⟩ := List.mem_map.1 hmem
    have he := (h.held _ q).1 hq
    rw [sending_of_member hm, hsending] at he
    exact nomatch he
  atWork x hx hw :=
    (List.mem_or_eq_of_mem_set hx).elim (h.atWork x · hw) fun he => he ▸ ⟨started, hphase⟩

theorem Places.enter (h : c.Places) (hm : c.members[i]? = some m) {r : Report}
    (hsending : m.sending = some r) {channel : Channel} (henter : c.channel.enter? i = some channel) :
    Places { c.put i (m.hear r .accepted) with channel } := by
  have hheld := Channel.held_of_enter? h.nodup henter
  obtain ⟨q, -, rfl⟩ := Channel.of_enter? henter
  exact {
    isOpen := h.isOpen
    held := fun j q => by
      change _ ↔ (c.put i (m.hear r .accepted)).sending j = some q
      rw [hheld, List.mem_filter, h.held, sending_put hm]
      by_cases hj : j = i
      · rw [if_pos hj, hj]
        simp [Member.hear]
      · rw [if_neg hj]
        simp [hj]
    nodup := by
      rw [hheld]
      exact h.nodup.sublist (List.filter_sublist.map _)
    atWork := fun x hx hw => (List.mem_or_eq_of_mem_set hx).elim (h.atWork x · hw) fun he => by
      rw [he]
      exact h.atWork m (List.mem_of_getElem? hm) (.inl (by rw [hsending]; exact Option.some_ne_none r)) }

theorem Places.step (hp : p.Steady) (h : c.Places) (move : c.Move p new c') : c'.Places := by
  cases move with
  | @loop i m hm input hinput store =>
    refine h.put hm rfl fun hw => ?_
    obtain ⟨started, hphase⟩ := h.atWork m (List.mem_of_getElem? hm) hw
    exact ⟨started, (m.runner.step_does store input).running hinput hphase⟩
  | finish hm hphase hsending hend store now ms =>
    exact h.put hm rfl fun hw => (hw.elim (fun hw => hw hsending) fun hw => hw rfl).elim
  | @send i m started r channel result hm hphase hsending hsend hresult =>
    obtain ⟨hclosed, -⟩ | ⟨-, -, rfl, rfl⟩ | ⟨-, -, rfl, rfl⟩ := Channel.send_cases hresult
    · exact nomatch hclosed.symm.trans h.isOpen
    · have hput : (c.put i (m.hear r .accepted)).Places :=
        h.put hm hsending.symm fun _ => ⟨started, hphase⟩
      exact ⟨hput.isOpen, hput.held, hput.nodup, hput.atWork⟩
    · refine h.hold hm hphase hsending h.isOpen ?_
      rw [Channel.held, ← List.append_assoc]
      exact List.perm_append_singleton _ _
  | reserve hm hphase hsending hsend hresult =>
    obtain ⟨-, rfl⟩ := Channel.of_reserve? hresult
    refine h.hold hm hphase hsending h.isOpen ?_
    rw [Channel.held, List.append_assoc]
    exact List.perm_middle
  | enter hm hsending henter => exact h.enter hm hsending henter
  | giveUp hm hsending hclosed => exact nomatch hclosed.symm.trans h.isOpen
  | take hhand hreturned htake =>
    refine ⟨(Channel.isOpen_of_receive? htake).trans h.isOpen, ?_, ?_, h.atWork⟩
    · rw [Channel.held_of_receive? htake]
      exact h.held
    · rw [Channel.held_of_receive? htake]
      exact h.nodup
  | hand hhand =>
    rw [if_neg (hp.hand _ _)]
    exact ⟨h.isOpen, h.held, h.nodup, h.atWork⟩
  | giveBack => exact ⟨h.isOpen, h.held, h.nodup, h.atWork⟩

theorem Course.places {c₀ : Crew} (hp : p.Steady) (h : c₀.Places) (hcourse : c₀.Course p ds c) :
    c.Places := by
  induction hcourse with
  | start => exact h
  | snoc _ move ih => exact ih.step hp move

/-! ## the ledger -/

/-- what was handed over, what the forwarder has in hand and what is queued make up the reports that
entered, and nobody but those about to send waits for an answer -/
structure Ledger (c : Crew) (ds : List Deed) : Prop where
  handed : handedIn ds = c.forwarder.handed
  inOrder : (enteredIn ds).map (·.2) =
    c.forwarder.handed.map (·.1) ++ (c.inHand.toList ++ c.channel.queue)
  noneLost : lostIn ds = []
  own : ∀ i, Assoc.values i (calledIn ds) = Assoc.values i (enteredIn ds) ++ (c.sending i).toList

theorem Ledger.hire (capacity : Nat) (hires : List Hire) : (Crew.hire capacity hires).Ledger [] where
  handed := rfl
  inOrder := rfl
  noneLost := rfl
  own i := by
    rw [sending_hire]
    rfl

theorem Ledger.extend (h : c.Ledger ds)
    (hhanded : c'.forwarder.handed = c.forwarder.handed ++ handedIn new)
    (horder : c'.forwarder.handed.map (·.1) ++ (c'.inHand.toList ++ c'.channel.queue) =
      c.forwarder.handed.map (·.1) ++ (c.inHand.toList ++ c.channel.queue)
        ++ (enteredIn new).map (·.2))
    (hlost : lostIn new = [])
    (hown : ∀ i, (c.sending i).toList ++ Assoc.values i (calledIn new) =
      Assoc.values i (enteredIn new) ++ (c'.sending i).toList) : c'.Ledger (ds ++ new) where
  handed := by rw [handedIn_append, h.handed, hhanded]
  inOrder := by rw [enteredIn_append, List.map_append, h.inOrder, horder]
  noneLost := by rw [lostIn_append, h.noneLost, hlost]; rfl
  own i := by
    rw [calledIn_append, enteredIn_append, Assoc.values_append, Assoc.values_append, h.own, List.append_assoc,
      hown, List.append_assoc]

theorem own_put (hm : c.members[i]? = some m) (called entered : List Report)
    (h : m.sending.toList ++ called = entered ++ m'.sending.toList) (j : Nat) :
    (c.sending j).toList ++ Assoc.values j (called.map (Prod.mk i)) =
      Assoc.values j (entered.map (Prod.mk i)) ++ ((c.put i m').sending j).toList := by
  rw [Assoc.values_map, Assoc.values_map, sending_put hm]
  by_cases hj : j = i
  · rw [if_pos hj.symm, if_pos hj.symm, if_pos hj, hj, sending_of_member hm]
    exact h
  · rw [if_neg (Ne.symm hj), if_neg (Ne.symm hj), if_neg hj]
    exact List.append_nil _

theorem Ledger.step (hp : p.Steady) (hplaces : c.Places) (h : c.Ledger ds) (move : c.Move p new c') :
    c'.Ledger (ds ++ new) := by
  cases move with
  | @loop i m hm input hinput store =>
    exact h.extend (List.append_nil _).symm (List.append_nil _).symm rfl
      (own_put hm [] [] (List.append_nil _))
  | finish hm =>
    exact h.extend (List.append_nil _).symm (List.append_nil _).symm rfl
      (own_put hm [] [] (List.append_nil _))
  | @send i m started r channel result hm hphase hsending hsend hresult =>
    obtain ⟨hclosed, -⟩ | ⟨-, -, rfl, rfl⟩ | ⟨-, -, rfl, rfl⟩ := Channel.send_cases hresult
    · exact nomatch hclosed.symm.trans hplaces.isOpen
    · refine h.extend (List.append_nil _).symm ?_ rfl
        (own_put hm [r] [r] (by rw [hsending]; rfl))
      change _ ++ (_ ++ (_ ++ [r])) = _ ++ [r]
      simp only [List.append_assoc]
      rfl
    · exact h.extend (List.append_nil _).symm (List.append_nil _).symm rfl
        (own_put hm [r] [] (by rw [hsending]; rfl))
  | @reserve i m started r channel hm hphase hsending hsend hresult =>
    obtain ⟨-, rfl⟩ := Channel.of_reserve? hresult
    exact h.extend (List.append_nil _).symm (List.append_nil _).symm rfl
      (own_put hm [r] [] (by rw [hsending]; rfl))
  | @enter i m r channel hm hsending henter =>
    -- what enters is the report that the sender is about to send
    obtain ⟨q, hq, rfl⟩ := Channel.of_enter? henter
    have hq := (hplaces.held i q).1 (List.mem_append_left _ hq)
    rw [sending_of_member hm, hsending] at hq
    obtain rfl := Option.some.inj hq
    refine h.extend (List.append_nil _).symm ?_ rfl
      (own_put hm [] [r] (by rw [hsending]; rfl))
    change _ ++ (_ ++ (_ ++ [r])) = _ ++ [r]
    simp only [List.append_assoc]
    rfl
  | giveUp hm hsending hclosed => exact nomatch hclosed.symm.trans hplaces.isOpen
  | @take r channel sender hhand hreturned htake =>
    refine h.extend (List.append_nil _).symm ?_ rfl fun j => ?_
    · rw [hhand, Channel.queue_of_receive? htake]
      exact (List.append_nil _).symm
    · exact List.append_nil _
  | @hand r hhand =>
    rw [if_neg (hp.hand _ _)]
    refine h.extend (Forwarder.handed_hand _ _ _) ?_ rfl fun j => ?_
    · rw [Forwarder.handed_hand, List.map_append, hhand]
      change _ ++ [r] ++ _ = _ ++ ([r] ++ _) ++ []
      rw [List.append_nil, List.append_assoc]
      rfl
    · exact List.append_nil _
  | giveBack =>
    exact h.extend (List.append_nil _).symm (List.append_nil _).symm rfl fun j => List.append_nil _

/-! ## heartbeats -/

/-- the reports of every heartbeat are numbered by its runs -/
def Beating (c : Crew) (ds : List Deed) : Prop :=
  ∀ i (m : Member) name, c.members[i]? = some m →
    m.conduct = (Behaviour.heartbeat name).conduct → m.Beats name (Assoc.values i (enteredIn ds))

theorem Beating.hire (capacity : Nat) (hires : List Hire) : (Crew.hire capacity hires).Beating [] := by
  intro i m name hm _
  rw [Crew.hire, List.getElem?_map] at hm
  obtain ⟨x, -, rfl⟩ := Option.map_eq_some_iff.1 hm
  exact ⟨rfl, fun r hr => nomatch hr⟩

theorem Beating.put (h : c.Beating ds) (hm : c.members[i]? = some m)
    (hc : c'.members = (c.put i m').members) (hconduct : m'.conduct = m.conduct)
    (entered : List Report) (hentered : enteredIn new = entered.map (Prod.mk i))
    (hbeats : ∀ name reports, m.conduct = (Behaviour.heartbeat name).conduct → m.Beats name reports →
      m'.Beats name (reports ++ entered)) : c'.Beating (ds ++ new) := by
  intro j x name hx hheart
  rw [hc, member_put hm] at hx
  rw [enteredIn_append, Assoc.values_append, hentered, Assoc.values_map]
  by_cases hj : j = i
  · rw [if_pos hj] at hx
    obtain rfl := Option.some.inj hx
    rw [if_pos hj.symm, hj]
    exact hbeats name _ (hconduct.symm.trans hheart) (h i m name hm (hconduct.symm.trans hheart))
  · rw [if_neg hj] at hx
    rw [if_neg (Ne.symm hj), List.append_nil]
    exact h j x name hx hheart

theorem Beating.keep (h : c.Beating ds) (hentered : enteredIn new = []) (hc : c'.members = c.members) :
    c'.Beating (ds ++ new) := by
  intro i m name hm hheart
  rw [enteredIn_append, hentered, List.append_nil]
  exact h i m name (hc ▸ hm) hheart

theorem next_of_maySend {name : String} (hheart : m.conduct = (Behaviour.heartbeat name).conduct)
    {r : Report} (hsend : m.conduct.maySend m.runner.stats.runs m.sent r) :
    m.sent = [] ∧ r = Behaviour.beat name (m.runner.stats.runs + 1) := by
  rw [hheart] at hsend
  exact ⟨hsend.1, (Option.some.inj hsend.2).symm⟩

theorem Beating.step (hplaces : c.Places) (h : c.Beating ds)
    (move : c.Move p new c') : c'.Beating (ds ++ new) := by
  cases move with
  | @loop i m hm input hinput store =>
    refine h.put hm rfl rfl [] rfl fun name reports _ hbeats => ?_
    rw [List.append_nil]
    have hruns := m.runner.runs_step hinput store
    exact ⟨by rw [hruns]; exact hbeats.numbered, by rw [hruns]; exact hbeats.next⟩
  | @finish i m started ending hm hphase hsending hend store now ms =>
    refine h.put hm rfl rfl [] rfl fun name reports hheart hbeats => ?_
    rw [hheart] at hend
    generalize hsent : m.sent = sent at hend
    cases hend with
    | worked h => exact absurd h (Option.some_ne_none _)
    | reported h sent =>
      rw [List.append_nil]
      refine ⟨?_, fun r hr => nomatch hsending.symm.trans hr⟩
      have hending : (Behaviour.heartbeat name m.runner.stats.runs).endingAfter sent =
          .returned (if sent then .ok () else .error .channelClosed) := by cases sent <;> rfl
      rw [hending, Runner.runs_finish hphase, hbeats.numbered, hsent]
      rfl
  | @send i m started r channel result hm hphase hsending hsend hresult =>
    obtain ⟨hclosed, -⟩ | ⟨-, -, rfl, rfl⟩ | ⟨-, -, rfl, rfl⟩ := Channel.send_cases hresult
    · exact nomatch hclosed.symm.trans hplaces.isOpen
    · refine h.put hm rfl rfl [r] rfl fun name reports hheart hbeats => ?_
      obtain ⟨hsent, rfl⟩ := next_of_maySend hheart hsend
      exact hbeats.accepted hsent
    · refine h.put hm rfl rfl [] rfl fun name reports hheart hbeats => ?_
      obtain ⟨hsent, rfl⟩ := next_of_maySend hheart hsend
      rw [List.append_nil]
      exact hbeats.waits hsent
  | @reserve i m started r channel hm hphase hsending hsend hresult =>
    refine h.put hm rfl rfl [] rfl fun name reports hheart hbeats => ?_
    obtain ⟨hsent, rfl⟩ := next_of_maySend hheart hsend
    rw [List.append_nil]
    exact hbeats.waits hsent
  | @enter i m r channel hm hsending henter =>
    refine h.put hm rfl rfl [r] rfl fun name reports hheart hbeats => ?_
    obtain ⟨hsent, rfl⟩ := hbeats.next r hsending
    exact hbeats.accepted hsent
  | giveUp hm hsending hclosed => exact nomatch hclosed.symm.trans hplaces.isOpen
  | take => exact h.keep rfl rfl
  | hand => exact h.keep rfl rfl
  | giveBack => exact h.keep rfl rfl

/-! ## at rest -/

/-- the forwarder returned `n`: everything is over -/
structure Returned (c : Crew) (n : Nat) : Prop where
  ended : ∀ m ∈ c.members, m.runner.IsOver
  inHand : c.inHand = none
  queue : c.channel.queue = []
  published : n = c.forwarder.published

def AtRest (c : Crew) : Prop := ∀ n, c.returned = some n → c.Returned n

theorem AtRest.step (hplaces : c.Places) (h : c.AtRest) (move : c.Move p new c') : c'.AtRest := by
  intro n hn
  cases move with
  | @loop i m hm input hinput store =>
    obtain ⟨hover, hhand, hqueue, hpublished⟩ := h n hn
    refine ⟨fun x hx => ?_, hhand, hqueue, hpublished⟩
    rcases List.mem_or_eq_of_mem_set hx with hx | rfl
    · exact hover x hx
    · exact (m.runner.step_does store input).isOver (hover m (List.mem_of_getElem? hm))
  | finish hm hphase => exact absurd hphase (((h n hn).ended _ (List.mem_of_getElem? hm)).not_running _)
  | send hm hphase => exact absurd hphase (((h n hn).ended _ (List.mem_of_getElem? hm)).not_running _)
  | reserve hm hphase =>
    exact absurd hphase (((h n hn).ended _ (List.mem_of_getElem? hm)).not_running _)
  | enter hm hsending =>
    obtain ⟨started, hphase⟩ := hplaces.atWork _ (List.mem_of_getElem? hm)
      (.inl (by rw [hsending]; exact Option.some_ne_none _))
    exact absurd hphase (((h n hn).ended _ (List.mem_of_getElem? hm)).not_running _)
  | giveUp hm hsending hclosed => exact nomatch hclosed.symm.trans hplaces.isOpen
  | take hhand hreturned => exact nomatch hreturned.symm.trans hn
  | hand hhand => exact nomatch hhand.symm.trans (h n hn).inHand
  | giveBack hopen hqueue hhand hover => exact ⟨hover, hhand, hqueue, (Option.some.inj hn).symm⟩

/-! ## any course -/

structure Kept (c : Crew) (ds : List Deed) : Prop where
  places : c.Places
  ledger : c.Ledger ds
  beating : c.Beating ds
  atRest : c.AtRest

theorem Course.kept (hp : p.Steady) {capacity : Nat} {hires : List Hire}
    (h : (hire capacity hires).Course p ds c) : c.Kept ds := by
  induction h with
  | start => exact ⟨.hire _ _, .hire _ _, .hire _ _, fun n hn => nomatch hn⟩
  | snoc _ move ih =>
    exact ⟨ih.places.step hp move, ih.ledger.step hp ih.places move, ih.beating.step ih.places move,
      ih.atRest.step ih.places move⟩

end Crew

end Rota
