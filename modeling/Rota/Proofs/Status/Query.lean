import Rota.Proofs.Agent.Validation
import Rota.Status.Query

/-!
# Questions about a module

A question is taken apart at its blanks, so a name is asked for in one piece only if it holds none.
Settings let names have blanks inside.

* `Text.words_append`, `Text.not_blank_of_mem_words`   the words of a text;
* `Topic.request`            the question about a name;
* `Registry.query_request`   it is a question about the first word of the name;
* `Registry.Labelled`        what is kept under a name carries that name;
* `Registry.Later`           what becomes of a registry while its modules publish and end;
* `Registry.AnswersFor`      all questions about a name are answered with what is kept under it;
* `answersFor_iff`           **in an agent that is so exactly for the names without a blank**.
-/

namespace Rota

open Text

/-! ## words -/

namespace Text

theorem forall_not_blank {w : List Char} (h : w.all (isBlank · == false) = true) :
    ∀ c ∈ w, isBlank c = false := fun c hc => beq_iff_eq.1 (List.all_eq_true.1 h c hc)

theorem words_cons_of_blank {c : Char} (h : isBlank c = true) (cs : List Char) :
    words (c :: cs) = words cs := by
  cases cs with
  | nil => simp only [words, if_pos h]
  | cons d cs => rw [words, if_pos h]

theorem words_append {w rest : List Char} (hne : w ≠ []) (hw : ∀ c ∈ w, isBlank c = false)
    (hrest : ∀ c ∈ rest.head?, isBlank c = true) : words (w ++ rest) = w :: words rest := by
  induction w with
  | nil => exact absurd rfl hne
  | cons c w ih =>
    have hc : ¬ isBlank c = true := by simp [hw c List.mem_cons_self]
    cases w with
    | nil =>
      cases rest with
      | nil =>
        show words [c] = [c] :: words []
        simp only [words, if_neg hc]
      | cons d rest =>
        show words (c :: d :: rest) = _
        rw [words, if_neg hc, if_pos (hrest d rfl)]
    | cons d w =>
      have hd : ¬ isBlank d = true := by simp [hw d (List.mem_cons_of_mem _ List.mem_cons_self)]
      have htail := ih (List.cons_ne_nil d w) fun e he => hw e (List.mem_cons_of_mem _ he)
      rw [List.cons_append] at htail
      rw [List.cons_append, List.cons_append, words, if_neg hc, if_neg hd, htail]

theorem words_eq_singleton {w : List Char} (hne : w ≠ []) (hw : ∀ c ∈ w, isBlank c = false) :
    words w = [w] := by
  have h : words (w ++ []) = w :: words [] := words_append hne hw nofun
  rwa [List.append_nil] at h

theorem not_blank_of_mem_words {w cs : List Char} (hw : w ∈ words cs) :
    ∀ c ∈ w, isBlank c = false := by
  induction cs using words.induct generalizing w with
  | case1 => exact (List.not_mem_nil hw).elim
  | case2 c h =>
    rw [words, if_pos h] at hw
    exact (List.not_mem_nil hw).elim
  | case3 c h =>
    rw [words, if_neg h, List.mem_singleton] at hw
    subst hw
    simpa using h
  | case4 c d cs h ih =>
    rw [words, if_pos h] at hw
    exact ih hw
  | case5 c d cs h hd ih =>
    rw [words, if_neg h, if_pos hd] at hw
    rcases List.mem_cons.1 hw with rfl | hw
    · simpa using h
    · exact ih hw
  | case6 c d cs h hd hnil ih =>
    rw [words, if_neg h, if_neg hd, hnil, List.mem_singleton] at hw
    subst hw
    simpa using h
  | case7 c d cs h hd w' ws heq ih =>
    rw [words, if_neg h, if_neg hd, heq] at hw
    rcases List.mem_cons.1 hw with rfl | hw
    · intro e he
      rcases List.mem_cons.1 he with rfl | he
      · simpa using h
      · exact ih (heq ▸ List.mem_cons_self) e he
    · exact ih (heq ▸ List.mem_cons_of_mem _ hw)

end Text

/-! ## questions -/

def Topic.command : Topic → String
  | .config => "getconfig"
  | .stats => "getstats"
  | .status => "getstatus"

def Topic.request (t : Topic) (name : String) : String := t.command ++ " " ++ name

theorem Topic.ofCommand?_command (t : Topic) : ofCommand? t.command = some t := by
  cases t <;> rfl

theorem Topic.words_request (t : Topic) (name : String) :
    words (t.request name).toList = t.command.toList :: words name.toList := by
  have hne : t.command.toList ≠ [] := by cases t <;> decide
  have hblank : ∀ c ∈ t.command.toList, isBlank c = false := by
    cases t <;> exact forall_not_blank rfl
  have hspace : isBlank ' ' = true := rfl
  have hrequest : (t.request name).toList = t.command.toList ++ ' ' :: name.toList := by
    rw [Topic.request, String.toList_append, String.toList_append, List.append_assoc]
    rfl
  rw [hrequest, words_append hne hblank (fun c hc => by cases hc; exact hspace),
    words_cons_of_blank hspace]

/-- a question is about the first word of the name -/
theorem Topic.parse_request (t : Topic) (name : String) : Query.parse (t.request name) =
    match (words name.toList).head? with
    | none => .error .missingArgument
    | some w => .ok (.about t (String.ofList w)) := by
  have hlist : t.command ≠ "list" := by cases t <;> decide
  have hsecond : (t.command.toList :: words name.toList)[1]? = (words name.toList).head? :=
    List.head?_eq_getElem?.symm
  unfold Query.parse
  cases hw : (words name.toList).head? <;>
    simp only [t.words_request name, List.head?_cons, Option.getD_some, String.ofList_toList,
      if_neg hlist, t.ofCommand?_command, hsecond, hw]

namespace Registry

variable (r : Registry)

theorem query_request (t : Topic) (name : String) : r.query (t.request name) =
    match (words name.toList).head? with
    | none => .error .missingArgument
    | some w => r.answer (.about t (String.ofList w)) := by
  rw [query, t.parse_request]
  cases (words name.toList).head? <;> rfl

/-- all questions about a name are answered with what is kept under that very name -/
def AnswersFor (name : String) : Prop :=
  ∀ t : Topic, ∃ status, r.get? name = some status ∧ status.module = name ∧
    r.query (t.request name) = .ok (t.answer status)

/-- what is kept under a name carries that name -/
def Labelled : Prop := ∀ name status, r.get? name = some status → status.module = name

variable {r}

theorem module_eq_of_answer_eq {t : Topic} {s s' : ModuleStatus} (h : t.answer s = t.answer s') :
    s.module = s'.module := by
  cases t <;> simp only [Topic.answer, ModuleStatus.toJson, Json.obj.injEq, List.cons.injEq,
    Prod.mk.injEq, Json.str.injEq, true_and] at h <;> exact h.1

theorem answersFor_iff_of_labelled (hr : r.Labelled) {name : String} (hn : name ∈ r.names)
    (hne : name ≠ "") : r.AnswersFor name ↔ ∀ c ∈ name.toList, isBlank c = false := by
  constructor
  · intro h
    obtain ⟨status, -, hmodule, hquery⟩ := h .status
    rw [query_request] at hquery
    split at hquery
    case h_1 => exact nomatch hquery
    case h_2 w hw =>
      unfold answer at hquery
      dsimp only at hquery
      split at hquery
      case h_2 => exact nomatch hquery
      case h_1 other hother =>
        -- the answer carries the word that was asked for, so that word is the name
        have hsame := module_eq_of_answer_eq (Except.ok.inj hquery)
        rw [hr _ _ hother, hmodule] at hsame
        rw [← hsame, String.toList_ofList]
        exact not_blank_of_mem_words (List.mem_of_head? hw)
  · intro hblank t
    obtain ⟨p, hp⟩ := (mem_names_iff r name).1 hn
    have hget : r.get? name = some p.status := by rw [get?, hp, Option.map_some]
    have hwords : words name.toList = [name.toList] :=
      words_eq_singleton (fun h => hne (String.toList_eq_nil_iff.1 h)) hblank
    refine ⟨p.status, hget, hr name p.status hget, ?_⟩
    rw [query_request, hwords]
    simp only [List.head?_cons, String.ofList_toList, answer, hget]

/-! ## publications -/

/-- what a registry can become while modules publish, each under its own name, and end -/
inductive Later (r : Registry) : Registry → Prop
  | refl : Later r r
  | publish {r' : Registry} (h : Later r r') (name : String) (f : ModuleStatus → ModuleStatus)
      (hf : ∀ s, (f s).module = s.module) : Later r (r'.publish name f)
  | close {r' : Registry} (h : Later r r') (name : String) : Later r (r'.close name)

theorem module_published {f : ModuleStatus → ModuleStatus} (hf : ∀ s, (f s).module = s.module)
    (p : Publication) : (published f p).status.module = p.status.module := by
  unfold published
  split
  case isTrue => exact hf p.status
  case isFalse => rfl

theorem labelled_iff :
    r.Labelled ↔ ∀ name p, r.find? name = some p → p.status.module = name := by
  constructor
  · intro h name p hp
    exact h name p.status (by rw [get?, hp, Option.map_some])
  · intro h name status hget
    obtain ⟨p, hp, rfl⟩ := Option.map_eq_some_iff.1 hget
    exact h name p hp

theorem Later.labelled {r' : Registry} (h : r.Later r') (hr : r.Labelled) : r'.Labelled := by
  induction h with
  | refl => exact hr
  | @publish r' _ name f hf ih =>
    rw [labelled_iff] at ih ⊢
    intro other p hp
    rw [find?_publish] at hp
    split at hp
    case isTrue h =>
      obtain ⟨q, hq, rfl⟩ := Option.map_eq_some_iff.1 hp
      rw [module_published hf, h]
      exact ih name q hq
    case isFalse => exact ih other p hp
  | @close r' _ name ih =>
    rw [labelled_iff] at ih ⊢
    intro other p hp
    rw [find?_close] at hp
    split at hp
    case isTrue h =>
      obtain ⟨q, hq, rfl⟩ := Option.map_eq_some_iff.1 hp
      rw [h]
      exact ih name q hq
    case isFalse => exact ih other p hp

theorem Later.mem_names {r' : Registry} (h : r.Later r') {name : String} (hn : name ∈ r.names) :
    name ∈ r'.names := by
  induction h with
  | refl => exact hn
  | @publish r' _ other f _ ih =>
    obtain ⟨p, hp⟩ := (mem_names_iff _ _).1 ih
    refine (mem_names_iff _ _).2 ?_
    rw [find?_publish]
    split
    case isTrue h => exact ⟨published f p, by rw [← h, hp, Option.map_some]⟩
    case isFalse => exact ⟨p, hp⟩
  | @close r' _ other ih =>
    obtain ⟨p, hp⟩ := (mem_names_iff _ _).1 ih
    refine (mem_names_iff _ _).2 ?_
    rw [find?_close]
    split
    case isTrue h => exact ⟨_, by rw [← h, hp, Option.map_some]⟩
    case isFalse => exact ⟨p, hp⟩

end Registry

/-! ## agents -/

theorem isEmptyText_of_modulesFault? {earlier : List String} {ms : List ModuleSettings}
    (h : modulesFault? earlier ms = none) : ∀ m ∈ ms, isEmptyText m.name = false := by
  induction ms generalizing earlier with
  | nil => exact fun _ hm => nomatch hm
  | cons m ms ih =>
    unfold modulesFault? at h
    split at h
    case h_1 => exact nomatch h
    case h_2 hm =>
      intro m' hm'
      rcases List.mem_cons.1 hm' with rfl | hm'
      · unfold ModuleSettings.fault? at hm
        split at hm
        case isTrue => exact nomatch hm
        case isFalse hname => exact Bool.eq_false_iff.2 hname
      · exact ih h m' hm'

theorem Settings.isEmptyText_of_fault? {s : Settings} (h : s.fault? = none) :
    ∀ m ∈ s.modules, isEmptyText m.name = false := by
  unfold Settings.fault? at h
  split at h
  case isTrue => exact nomatch h
  case isFalse =>
    split at h
    case isTrue => exact nomatch h
    case isFalse => exact isEmptyText_of_modulesFault? h

namespace Assembly

variable [ZoneDatabase] {s : Settings} {a : Assembly}

theorem labelled_registry (ha : ofSettings s = .ok a) : a.registry.Labelled := by
  obtain ⟨kept, hsorts⟩ := sorts_of_ofSettings ha
  intro name status hget
  obtain ⟨p, hp, -⟩ := Option.map_eq_some_iff.1 hget
  have hname : name ∈ a.registry.names := (Registry.mem_names_iff _ _).2 ⟨p, hp⟩
  obtain ⟨x, hx, rfl⟩ := List.mem_map.1 ((hsorts.registered name).1 hname)
  rw [hsorts.shown x hx, Option.some.injEq] at hget
  rw [← hget]
  rfl

theorem exists_module_of_mem_names (ha : ofSettings s = .ok a) {name : String}
    (hn : name ∈ a.names) : ∃ m ∈ s.modules, m.name = name := by
  obtain ⟨kept, hsorts⟩ := sorts_of_ofSettings ha
  obtain ⟨x, hx, rfl⟩ := List.mem_map.1 hn
  obtain ⟨⟨m, i⟩, hm, hname, -⟩ := exists_beside_right hsorts.accepted hx
  exact ⟨m, List.mem_of_getElem? (mem_entriesAt.1 hm).1, hname.symm⟩

theorem exists_of_map_names {ns : List String} (h : (ofSettings s).map (·.names) = .ok ns) :
    ∃ a, ofSettings s = .ok a ∧ a.names = ns := by
  cases ha : ofSettings s with
  | error e =>
    rw [ha] at h
    exact nomatch h
  | ok a =>
    rw [ha] at h
    exact ⟨a, rfl, Except.ok.inj h⟩

theorem get?_registry_eq_none (a : Assembly) {name : String} (h : name ∉ a.names) :
    a.registry.get? name = none := by
  rw [Registry.get?, Option.map_eq_none_iff, Option.eq_none_iff_forall_ne_some]
  intro p hp
  exact h ((mem_names_registry a).1 ((Registry.mem_names_iff _ _).2 ⟨p, hp⟩))

end Assembly

/-- **in an agent of valid settings, the questions about a module are answered with what the module
itself published exactly if its name holds no blank**, at the start and ever after -/
theorem answersFor_iff [ZoneDatabase] {s : Settings} {a : Assembly} (hvalid : s.fault? = none)
    (ha : Assembly.ofSettings s = .ok a) {r : Registry} (hr : a.registry.Later r) {name : String}
    (hn : name ∈ a.names) :
    r.AnswersFor name ↔ ∀ c ∈ name.toList, isBlank c = false := by
  obtain ⟨m, hm, hname⟩ := Assembly.exists_module_of_mem_names ha hn
  have hempty : isEmptyText name = false := hname ▸ Settings.isEmptyText_of_fault? hvalid m hm
  have hne : name ≠ "" := by
    rintro rfl
    exact absurd hempty (by decide)
  exact Registry.answersFor_iff_of_labelled (hr.labelled (Assembly.labelled_registry ha))
    (hr.mem_names ((Assembly.mem_names_registry a).2 hn)) hne

open ZoneTable

/-- a heartbeat with a name in one piece is answered for, also after it has begun a run -/
theorem answersFor_iff_beat :
    let s : Settings :=
      { agent := { timezone := "UTC" }, modules := [{ name := "beat", kind := .heartbeat }] }
    s.fault? = none ∧ ∃ a, Assembly.ofSettings s = .ok a ∧ "beat" ∈ a.names ∧
      (a.registry.publish "beat" ({ · with state := .running })).AnswersFor "beat" := by
  intro s
  have hvalid : s.fault? = none := by decide +kernel
  obtain ⟨a, ha, hnames⟩ := @Assembly.exists_of_map_names _ s ["beat"] (by decide +kernel)
  have hn : "beat" ∈ a.names := hnames ▸ List.mem_singleton_self _
  have hlater := Registry.Later.refl.publish (r := a.registry) "beat"
    ({ · with state := .running }) fun _ => rfl
  exact ⟨hvalid, a, ha, hn, (answersFor_iff hvalid ha hlater hn).2 (forall_not_blank rfl)⟩

/-- a heartbeat whose name has a space inside is asked for in vain: its first word is looked up -/
theorem not_answersFor_space :
    let s : Settings :=
      { agent := { timezone := "UTC" }, modules := [{ name := "a b", kind := .heartbeat }] }
    s.fault? = none ∧ ∃ a, Assembly.ofSettings s = .ok a ∧ "a b" ∈ a.names ∧
      (∀ t : Topic, a.registry.query (t.request "a b") = .error (.moduleNotFound "a")) ∧
      ¬ a.registry.AnswersFor "a b" := by
  intro s
  have hvalid : s.fault? = none := by decide +kernel
  obtain ⟨a, ha, hnames⟩ := @Assembly.exists_of_map_names _ s ["a b"] (by decide +kernel)
  have hn : "a b" ∈ a.names := hnames ▸ List.mem_singleton_self _
  have hother : "a" ∉ a.names := by
    rw [hnames]
    decide
  have hquery (t : Topic) : a.registry.query (t.request "a b") = .error (.moduleNotFound "a") := by
    have hwords : words "a b".toList = [['a'], ['b']] := by decide
    rw [Registry.query_request, hwords]
    show a.registry.answer (.about t "a") = _
    simp only [Registry.answer, Assembly.get?_registry_eq_none a hother]
  refine ⟨hvalid, a, ha, hn, hquery, fun h => ?_⟩
  obtain ⟨status, -, -, hanswer⟩ := h .config
  rw [hquery] at hanswer
  exact nomatch hanswer

end Rota
