import Rota.Proofs.Settings.Merge

/-!
# What layers say of the agent

What stands under a key of the agent once a file or the environment has been laid over a value.

* `saidOfAgent`, `spoken`       what a file, and what the environment, says of a key of the agent;
* `ofAgent`                     what stands under a key of the agent;
* `ofAgent_layerOf`             a file is laid over the agent key by key;
* `ofAgent_variableLayer`       so is the environment, where its variables are the agent's own;
* `lookup_modules_variableLayer`   and it does not concern the modules.
-/

namespace Rota.Layers

open Assoc

/-! ## keys of the agent -/

def ofAgent (key : String) (t : Toml) : Option Toml :=
  ((fieldsOf t).lookup "agent").bind fun agent => (fieldsOf agent).lookup key

def saidOfAgent (key : String) (fields : Toml.Fields) : Option Toml :=
  (said "agent" fields).bind fun agent => said key (fieldsOf agent)

def spoken (key : String) (environment : List (String × String)) : Option Toml :=
  (environment.find? fun v => lower v.1 = "agent__agent__" ++ key).map fun v => variableValue v.2

def AgentIsTable (t : Toml) : Prop :=
  ∀ a ∈ (fieldsOf t).lookup "agent", ∃ entries, a = .table entries

def isPlainTable : Toml → Bool
  | .table entries => decide (entries.map fun e => lower e.1).Nodup
  | _ => false

theorem exists_of_isPlainTable {t : Toml} (h : isPlainTable t = true) :
    ∃ entries, t = .table entries ∧ (entries.map fun e => lower e.1).Nodup := by
  cases t with
  | table entries => exact ⟨entries, rfl, of_decide_eq_true h⟩
  | _ => exact nomatch h

theorem agent_isSimple : isSimple "agent" = true := by decide

theorem modules_isSimple : isSimple "modules" = true := by decide

theorem ofAgent_layerOf {fields : Toml.Fields} (names : Names "agent" fields)
    (agent : ∀ a ∈ said "agent" fields, isPlainTable a = true) (key : String) (base : Toml) :
    ofAgent key (layerOf base fields) = laid (saidOfAgent key fields) (ofAgent key base) := by
  rw [ofAgent, names.lookup_layerOf agent_isSimple, ofAgent, saidOfAgent]
  cases hsaid : said "agent" fields with
  | none => rfl
  | some a =>
    obtain ⟨entries, rfl, once⟩ := exists_of_isPlainTable (agent a hsaid)
    rw [laid, merge, Option.bind_some, Option.bind_some, lookup_mergeFields once, fieldsOf]
    cases (fieldsOf base).lookup "agent" with
    | none => rfl
    | some _ => rfl

theorem AgentIsTable.layerOf {fields : Toml.Fields} (names : Names "agent" fields)
    (agent : ∀ a ∈ said "agent" fields, isPlainTable a = true) {base : Toml}
    (hbase : AgentIsTable base) : AgentIsTable (layerOf base fields) := by
  intro a ha
  rw [names.lookup_layerOf agent_isSimple] at ha
  cases hsaid : said "agent" fields with
  | none =>
    rw [hsaid] at ha
    exact hbase a ha
  | some b =>
    obtain ⟨entries, rfl, -⟩ := exists_of_isPlainTable (agent b hsaid)
    rw [hsaid, laid, merge, Option.mem_some_iff] at ha
    subst ha
    cases hb : (fieldsOf base).lookup "agent" with
    | none => exact exists_mergeFields_eq [] entries
    | some c =>
      obtain ⟨old, rfl⟩ := hbase c hb
      exact exists_mergeFields_eq old entries

/-! ## variables -/

def agentPoint : List Char := ['a', 'g', 'e', 'n', 't', '.']

theorem points_eq_self {cs : List Char} (h : '.' ∉ points cs) : points cs = cs := by
  induction cs using points.induct with
  | case1 cs ih =>
    rw [points] at h
    exact absurd List.mem_cons_self h
  | case2 d cs hne ih =>
    rw [points] at h ⊢
    · rw [ih fun hc => h (List.mem_cons_of_mem _ hc)]
    · exact hne
    · exact hne
  | case3 => rfl

/-- the key of a variable of the agent leads to one key of it, or through it, or nowhere -/
theorem pathOf_agentPoint (cs : List Char) : pathOf (agentPoint ++ cs) =
    match if cs.takeWhile isPathChar = [] then none
      else steps? (cs.length + 5) (cs.dropWhile isPathChar) with
    | some steps =>
      .field "agent" :: .field (String.ofList (cs.takeWhile isPathChar)) :: steps
    | none => [.field (String.ofList (agentPoint ++ cs))] := by
  unfold pathOf
  have htake : (agentPoint ++ cs).takeWhile isPathChar = "agent".toList := by rfl
  have hdrop : (agentPoint ++ cs).dropWhile isPathChar = '.' :: cs := by rfl
  have hlength : (agentPoint ++ cs).length = cs.length + 5 + 1 := by simp [agentPoint]
  rw [htake, hdrop, hlength, steps?]
  dsimp only
  by_cases hnil : cs.takeWhile isPathChar = []
  · rw [if_pos hnil, if_pos hnil]
  · rw [if_neg hnil, if_neg hnil]
    cases steps? (cs.length + 5) (cs.dropWhile isPathChar) <;> rfl

theorem variableKey?_of_agent {name rest : String} (h : lower name = "agent__agent__" ++ rest) :
    variableKey? name = some (agentPoint ++ points rest.toList) := by
  have hname : name.toList.map lowerChar = variableMark ++ (variableMark ++ rest.toList) := by
    rw [← toList_lower, h, String.toList_append]
    rfl
  unfold variableKey?
  rw [hname, if_pos (by rw [List.isPrefixOf_iff_prefix]; exact List.prefix_append _ _),
    List.drop_left]
  rfl

/-- a key that stands in the name of a variable as it is -/
structure PlainKey (key : String) : Prop where
  ne_nil : key.toList ≠ []
  characters : key.toList.all isPathChar = true
  unpointed : points key.toList = key.toList

theorem PlainKey.pathOf_eq {key : String} (h : PlainKey key) :
    pathOf (agentPoint ++ points key.toList) = [.field "agent", .field key] := by
  have hall : ∀ c ∈ key.toList, isPathChar c = true := List.all_eq_true.1 h.characters
  have htake : key.toList.takeWhile isPathChar = key.toList := List.takeWhile_eq_self_iff.2 hall
  have hdrop : key.toList.dropWhile isPathChar = [] := List.dropWhile_eq_nil_iff.2 hall
  rw [h.unpointed, pathOf_agentPoint, htake, hdrop, if_neg h.ne_nil, steps?, String.ofList_toList]

/-- the path of a variable of the agent: nowhere, to one key of the agent, or through one -/
theorem pathOf_agentPoint_cases (cs : List Char) :
    pathOf (agentPoint ++ cs) = [.field (String.ofList (agentPoint ++ cs))] ∨
      (∀ c ∈ cs, isPathChar c = true) ∧
        pathOf (agentPoint ++ cs) = [.field "agent", .field (String.ofList cs)] ∨
      ∃ name step steps, pathOf (agentPoint ++ cs) =
        .field "agent" :: .field name :: step :: steps := by
  rw [pathOf_agentPoint]
  split
  case h_1 steps hsteps =>
    split_ifs at hsteps
    cases steps with
    | nil =>
      have hall := eq_nil_of_steps?_eq_nil hsteps
      have htake := List.takeWhile_eq_self_iff.2 (List.dropWhile_eq_nil_iff.1 hall)
      exact .inr (.inl ⟨List.dropWhile_eq_nil_iff.1 hall, by rw [htake]⟩)
    | cons step steps => exact .inr (.inr ⟨_, step, steps, rfl⟩)
  case h_2 => exact .inl rfl

theorem lower_agentPoint_ne {k : String} (hk : '.' ∉ k.toList) (cs : List Char) :
    lower (String.ofList (agentPoint ++ cs)) ≠ k := by
  rintro rfl
  refine hk ?_
  rw [toList_lower, String.toList_ofList, List.map_append]
  exact List.mem_append_left _ (by decide)

theorem ofAgent_eq (key : String) (t : Toml) : ofAgent key t =
    (fieldsOf (((fieldsOf t).lookup "agent").getD .null)).lookup key := by
  rw [ofAgent]
  cases (fieldsOf t).lookup "agent" <;> rfl

section
variable {name rest : String} (hname : lower name = "agent__agent__" ++ rest)
include hname

theorem lowerChar_of_mem_rest {c : Char} (hc : c ∈ rest.toList) : lowerChar c = c := by
  have hmem : c ∈ name.toList.map lowerChar := by
    rw [← toList_lower, hname, String.toList_append]
    exact List.mem_append_right _ hc
  obtain ⟨d, -, rfl⟩ := List.mem_map.1 hmem
  exact lowerChar_lowerChar d

theorem lower_rest : lower rest = rest := by
  rw [lower, List.map_congr_left fun c hc => lowerChar_of_mem_rest hname hc, List.map_id',
    String.ofList_toList]

theorem ofAgent_setPath {k : String} (hk : PlainKey k)
    (hdirect : ¬GoesInto ["agent", k] (pathOf (agentPoint ++ points rest.toList)))
    (base v : Toml) : ofAgent k (setPath base (agentPoint ++ points rest.toList) v) =
      if rest = k then some (merge (ofAgent k base) v) else ofAgent k base := by
  unfold setPath
  rcases pathOf_agentPoint_cases (points rest.toList) with
    hown | ⟨hall, hone⟩ | ⟨into, step, steps, hpath⟩
  · -- a key that is no path lies beside the agent
    have hne : rest ≠ k := by
      rintro rfl
      rw [hk.pathOf_eq] at hown
      exact List.cons_ne_nil _ _ (List.cons.inj hown).2
    rw [hown, setAt, if_neg hne, ofAgent, lookup_mergeFields_singleton,
      if_neg (lower_agentPoint_ne (by decide) _), ofAgent]
  · -- the name stands for the key as it is: a point would have led further
    have hpoints : points rest.toList = rest.toList := by
      refine points_eq_self fun hc => ?_
      exact absurd (hall '.' hc) (by decide)
    rw [hone, hpoints, String.ofList_toList, setAt_cons, setAt, ofAgent_eq, fieldsOf, lookup_put,
      if_pos rfl, Option.getD_some, lookup_mergeFields_singleton, lower_rest hname, ← ofAgent_eq]
  · -- the way leads through another key of the agent, and changes that one only
    have hne : rest ≠ k := by
      rintro rfl
      rw [hk.pathOf_eq] at hpath
      exact List.cons_ne_nil _ _ (List.cons.inj (List.cons.inj hpath).2).2.symm
    have hinto : into ≠ k := by
      rintro rfl
      rw [hpath] at hdirect
      exact hdirect ⟨⟨step :: steps, rfl⟩, by simp⟩
    rw [hpath, setAt_cons, setAt_cons, ofAgent_eq, fieldsOf, lookup_put, if_pos rfl,
      Option.getD_some, fieldsOf, lookup_put, if_neg hinto, if_neg hne, ofAgent_eq]

end

theorem setPath_agentPoint (cs : List Char) (base v : Toml) :
    (∃ own w, (∀ k : String, '.' ∉ k.toList → own ≠ k) ∧
      setPath base (agentPoint ++ cs) v = .table (put own w (fieldsOf base))) ∨
    ∃ entries, setPath base (agentPoint ++ cs) v =
      .table (put "agent" (.table entries) (fieldsOf base)) := by
  unfold setPath
  rcases pathOf_agentPoint_cases cs with hown | ⟨-, hone⟩ | ⟨into, step, steps, hpath⟩
  · rw [hown, setAt, mergeFields_singleton]
    exact .inl ⟨_, _, fun k hk => lower_agentPoint_ne hk cs, rfl⟩
  · rw [hone, setAt_cons, setAt, mergeFields_singleton]
    exact .inr ⟨_, rfl⟩
  · rw [hpath, setAt_cons, setAt_cons]
    exact .inr ⟨_, rfl⟩

theorem lookup_modules_setPath (cs : List Char) (base v : Toml) :
    (fieldsOf (setPath base (agentPoint ++ cs) v)).lookup "modules" =
      (fieldsOf base).lookup "modules" := by
  rcases setPath_agentPoint cs base v with ⟨own, w, hown, hset⟩ | ⟨entries, hset⟩
  · rw [hset, fieldsOf, lookup_put, if_neg (hown _ (by decide))]
  · rw [hset, fieldsOf, lookup_put, if_neg (by decide)]

theorem AgentIsTable.setPath (cs : List Char) {base : Toml} (v : Toml)
    (hbase : AgentIsTable base) : AgentIsTable (setPath base (agentPoint ++ cs) v) := by
  intro a ha
  rcases setPath_agentPoint cs base v with ⟨own, w, hown, hset⟩ | ⟨entries, hset⟩
  · rw [hset, fieldsOf, lookup_put, if_neg (hown _ (by decide))] at ha
    exact hbase a ha
  · rw [hset, fieldsOf, lookup_put, if_pos rfl, Option.mem_some_iff] at ha
    exact ⟨entries, ha.symm⟩

/-! ## the environment -/

def AgentOnly (environment : List (String × String)) : Prop :=
  ∀ v ∈ environment, (variableKey? v.1).isSome →
    "agent__agent__".toList <+: (lower v.1).toList

instance : DecidablePred AgentOnly := fun environment =>
  inferInstanceAs (Decidable (∀ v ∈ environment, _ → _))

/-- an environment that names a key of the agent once at most, and does not lead into it -/
structure Speaks (key : String) (environment : List (String × String)) : Prop where
  once : environment.Pairwise fun v w =>
    lower v.1 = "agent__agent__" ++ key → lower w.1 ≠ "agent__agent__" ++ key
  direct : ∀ v ∈ environment, ∀ path ∈ variableKey? v.1, ¬GoesInto ["agent", key] (pathOf path)

theorem variableLayer_eq_foldl (base : Toml) (environment : List (String × String)) :
    variableLayer base environment =
      environment.foldl (fun base v => variableLayer base [v]) base := rfl

theorem AgentOnly.cases {environment : List (String × String)} (h : AgentOnly environment)
    {v : String × String} (hv : v ∈ environment) (base : Toml) :
    (variableKey? v.1 = none ∧ variableLayer base [v] = base) ∨
      ∃ rest, lower v.1 = "agent__agent__" ++ rest ∧
        variableKey? v.1 = some (agentPoint ++ points rest.toList) ∧
        variableLayer base [v] =
          setPath base (agentPoint ++ points rest.toList) (variableValue v.2) := by
  unfold variableLayer
  rw [List.foldl_cons, List.foldl_nil]
  cases hkey : variableKey? v.1 with
  | none => exact .inl ⟨rfl, rfl⟩
  | some key =>
    obtain ⟨cs, hcs⟩ := h v hv (hkey ▸ rfl)
    have hname : lower v.1 = "agent__agent__" ++ String.ofList cs := by
      rw [← String.toList_inj, ← hcs, String.toList_append, String.toList_ofList (l := cs)]
    rw [variableKey?_of_agent hname, Option.some.injEq] at hkey
    subst hkey
    exact .inr ⟨_, hname, rfl, rfl⟩

theorem ofAgent_variableLayer {environment : List (String × String)} {k : String}
    (hagent : AgentOnly environment) (hk : PlainKey k) (h : Speaks k environment) (base : Toml) :
    ofAgent k (variableLayer base environment) =
      laid (spoken k environment) (ofAgent k base) := by
  rw [variableLayer_eq_foldl]
  refine foldl_laid (ofAgent k) (fun t v hv => ?_) h.once base
  rcases hagent.cases hv t with ⟨hkey, hsame⟩ | ⟨rest, hname, hkey, hset⟩
  · have hne : lower v.1 ≠ "agent__agent__" ++ k := fun hname => by
      rw [variableKey?_of_agent hname] at hkey
      exact nomatch hkey
    rw [hsame, if_neg hne]
  · rw [hset, ofAgent_setPath hname hk (h.direct v hv _ hkey), hname]
    simp only [String.append_right_inj]

theorem lookup_modules_variableLayer {environment : List (String × String)}
    (hagent : AgentOnly environment) (base : Toml) :
    (fieldsOf (variableLayer base environment)).lookup "modules" =
      (fieldsOf base).lookup "modules" := by
  rw [variableLayer_eq_foldl]
  refine List.foldlRecOn
    (motive := fun t => (fieldsOf t).lookup "modules" = (fieldsOf base).lookup "modules")
    environment _ rfl fun t ht v hv => ?_
  rcases hagent.cases hv t with ⟨-, hsame⟩ | ⟨rest, -, -, hset⟩
  · rw [hsame, ht]
  · rw [hset, lookup_modules_setPath, ht]

theorem AgentIsTable.variableLayer {environment : List (String × String)}
    (hagent : AgentOnly environment) {base : Toml} (hbase : AgentIsTable base) :
    AgentIsTable (variableLayer base environment) := by
  rw [variableLayer_eq_foldl]
  refine List.foldlRecOn (motive := AgentIsTable) environment _ hbase fun t ht v hv => ?_
  rcases hagent.cases hv t with ⟨-, hsame⟩ | ⟨rest, -, -, hset⟩
  · rwa [hsame]
  · rw [hset]
    exact ht.setPath _ _

theorem exists_variableLayer_eq (base : Toml.Fields) (environment : List (String × String)) :
    ∃ after, variableLayer (.table base) environment = .table after := by
  refine List.foldlRecOn (motive := fun t => ∃ after, t = Toml.table after) environment _
    ⟨base, rfl⟩ fun t ht v _ => ?_
  split
  · exact exists_setPath_eq t _ _
  · exact ht

end Rota.Layers
