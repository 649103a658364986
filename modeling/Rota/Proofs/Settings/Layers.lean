import Rota.Proofs.Settings.Words

/-!
# Settings in layers

What the settings are that two files and an environment make, key by key.

* `AgentKey`            the keys of the agent, and what each one takes of what is said of it;
* `Layers.covering`     what counts of two words on one thing: the later one;
* `Layers.Sources`      two files and an environment, and what counts of all they say of a key;
* `Sources.Plain`       sources whose keys lead to what they name;
* `load_plain_iff`      **such sources make the settings that each key gives, if they are
  accepted**, and a word on one key changes no other.

Keys of a file that are paths, and variables that lead through a key of the agent, do make a mixture
of the layers (`load_through_paths`).
-/

namespace Rota

open Layers

/-! ## values as they are read -/

namespace Toml

/-- what is read where something or nothing is said: a value that fits, or the standard one -/
def Gives {α : Type} (decode : Toml → Option α) (standard : α) (word : Option Toml) (a : α) : Prop :=
  match word with
  | none => a = standard
  | some v => decode v = some a

def optional {α : Type} (decode : Toml → Option α) : Toml → Option (Option α)
  | .null => some none
  | v => (decode v).map some

section
variable {α : Type} {decode : Toml → Option α} {standard : α}

theorem fieldOr?_eq_some_iff {fields : Fields} {key : String} {a : α} :
    fieldOr? fields key decode standard = some a ↔
      Gives decode standard (fields.lookup key) a := by
  unfold fieldOr? Gives
  cases fields.lookup key with
  | none => exact ⟨fun h => (Option.some.inj h).symm, fun h => congrArg some h.symm⟩
  | some v => exact Iff.rfl

theorem field?_eq_some_iff {fields : Fields} {key : String} {a : Option α} :
    field? fields key decode = some a ↔ Gives (optional decode) none (fields.lookup key) a := by
  unfold field? Gives optional
  cases fields.lookup key with
  | none => exact ⟨fun h => (Option.some.inj h).symm, fun h => congrArg some h.symm⟩
  | some v => cases v <;> exact Iff.rfl

theorem Gives.unique {word : Option Toml} {a b : α} (ha : Gives decode standard word a)
    (hb : Gives decode standard word b) : a = b := by
  cases word with
  | none => exact Eq.trans ha (Eq.symm hb)
  | some v => exact Option.some.inj (Eq.trans (Eq.symm ha) hb)

def outline : Toml → Toml
  | .table _ => .table []
  | v => v

theorem Gives.congr (htable : ∀ fields, decode (.table fields) = none) {word word' : Option Toml}
    (h : word.map outline = word'.map outline) {a : α} :
    Gives decode standard word a ↔ Gives decode standard word' a := by
  have houtline (v : Toml) : decode (outline v) = decode v := by
    cases v with
    | table fields => exact (htable []).trans (htable fields).symm
    | _ => rfl
  have hword (w : Option Toml) :
      Gives decode standard w a ↔ Gives decode standard (w.map outline) a := by
    cases w with
    | none => exact Iff.rfl
    | some v => rw [Gives, Option.map_some, Gives, houtline]
  rw [hword, h, ← hword]

end

end Toml

/-! ## the keys of the agent -/

inductive AgentKey where
  | logLevel
  | jsonLogs
  | timezone
  | wakeResolutionMs
  | stateDir
  | reportCapacity
  | metricsPort
deriving DecidableEq, Repr

namespace AgentKey

def name : AgentKey → String
  | .logLevel => "log_level"
  | .jsonLogs => "json_logs"
  | .timezone => "timezone"
  | .wakeResolutionMs => "wake_resolution_ms"
  | .stateDir => "state_dir"
  | .reportCapacity => "report_capacity"
  | .metricsPort => "metrics_port"

def Takes (word : Option Toml) (a : AgentSettings) : AgentKey → Prop
  | .logLevel => Toml.Gives Toml.toText? "info" word a.logLevel
  | .jsonLogs => Toml.Gives Toml.toBool? false word a.jsonLogs
  | .timezone => Toml.Gives Toml.toText? "local" word a.timezone
  | .wakeResolutionMs => Toml.Gives Toml.toWord? 1000 word a.wakeResolutionMs
  | .stateDir => Toml.Gives (Toml.optional Toml.toText?) none word a.stateDir
  | .reportCapacity => Toml.Gives Toml.toWord? 1024 word a.reportCapacity
  | .metricsPort => Toml.Gives (Toml.optional (Toml.toNat? UInt16.size)) none word a.metricsPort

def Agrees (a b : AgentSettings) : AgentKey → Prop
  | .logLevel => a.logLevel = b.logLevel
  | .jsonLogs => a.jsonLogs = b.jsonLogs
  | .timezone => a.timezone = b.timezone
  | .wakeResolutionMs => a.wakeResolutionMs = b.wakeResolutionMs
  | .stateDir => a.stateDir = b.stateDir
  | .reportCapacity => a.reportCapacity = b.reportCapacity
  | .metricsPort => a.metricsPort = b.metricsPort

theorem Takes.agrees {word : Option Toml} {a b : AgentSettings} {k : AgentKey}
    (ha : k.Takes word a) (hb : k.Takes word b) : k.Agrees a b := by
  cases k <;> exact Toml.Gives.unique ha hb

/-- no key takes a table, so the fields of one do not matter -/
theorem takes_congr {word word' : Option Toml} (h : word.map Toml.outline = word'.map Toml.outline)
    {a : AgentSettings} (k : AgentKey) : k.Takes word a ↔ k.Takes word' a := by
  cases k <;> exact Toml.Gives.congr (fun _ => rfl) h

theorem plainKey (k : AgentKey) : PlainKey k.name := by
  cases k <;> exact ⟨by decide, by decide, by decide⟩

end AgentKey

theorem AgentSettings.ofToml?_eq_some_iff {fields : Toml.Fields} {a : AgentSettings} :
    ofToml? (.table fields) = some a ↔ ∀ k : AgentKey, k.Takes (fields.lookup k.name) a := by
  unfold ofToml?
  simp only [Toml.record?, Option.bind_eq_bind, Option.bind_some, Option.bind_eq_some_iff,
    Toml.fieldOr?_eq_some_iff, Toml.field?_eq_some_iff, Option.pure_def, Option.some.injEq]
  constructor
  · rintro ⟨_, h1, _, h2, _, h3, _, h4, _, h5, _, h6, _, h7, rfl⟩ k
    cases k
    case logLevel => exact h1
    case jsonLogs => exact h2
    case timezone => exact h3
    case wakeResolutionMs => exact h4
    case stateDir => exact h5
    case reportCapacity => exact h6
    case metricsPort => exact h7
  · intro h
    exact ⟨_, h .logLevel, _, h .jsonLogs, _, h .timezone, _, h .wakeResolutionMs, _, h .stateDir,
      _, h .reportCapacity, _, h .metricsPort, rfl⟩

def ModulesTake (word : Option Toml) (modules : List ModuleSettings) : Prop :=
  Toml.Gives (Toml.list? ModuleSettings.ofToml?) [] word modules

theorem Settings.ofToml?_eq_some_iff {t : Toml} {s : Settings} (ht : ∃ fields, t = .table fields)
    (agent : AgentIsTable t) : ofToml? t = some s ↔
      (∀ k : AgentKey, k.Takes (ofAgent k.name t) s.agent) ∧
        ModulesTake ((fieldsOf t).lookup "modules") s.modules := by
  obtain ⟨fields, rfl⟩ := ht
  unfold AgentIsTable at agent
  rw [fieldsOf] at agent ⊢
  have hagent : Toml.Gives AgentSettings.ofToml? {} (fields.lookup "agent") s.agent ↔
      ∀ k : AgentKey, k.Takes (ofAgent k.name (.table fields)) s.agent := by
    unfold ofAgent
    rw [fieldsOf]
    cases hlookup : fields.lookup "agent" with
    | none =>
      -- without an agent the settings are those of an empty one
      have hempty : AgentSettings.ofToml? (.table []) = some s.agent ↔
          ∀ k : AgentKey, k.Takes none s.agent := AgentSettings.ofToml?_eq_some_iff
      exact Iff.trans ⟨fun h => congrArg some h.symm, fun h => (Option.some.inj h).symm⟩ hempty
    | some a =>
      obtain ⟨entries, rfl⟩ := agent a hlookup
      exact AgentSettings.ofToml?_eq_some_iff
  unfold ofToml?
  simp only [Toml.record?, Option.bind_eq_bind, Option.bind_some, Option.bind_eq_some_iff,
    Toml.fieldOr?_eq_some_iff, Option.pure_def, Option.some.injEq]
  rw [← hagent]
  constructor
  · rintro ⟨_, h1, _, h2, rfl⟩
    exact ⟨h1, h2⟩
  · rintro ⟨h1, h2⟩
    exact ⟨_, h1, _, h2, rfl⟩

/-! ## layers that cover each other -/

namespace Layers

/-- what counts of a word and of an earlier one on the same thing: the later word, unless it is a
table without fields, which says nothing where something was said -/
def covering (word earlier : Option Toml) : Option Toml :=
  match word with
  | none => earlier
  | some (.table []) => earlier.or word
  | some v => some v

open Toml (outline)

theorem outline_laid (word base : Option Toml) :
    (laid word base).map outline = (covering word base).map outline := by
  cases word with
  | none => rfl
  | some v =>
    cases v with
    | table fields =>
      rw [laid, merge]
      cases fields with
      | nil => cases base <;> rw [mergeFields] <;> rfl
      | cons f rest =>
        -- with a field to lay, a table takes the place of whatever was there
        obtain ⟨merged, hmerged⟩ := exists_mergeFields_eq _ rest
        rw [mergeFields, hmerged]
        rfl
    | _ => rfl

theorem covering_none (word : Option Toml) : covering word none = word := by
  unfold covering
  split <;> rfl

theorem outline_covering (word : Option Toml) {earlier earlier' : Option Toml}
    (h : earlier.map outline = earlier'.map outline) :
    (covering word earlier).map outline = (covering word earlier').map outline := by
  unfold covering
  split
  · exact h
  · rw [Option.map_or, h, ← Option.map_or]
  · rfl

/-! ## sources -/

structure Sources where
  common : Option String
  site : Option String
  environment : List (String × String)

def fileFields (file : Option String) : Toml.Fields := (file.bind Toml.parse?).getD []

/-- a file that can be read, and whose keys set what they name: the agent, in a table without two
keys that differ in case alone, and the modules, each once at most -/
structure PlainFile (file : Option String) : Prop where
  reads : ∀ text ∈ file, (Toml.parse? text).isSome
  namesAgent : Names "agent" (fileFields file)
  namesModules : Names "modules" (fileFields file)
  agent : ∀ a ∈ said "agent" (fileFields file), isPlainTable a

theorem plainFile_iff {file : Option String} : PlainFile file ↔
    (∀ text ∈ file, (Toml.parse? text).isSome) ∧ Names "agent" (fileFields file) ∧
      Names "modules" (fileFields file) ∧ ∀ a ∈ said "agent" (fileFields file), isPlainTable a :=
  ⟨fun h => ⟨h.reads, h.namesAgent, h.namesModules, h.agent⟩,
    fun h => ⟨h.1, h.2.1, h.2.2.1, h.2.2.2⟩⟩

instance (file : Option String) : Decidable (PlainFile file) :=
  decidable_of_iff _ plainFile_iff.symm

namespace Sources

/-- sources that set what they name: the variables that count are keys of the agent, each once at
most, and none leads through one -/
structure Plain (l : Sources) : Prop where
  common : PlainFile l.common
  site : PlainFile l.site
  agentOnly : AgentOnly l.environment
  speaks : ∀ k : AgentKey, Speaks k.name l.environment

def load (l : Sources) : Except LoadFault Settings :=
  Settings.load l.common l.site l.environment

def word (l : Sources) (k : AgentKey) : Option Toml :=
  covering (spoken k.name l.environment)
    (covering (saidOfAgent k.name (fileFields l.site))
      (saidOfAgent k.name (fileFields l.common)))

def modulesWord (l : Sources) : Option Toml :=
  covering (said "modules" (fileFields l.site)) (said "modules" (fileFields l.common))

/-- the settings that the sources make: each key as it is said, the modules as they are said, and
nothing wrong with all of it -/
structure Makes (l : Sources) (s : Settings) : Prop where
  agent : ∀ k : AgentKey, k.Takes (l.word k) s.agent
  modules : ModulesTake l.modulesWord s.modules
  accepted : s.fault? = none

/-- sources whose layers say the same of a key of the agent, whatever else they say -/
structure AlikeAt (l l' : Sources) (k : AgentKey) : Prop where
  common : saidOfAgent k.name (fileFields l.common) = saidOfAgent k.name (fileFields l'.common)
  site : saidOfAgent k.name (fileFields l.site) = saidOfAgent k.name (fileFields l'.site)
  environment : spoken k.name l.environment = spoken k.name l'.environment

structure AlikeModules (l l' : Sources) : Prop where
  common : said "modules" (fileFields l.common) = said "modules" (fileFields l'.common)
  site : said "modules" (fileFields l.site) = said "modules" (fileFields l'.site)

theorem AlikeAt.word_eq {l l' : Sources} {k : AgentKey} (h : AlikeAt l l' k) :
    l.word k = l'.word k := by
  rw [word, word, h.common, h.site, h.environment]

theorem AlikeModules.modulesWord_eq {l l' : Sources} (h : AlikeModules l l') :
    l.modulesWord = l'.modulesWord := by
  rw [modulesWord, modulesWord, h.common, h.site]

def value (l : Sources) : Toml :=
  variableLayer (layerOf (layerOf (.table []) (fileFields l.common)) (fileFields l.site))
    l.environment

theorem addFile_eq {file : Option String} (h : PlainFile file) (base : Toml) :
    Settings.addFile base file = some (layerOf base (fileFields file)) := by
  cases file with
  | none => rfl
  | some text =>
    obtain ⟨fields, hfields⟩ := Option.isSome_iff_exists.1 (h.reads text rfl)
    rw [Settings.addFile, fileFields, Option.bind_some, hfields]
    rfl

variable {l : Sources}

theorem Plain.layered_eq (h : l.Plain) :
    Settings.layered l.common l.site l.environment = some l.value := by
  rw [Settings.layered, addFile_eq h.common, Option.bind_eq_bind, Option.bind_some,
    addFile_eq h.site]
  rfl

theorem exists_value_eq (l : Sources) : ∃ fields, l.value = .table fields := by
  obtain ⟨first, hfirst⟩ := exists_layerOf_eq [] (fileFields l.common)
  obtain ⟨second, hsecond⟩ := exists_layerOf_eq first (fileFields l.site)
  rw [value, hfirst, hsecond]
  exact exists_variableLayer_eq second l.environment

theorem Plain.agentIsTable_value (h : l.Plain) : AgentIsTable l.value :=
  have hempty : AgentIsTable (.table []) := nofun
  ((hempty.layerOf h.common.namesAgent h.common.agent).layerOf h.site.namesAgent
    h.site.agent).variableLayer h.agentOnly

theorem Plain.ofAgent_value (h : l.Plain) (k : AgentKey) :
    (ofAgent k.name l.value).map outline = (l.word k).map outline := by
  rw [value, ofAgent_variableLayer h.agentOnly k.plainKey (h.speaks k),
    ofAgent_layerOf h.site.namesAgent h.site.agent,
    ofAgent_layerOf h.common.namesAgent h.common.agent, outline_laid, word]
  refine outline_covering _ ?_
  rw [outline_laid]
  refine outline_covering _ ?_
  rw [outline_laid]
  exact congrArg _ (covering_none _)

theorem Plain.modules_value (h : l.Plain) :
    ((fieldsOf l.value).lookup "modules").map outline = l.modulesWord.map outline := by
  rw [value, lookup_modules_variableLayer h.agentOnly,
    h.site.namesModules.lookup_layerOf modules_isSimple,
    h.common.namesModules.lookup_layerOf modules_isSimple, outline_laid, modulesWord]
  refine outline_covering _ ?_
  rw [outline_laid]
  exact congrArg _ (covering_none _)

theorem Plain.load_eq_ok_iff (h : l.Plain) {s : Settings} : l.load = .ok s ↔ l.Makes s := by
  have hread : Settings.ofToml? l.value = some s ↔
      (∀ k : AgentKey, k.Takes (l.word k) s.agent) ∧ ModulesTake l.modulesWord s.modules := by
    rw [Settings.ofToml?_eq_some_iff l.exists_value_eq h.agentIsTable_value]
    -- two tables under one key may differ in their fields, but neither is taken
    refine and_congr (forall_congr' fun k => k.takes_congr (h.ofAgent_value k)) ?_
    exact Toml.Gives.congr (fun _ => rfl) h.modules_value
  rw [load, Settings.load, h.layered_eq, Option.bind_some]
  constructor
  · intro hok
    split at hok
    case h_1 => exact nomatch hok
    case h_2 settings hsettings =>
      split at hok
      case h_1 => exact nomatch hok
      case h_2 hfault =>
        obtain rfl := Except.ok.inj hok
        obtain ⟨hagent, hmodules⟩ := hread.1 hsettings
        exact ⟨hagent, hmodules, hfault⟩
  · rintro ⟨hagent, hmodules, haccepted⟩
    rw [hread.2 ⟨hagent, hmodules⟩]
    dsimp only
    rw [haccepted]

end Sources

end Layers

/-- Sources that set what they name make exactly the settings in which each key of the agent is what
the environment says of it, else what the site's file says, else what the common file says, else the
standard value; in which the modules are the site's, else the common ones, else none; which all fit;
and which are accepted.  What the layers say of other keys does not matter to a key, nor to the
modules. -/
theorem load_plain_iff (l : Sources) (h : l.Plain) :
    (∀ s, l.load = .ok s ↔ l.Makes s) ∧
    ∀ l' : Sources, l'.Plain → ∀ s s', l.load = .ok s → l'.load = .ok s' →
      (∀ k : AgentKey, l.AlikeAt l' k → k.Agrees s.agent s'.agent) ∧
        (l.AlikeModules l' → s.modules = s'.modules) := by
  refine ⟨fun s => h.load_eq_ok_iff, fun l' h' s s' hs hs' => ?_⟩
  have hmakes := h.load_eq_ok_iff.1 hs
  have hmakes' := h'.load_eq_ok_iff.1 hs'
  refine ⟨fun k halike => ?_, fun halike => ?_⟩
  · refine (hmakes.agent k).agrees ?_
    rw [halike.word_eq]
    exact hmakes'.agent k
  · refine hmakes.modules.unique ?_
    rw [halike.modulesWord_eq]
    exact hmakes'.modules

/-! ## two modules, and what is laid over them -/

namespace Layers

def twoModules : String :=
  "[agent]\nlog_level = \"debug\"\n[[modules]]\nname = \"a\"\nkind = \"heartbeat\"\n" ++
    "[[modules]]\nname = \"b\"\nkind = \"heartbeat\"\n"

def beating (agent : AgentSettings) (names : List String) : Settings where
  agent
  modules := names.map fun name => { name, kind := .heartbeat }

theorem twoModules_plain : PlainFile (some twoModules) := by decide +kernel

def quietSite : String := "[agent]\nLog_Level = \"warn\"\n"

theorem quietSite_plain : PlainFile (some quietSite) := by decide +kernel

end Layers

theorem load_quietSite :
    let l : Sources := ⟨some twoModules, some quietSite, [("AGENT__AGENT__TIMEZONE", "UTC")]⟩
    let l' : Sources := ⟨some twoModules, some quietSite, []⟩
    let s := beating { logLevel := "warn", timezone := "UTC" } ["a", "b"]
    let s' := beating { logLevel := "warn" } ["a", "b"]
    l.load = .ok s ∧ l'.load = .ok s' ∧ l.Makes s ∧ AgentKey.logLevel.Agrees s.agent s'.agent ∧
      s.modules = s'.modules := by
  intro l l' s s'
  have hplain : l.Plain := ⟨twoModules_plain, quietSite_plain, by decide +kernel, fun k => by
    cases k <;> exact ⟨by decide +kernel, by decide +kernel⟩⟩
  have hplain' : l'.Plain := ⟨twoModules_plain, quietSite_plain, nofun, fun k => ⟨.nil, nofun⟩⟩
  have hs : l.load = .ok s := by decide +kernel
  have hs' : l'.load = .ok s' := by decide +kernel
  have hunsaid : spoken "log_level" l.environment = none :=
    Option.isNone_iff_eq_none.1 (by decide +kernel)
  obtain ⟨hmakes, hagrees⟩ := load_plain_iff l hplain
  obtain ⟨hkeys, hmodules⟩ := hagrees l' hplain' s s' hs hs'
  exact ⟨hs, hs', (hmakes s).1 hs, hkeys .logLevel ⟨rfl, rfl, hunsaid⟩, hmodules ⟨rfl, rfl⟩⟩

/-- Keys of a file that are paths change the agent and single modules, of which the file itself says
nothing; a table without fields, which is no level, leaves the level as it was; a variable that leads
through a key spoils it; and modules that are no array are not passed over. -/
theorem load_through_paths :
    (let site := "\"agent.timezone\" = \"UTC\"\n" ++
        "\"modules[0]\" = \x7b name = \"x\", kind = \"heartbeat\" \x7d\n";
      (saidOfAgent "timezone" (fileFields (some site))).isNone ∧
        (said "modules" (fileFields (some site))).isNone ∧
        Settings.load (some twoModules) (some site) [] =
          .ok (beating { logLevel := "debug", timezone := "UTC" } ["x", "b"])) ∧
    (let site := "[agent]\nlog_level = \x7b\x7d\n";
      (saidOfAgent "log_level" (fileFields (some site))).map Toml.toText? = some none ∧
        Settings.load (some twoModules) (some site) [] =
          .ok (beating { logLevel := "debug" } ["a", "b"])) ∧
    (let environment := [("AGENT__AGENT__LOG_LEVEL__X", "1")];
      AgentOnly environment ∧ (spoken "log_level" environment).isNone ∧
        Settings.load (some twoModules) none environment = .error .unreadable) ∧
    (let site := "modules = 3\n";
      (said "modules" (fileFields (some site))).map (Toml.list? ModuleSettings.ofToml?) =
          some none ∧
        Settings.load (some twoModules) (some site) [] = .error .unreadable) := by
  decide +kernel

end Rota
