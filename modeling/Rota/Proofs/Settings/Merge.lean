import Rota.Proofs.Text.Letters
import Rota.Settings.Load

/-!
# Layers, key by key

What stands under a key once a layer has been laid over a value.

* `said`                 what a table says of a key, in whatever case the key stands;
* `laid`                 a value after something, or nothing, was said of its key;
* `lookup_mergeFields`   a table is laid over another one key by key;
* `GoesInto`             paths that go on inside a key;
* `lookup_layerOf`       a file is laid over a value key by key, unless its keys are such paths.
-/

namespace Rota.Layers

open Assoc

/-! ## what is said of a key -/

/-- what a table says of a key, in whatever case the key stands -/
def said (key : String) (fields : Toml.Fields) : Option Toml :=
  (fields.find? fun f => lower f.1 = key).map (·.2)

def laid (word base : Option Toml) : Option Toml :=
  match word with
  | none => base
  | some v => some (merge base v)

/-- where each of many things says something of one place or leaves it alone, and one at most says
something, that one has its say -/
theorem foldl_laid {β : Type} {step : Toml → β → Toml} (get : Toml → Option Toml)
    {speaks : β → Prop} [DecidablePred speaks] {value : β → Toml} {bs : List β}
    (hstep : ∀ t, ∀ b ∈ bs,
      get (step t b) = if speaks b then some (merge (get t) (value b)) else get t)
    (once : bs.Pairwise fun b c => speaks b → ¬speaks c) (t : Toml) :
    get (bs.foldl step t) = laid ((bs.find? fun b => speaks b).map value) (get t) := by
  induction bs generalizing t with
  | nil => rfl
  | cons b bs ih =>
    have hb := hstep t b List.mem_cons_self
    have hrest := ih (fun t c hc => hstep t c (List.mem_cons_of_mem _ hc)) once.of_cons (step t b)
    rw [List.foldl_cons, hrest, hb, List.find?_cons]
    by_cases hspeaks : speaks b
    · -- whatever comes later is silent, so the first one that speaks is the last one, too
      have hnone : (bs.find? fun c => speaks c) = none := List.find?_eq_none.2 fun c hc =>
        mt of_decide_eq_true (List.rel_of_pairwise_cons once hc hspeaks)
      rw [hnone, decide_eq_true hspeaks, if_pos hspeaks]
      rfl
    · rw [decide_eq_false hspeaks, if_neg hspeaks]

/-! ## tables -/

theorem mergeFields_singleton (base : Toml) (key : String) (v : Toml) :
    mergeFields base [(key, v)] =
      .table (put (lower key) (merge ((fieldsOf base).lookup (lower key)) v) (fieldsOf base)) := by
  rw [mergeFields, mergeFields]

theorem mergeFields_eq_foldl (base : Toml) (fields : Toml.Fields) :
    mergeFields base fields = fields.foldl (fun base f => mergeFields base [f]) base := by
  induction fields generalizing base with
  | nil => rw [mergeFields, List.foldl_nil]
  | cons f rest ih => rw [List.foldl_cons, ← ih, mergeFields_singleton, mergeFields]

theorem lookup_mergeFields_singleton (base : Toml) (key : String) (v : Toml) (k : String) :
    (fieldsOf (mergeFields base [(key, v)])).lookup k =
      if lower key = k then some (merge ((fieldsOf base).lookup k) v)
      else (fieldsOf base).lookup k := by
  rw [mergeFields_singleton, fieldsOf, lookup_put]
  split_ifs with h
  · rw [h]
  · rfl

/-- a table is laid over another one key by key -/
theorem lookup_mergeFields {fields : Toml.Fields} (once : (fields.map fun f => lower f.1).Nodup)
    (key : String) (base : Toml) : (fieldsOf (mergeFields base fields)).lookup key =
      laid (said key fields) ((fieldsOf base).lookup key) := by
  rw [mergeFields_eq_foldl]
  exact foldl_laid (fun t => (fieldsOf t).lookup key)
    (fun t f _ => lookup_mergeFields_singleton t f.1 f.2 key)
    ((List.pairwise_map.1 once).imp fun hne hf hg => hne (hf.trans hg.symm)) base

theorem exists_mergeFields_eq (base : Toml.Fields) (fields : Toml.Fields) :
    ∃ merged, mergeFields (.table base) fields = .table merged := by
  induction fields generalizing base with
  | nil => exact ⟨base, by rw [mergeFields]⟩
  | cons f rest ih =>
    rw [mergeFields]
    exact ih _

/-! ## paths -/

/-- a path that goes on inside a key, which is itself reached over keys -/
def GoesInto (keys : List String) (path : List Step) : Prop :=
  keys.map Step.field <+: path ∧ keys.length < path.length

instance (keys : List String) (path : List Step) : Decidable (GoesInto keys path) :=
  inferInstanceAs (Decidable (_ ∧ _))

theorem eq_nil_of_steps?_eq_nil {fuel : Nat} {cs : List Char} (h : steps? fuel cs = some []) :
    cs = [] := by
  unfold steps? at h
  split at h
  · rfl
  · exact nomatch h
  · dsimp only at h
    split_ifs at h
    obtain ⟨steps, -, hsteps⟩ := Option.map_eq_some_iff.1 h
    exact nomatch hsteps
  · simp only [Option.bind_eq_bind, Option.bind_eq_some_iff, Prod.exists] at h
    obtain ⟨n, r, -, steps, -, hsteps⟩ := h
    exact nomatch hsteps
  · exact nomatch h

theorem pathOf_cases (cs : List Char) : pathOf cs = [.field (String.ofList cs)] ∨
    ∃ step steps, pathOf cs = .field (String.ofList (cs.takeWhile isPathChar)) :: step :: steps := by
  unfold pathOf
  dsimp only
  split
  case h_1 steps hsteps =>
    split_ifs
    · exact .inl rfl
    · cases steps with
      | nil =>
        have hall := List.takeWhile_append_dropWhile (p := isPathChar) (l := cs)
        rw [eq_nil_of_steps?_eq_nil hsteps, List.append_nil] at hall
        rw [hall]
        exact .inl rfl
      | cons step steps => exact .inr ⟨step, steps, rfl⟩
  case h_2 => exact .inl rfl

theorem pathOf_of_all {cs : List Char} (h : ∀ c ∈ cs, isPathChar c = true) :
    pathOf cs = [.field (String.ofList cs)] := by
  have htake : cs.takeWhile isPathChar = cs := List.takeWhile_eq_self_iff.2 h
  have hdrop : cs.dropWhile isPathChar = [] := List.dropWhile_eq_nil_iff.2 h
  rw [pathOf, htake, hdrop, steps?]
  dsimp only
  split_ifs <;> rfl

theorem setAt_cons (v : Toml) (key : String) (step : Step) (steps : List Step) (base : Toml) :
    setAt v (.field key :: step :: steps) base = .table (put key
      (setAt v (step :: steps) (((fieldsOf base).lookup key).getD .null)) (fieldsOf base)) := rfl

/-! ## lower case -/

theorem lowerChar_lowerChar (c : Char) : lowerChar (lowerChar c) = lowerChar c := by
  by_cases hkelvin : c = '\u212a'
  · subst hkelvin
    decide
  · have hne : c.toLower ≠ '\u212a' := fun h => by
      have hletter : c.isAlpha = false := by
        rw [← Char.isAlpha_toLower_eq_isAlpha, h]
        decide
      exact hkelvin ((Text.toLower_of_not_isAlpha hletter).symm.trans h)
    have hsmall : lowerChar c = c.toLower := if_neg hkelvin
    rw [hsmall, lowerChar, if_neg hne, Char.toLower_toLower_eq_toLower]

theorem isPathChar_of_lowerChar {c : Char} (h : isPathChar (lowerChar c) = true)
    (hk : lowerChar c ≠ 'k') : isPathChar c = true := by
  have hkelvin : c ≠ '\u212a' := fun e => hk (if_pos e)
  rw [lowerChar, if_neg hkelvin] at h
  cases hletter : c.isAlpha with
  | true => simp [isPathChar, Char.isAlphanum, hletter]
  | false => rwa [Text.toLower_of_not_isAlpha hletter] at h

theorem toList_lower (key : String) : (lower key).toList = key.toList.map lowerChar :=
  String.toList_ofList

def isSimple (key : String) : Bool := key.toList.all fun c => isPathChar c && c != 'k'

theorem pathOf_of_lower {key k : String} (hk : isSimple k = true) (h : lower key = k) :
    pathOf key.toList = [.field key] := by
  have hall : ∀ c ∈ key.toList, isPathChar c = true := fun c hc => by
    have hmem : lowerChar c ∈ k.toList := by
      rw [← h, toList_lower]
      exact List.mem_map_of_mem hc
    obtain ⟨hpath, hne⟩ := (Bool.and_eq_true _ _).mp (List.all_eq_true.1 hk _ hmem)
    exact isPathChar_of_lowerChar hpath (bne_iff_ne.1 hne)
  rw [pathOf_of_all hall, String.ofList_toList]

/-! ## files -/

theorem lookup_setPath {k : String} (hk : isSimple k = true)
    {key : String} (hdirect : ¬GoesInto [k] (pathOf key.toList)) (base v : Toml) :
    (fieldsOf (setPath base key.toList v)).lookup k =
      if lower key = k then some (merge ((fieldsOf base).lookup k) v)
      else (fieldsOf base).lookup k := by
  unfold setPath
  rcases pathOf_cases key.toList with hown | ⟨step, steps, hpath⟩
  · rw [hown, String.ofList_toList, setAt, lookup_mergeFields_singleton]
  · have hlower : lower key ≠ k := fun h => by
      rw [pathOf_of_lower hk h] at hpath
      exact nomatch (List.cons.inj hpath).2
    have hname : String.ofList (key.toList.takeWhile isPathChar) ≠ k := fun h => by
      rw [hpath, h] at hdirect
      exact hdirect ⟨⟨step :: steps, rfl⟩, by simp⟩
    rw [hpath, setAt_cons, fieldsOf, lookup_put, if_neg hname, if_neg hlower]

theorem exists_setPath_eq (base : Toml) (cs : List Char) (v : Toml) :
    ∃ fields, setPath base cs v = .table fields := by
  unfold setPath
  rcases pathOf_cases cs with hown | ⟨step, steps, hpath⟩
  · rw [hown, setAt, mergeFields_singleton]
    exact ⟨_, rfl⟩
  · rw [hpath, setAt_cons]
    exact ⟨_, rfl⟩

/-- a file whose fields name a key once at most, and do not lead into it -/
structure Names (key : String) (fields : Toml.Fields) : Prop where
  once : fields.Pairwise fun f g => lower f.1 = key → lower g.1 ≠ key
  direct : ∀ f ∈ fields, ¬GoesInto [key] (pathOf f.1.toList)

theorem names_iff {key : String} {fields : Toml.Fields} : Names key fields ↔
    (fields.Pairwise fun f g => lower f.1 = key → lower g.1 ≠ key) ∧
      ∀ f ∈ fields, ¬GoesInto [key] (pathOf f.1.toList) :=
  ⟨fun h => And.intro h.once h.direct, fun h => Names.mk h.1 h.2⟩

instance (key : String) (fields : Toml.Fields) : Decidable (Names key fields) :=
  decidable_of_iff _ names_iff.symm

theorem Names.lookup_layerOf {k : String} (hk : isSimple k = true)
    {fields : Toml.Fields} (h : Names k fields) (base : Toml) :
    (fieldsOf (layerOf base fields)).lookup k =
      laid (said k fields) ((fieldsOf base).lookup k) := by
  exact foldl_laid (fun t => (fieldsOf t).lookup k)
    (fun t f hf => lookup_setPath hk (h.direct f hf) t f.2) h.once base

theorem exists_layerOf_eq (base fields : Toml.Fields) :
    ∃ after, layerOf (.table base) fields = .table after :=
  List.foldlRecOn (motive := fun t => ∃ after, t = Toml.table after) fields _ ⟨base, rfl⟩
    fun t _ f _ => exists_setPath_eq t f.1.toList f.2

end Rota.Layers
