import Rota.Proofs.Calendar.Rfc3339
import Rota.Proofs.Except
import Rota.Proofs.Json.Record
import Rota.Proofs.Text.Utf8
import Rota.State.Saved

/-!
# Saved state, both ways

A state is read back from its file, whatever its fingerprint is.

* `SavedState.IsValid`      the stamps of the state are stamps of the calendar;
* `SavedState.ofText_text`, `SavedState.ofBytes_bytes`   reading what was written gives the state back;
* `SavedState.isValid_of_ofText`   what is read is valid.
-/

namespace Rota

open Text

theorem Stamp.ofJson_toJson {s : Stamp} (h : s.IsValid) : ofJson s.toJson = .ok s := by
  unfold ofJson Json.shaped
  simp only [toJson, Json.str?, Option.bind_some, read?_text h]

theorem Stamp.isValid_of_ofJson {j : Json} {s : Stamp} (h : ofJson j = .ok s) : s.IsValid := by
  unfold ofJson Json.shaped at h
  split at h
  case h_1 hread =>
    cases h
    obtain ⟨text, -, hread⟩ := Option.bind_eq_some_iff.1 hread
    exact isValid_of_read? hread
  case h_2 => exact nomatch h

namespace SavedState

/-- every stamp of the state is one of the calendar -/
structure IsValid (s : SavedState) : Prop where
  nextRun : s.nextRun.IsValid
  lastRun : ∀ t ∈ s.lastRun, t.IsValid

theorem isValid_ofMoment (fingerprint : String) (next : Moment) (last : Option Moment) :
    IsValid ⟨fingerprint, .ofMoment next, last.map .ofMoment⟩ where
  nextRun := Stamp.isValid_ofMoment next
  lastRun t ht := by
    obtain ⟨m, -, rfl⟩ := Option.map_eq_some_iff.1 ht
    exact Stamp.isValid_ofMoment m

variable {s : SavedState}

theorem isPlain_of_mem_toFields : ∀ f ∈ s.toFields, f.2.IsPlain := by
  intro f hf
  simp only [toFields, List.mem_cons, List.not_mem_nil, or_false] at hf
  rcases hf with rfl | rfl | rfl
  · exact .str _
  · exact .str _
  · cases s.lastRun with
    | none => exact .null
    | some t => exact .str _

theorem distinct_toFields : Json.distinct keys s.toFields = true := rfl

theorem ofFields_toFields (h : s.IsValid) : ofFields s.toFields = .ok s := by
  have hfingerprint : Json.required "fingerprint" (Json.shaped Json.str?) s.toFields
      = .ok s.fingerprint := rfl
  have hnext : Json.required "next_run_time" Stamp.ofJson s.toFields = .ok s.nextRun :=
    Stamp.ofJson_toJson h.nextRun
  have hlast : Json.optional "last_run" Stamp.ofJson s.toFields = .ok s.lastRun := by
    have hlookup : Json.lookup? "last_run" s.toFields = some (.ofOption Stamp.toJson s.lastRun) :=
      rfl
    unfold Json.optional
    rw [hlookup]
    cases ht : s.lastRun with
    | none => rfl
    | some t => exact congrArg (Except.map some) (Stamp.ofJson_toJson (h.lastRun t ht))
  unfold ofFields
  rw [hfingerprint, hlast, hnext]
  rfl

theorem ofText_text (h : s.IsValid) : ofText s.text = .ok s := by
  have hparse : Json.parseRecord? keys s.text = some (.obj s.toFields) :=
    Json.parseRecord?_record keys isPlain_of_mem_toFields
  unfold ofText
  rw [hparse]
  show (if Json.distinct keys s.toFields then ofFields s.toFields else throw .shape) = _
  rw [if_pos distinct_toFields, ofFields_toFields h]

theorem ofBytes_bytes (h : s.IsValid) : ofBytes s.bytes = .ok s := by
  rw [ofBytes, bytes, Json.textOf, Utf8.decode_encode, Json.fillGaps_map_some, String.ofList_toList,
    ofText_text h]

theorem isValid_of_required {key : String} {fields : List (String × Json)} {t : Stamp}
    (h : Json.required key Stamp.ofJson fields = .ok t) : t.IsValid := by
  unfold Json.required at h
  split at h
  case h_1 => exact nomatch h
  case h_2 => exact Stamp.isValid_of_ofJson h

theorem isValid_of_optional {key : String} {fields : List (String × Json)} {t : Stamp}
    (h : Json.optional key Stamp.ofJson fields = .ok (some t)) : t.IsValid := by
  unfold Json.optional at h
  split at h
  case h_1 => exact nomatch h
  case h_2 => exact nomatch h
  case h_3 v _ _ =>
    cases hv : Stamp.ofJson v with
    | error =>
      rw [hv] at h
      exact nomatch h
    | ok u =>
      rw [hv] at h
      cases h
      exact Stamp.isValid_of_ofJson hv

theorem isValid_of_ofText {text : String} (h : ofText text = .ok s) : s.IsValid := by
  unfold ofText at h
  dsimp only at h
  split at h
  case h_2 => exact nomatch h
  case h_1 j _ =>
    obtain ⟨_, -, h⟩ := bind_eq_ok.1 h
    obtain ⟨fields, -, h⟩ := bind_eq_ok.1 h
    split at h
    case isFalse => exact nomatch h
    case isTrue =>
      unfold ofFields at h
      obtain ⟨fingerprint, -, h⟩ := bind_eq_ok.1 h
      obtain ⟨lastRun, hlast, h⟩ := bind_eq_ok.1 h
      obtain ⟨nextRun, hnext, h⟩ := bind_eq_ok.1 h
      cases h
      exact ⟨isValid_of_required hnext,
        fun t ht => isValid_of_optional (hlast.trans (congrArg Except.ok ht))⟩

end SavedState

end Rota
