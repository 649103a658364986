import Mathlib
import Rota.Module.Output

/-!
# Reading outputs

However an output comes in pieces, what is kept of it is the beginning of all that there is.

* `Output.Splits`          an output is what was read of it, and what is still to be read;
* `Output.of_read`         what one read does;
* `Output.readUpTo_cases`  what reading up to a number of bytes does;
* `Output.drain_eq`        draining reads all that is left;
* `Output.capture_eq`      **the first bytes of the whole output are kept, and a read that fails
                           fails it all**.
-/

namespace Rota.Output

variable {o o' rest : Output} {room : Nat} {got more : List UInt8}

/-- all of an output is what was read of it, and then all that is still to be read -/
def Splits (o : Output) (got : List UInt8) (rest : Output) : Prop :=
  o.all = rest.all.map (got ++ ·)

theorem Splits.nil (o : Output) : o.Splits [] o := by
  show o.all = o.all.map id
  cases o.all <;> rfl

theorem Splits.trans (h : o.Splits got o') (h' : o'.Splits more rest) :
    o.Splits (got ++ more) rest := by
  rw [Splits] at h h' ⊢
  rw [h, h']
  cases rest.all with
  | error reason => rfl
  | ok bs => exact congrArg Except.ok (List.append_assoc got more bs).symm

theorem splits_put (bs : List UInt8) (o : Output) : (put bs o).Splits bs o := by
  cases bs with
  | nil => exact Splits.nil o
  | cons b bs => rfl

theorem all_ofPieces (pieces : List (List UInt8)) : (ofPieces pieces).all = .ok pieces.flatten := by
  induction pieces with
  | nil => rfl
  | cons bs pieces ih =>
    have hput := splits_put bs (ofPieces pieces)
    rw [Splits, ih] at hput
    exact hput

/-! ## one read -/

theorem of_read (h : o.read room = .ok (got, rest)) : o.Splits got rest ∧ got.length ≤ room := by
  cases o with
  | ended =>
    cases h
    exact ⟨rfl, Nat.zero_le room⟩
  | broken reason => exact nomatch h
  | piece b bs o =>
    cases h
    have hput := splits_put ((b :: bs).drop room) o
    refine ⟨?_, List.length_take_le room (b :: bs)⟩
    rw [Splits] at hput ⊢
    rw [hput, all]
    cases o.all with
    | error reason => rfl
    | ok cs =>
      show Except.ok (b :: bs ++ cs) = Except.ok ((b :: bs).take room ++ ((b :: bs).drop room ++ cs))
      rw [← List.append_assoc, List.take_append_drop]

theorem eq_ended_of_read (hroom : room ≠ 0) (h : o.read room = .ok ([], rest)) : rest = .ended := by
  cases o with
  | ended =>
    cases h
    rfl
  | broken reason => exact nomatch h
  | piece b bs o =>
    rcases List.take_eq_nil_iff.1 (Prod.mk.inj (Except.ok.inj h)).1 with hzero | hnil
    · exact absurd hzero hroom
    · exact nomatch hnil

theorem all_of_read_error {reason : String} (h : o.read room = .error reason) :
    o.all = .error reason := by
  cases o with
  | ended => exact nomatch h
  | broken reason =>
    cases h
    rfl
  | piece b bs o => exact nomatch h

/-! ## many reads -/

/-- reading up to a number of bytes fails where a read fails; else it finds the front, and fewer bytes
than that only when the output ends -/
theorem readUpTo_cases (room : Nat) (o : Output) :
    (∃ reason, o.readUpTo room = .error reason ∧ o.all = .error reason) ∨
    ∃ got rest, o.readUpTo room = .ok (got, rest) ∧ o.Splits got rest ∧ got.length ≤ room ∧
      (got.length = room ∨ rest = .ended) := by
  fun_induction readUpTo room o with
  | case1 o => exact .inr ⟨[], o, rfl, Splits.nil o, Nat.le_refl 0, .inl rfl⟩
  | case2 room o hroom reason hread => exact .inl ⟨reason, rfl, all_of_read_error hread⟩
  | case3 room o hroom rest hread =>
    exact .inr ⟨[], rest, rfl, (of_read hread).1, Nat.zero_le room,
      .inr (eq_ended_of_read hroom hread)⟩
  | case4 room o hroom b bs left hread ih =>
    obtain ⟨hfirst, hlength⟩ := of_read hread
    rw [List.length_cons] at hlength
    obtain ⟨reason, hfails, hall⟩ | ⟨more, rest, hmore, hthen, hle, hend⟩ := ih
    · refine .inl ⟨reason, ?_, ?_⟩
      · rw [hfails]
        rfl
      · rw [hfirst, hall]
        rfl
    · refine .inr ⟨b :: bs ++ more, rest, ?_, hfirst.trans hthen, ?_, ?_⟩
      · rw [hmore]
        rfl
      · rw [List.length_append, List.length_cons]
        omega
      · rw [List.length_append, List.length_cons]
        exact hend.imp_left fun hmost => by omega

theorem drain_eq (o : Output) : o.drain = o.all.map List.length := by
  fun_induction drain o with
  | case1 o reason hread =>
    rw [all_of_read_error hread]
    rfl
  | case2 o rest hread =>
    rw [(of_read hread).1, eq_ended_of_read (by decide) hread]
    rfl
  | case3 o b bs rest hread ih =>
    rw [(of_read hread).1, ih]
    cases rest.all with
    | error reason => rfl
    | ok cs =>
      show Except.ok _ = Except.ok _
      rw [List.length_append, List.length_cons]

/-- **what is kept of an output is the beginning of the whole, however it comes in pieces; a read that
fails, be it after that, fails it all** -/
theorem capture_eq (o : Output) : o.capture = o.all.map (List.take keptBytes) := by
  obtain ⟨reason, hfails, hall⟩ | ⟨kept, rest, hkept, hsplits, hle, hend⟩ :=
    readUpTo_cases keptBytes o
  · rw [capture, hfails, hall]
    rfl
  · rw [capture, hkept]
    show (do let _ ← rest.drain; return kept) = _
    rw [drain_eq, hsplits]
    cases hrest : rest.all with
    | error reason => rfl
    | ok bs =>
      show Except.ok kept = Except.ok ((kept ++ bs).take keptBytes)
      -- all that is kept was read, or there is no more than that
      rcases hend with hlength | rfl
      · rw [← hlength, List.take_left]
      · cases hrest
        rw [List.append_nil, List.take_of_length_le hle]

end Rota.Output
