import Mathlib
import Rota.Module.Command
import Rota.Proofs.Module.Output
import Rota.Proofs.Text.Utf8

/-!
# What a command module tells of a program's outputs

* `TellsBeginning`        nothing but the beginning of a text is told, and a short one whole;
* `CommandModule.Reports`   the two texts that a run tells, by its report and by its error;
* `CommandModule.reports_captured`   they are those of the bytes that are kept;
* `tells_beginning_iff`   when the law holds of the beginning of a text;
* `reports_tells_iff`     **a run tells the beginnings of both texts, and keeps the law exactly if the
                          limit cuts off no character**, whatever the pieces of the outputs.

A character that is cut off is told as U+FFFD.  So the law is also kept when that is the character.
-/

namespace Rota

open Text Utf8

/-- what is told of a text is nothing but its beginning, and all of it when all of it is kept -/
structure TellsBeginning (s told : String) : Prop where
  beginning : told.toList <+: s.toList
  whole : s.utf8ByteSize ≤ keptBytes → told = s
  own : ∀ c ∈ told.toList, c ∈ s.toList

def Report.text? (r : Report) (key : String) : Option String :=
  match r.payload with
  | .obj fields => (Json.lookup? key fields).bind Json.str?
  | _ => none

/-- what a run tells of the output and of the messages of a program that ended -/
structure CommandModule.Reports (m : CommandModule) (f : Finished) (out err : String) : Prop where
  report : ∃ r, (m.run (.ended f) true).2 = some r ∧ r.text? "stdout" = some out ∧
    r.text? "stderr" = some err
  result : (m.run (.ended f) true).1 =
    if f.status = some 0 then .ok () else .error (.exitStatus f.status err)
  closed : m.run (.ended f) false = (.error .channelClosed, none)

/-! ## runs -/

theorem Finished.child_eq {f : Finished} {out err : List UInt8} (hout : f.stdout.all = .ok out)
    (herr : f.stderr.all = .ok err) :
    f.child = .ok ⟨f.status, out.take keptBytes, err.take keptBytes⟩ := by
  rw [child, Output.capture_eq, Output.capture_eq, hout, herr]
  rfl

theorem captured_take (bs : List UInt8) : captured (bs.take keptBytes) = captured bs := by
  rw [captured, captured, List.take_take, Nat.min_self]

theorem CommandModule.reports_captured (m : CommandModule) {f : Finished} {out err : List UInt8}
    (hout : f.stdout.all = .ok out) (herr : f.stderr.all = .ok err) :
    m.Reports f (captured out) (captured err) := by
  have hchild := Finished.child_eq hout herr
  refine ⟨?_, ?_, ?_⟩
  · refine ⟨m.report ⟨f.status, out.take keptBytes, err.take keptBytes⟩, ?_, ?_, ?_⟩
    · simp only [run, hchild, if_pos]
    · rw [← captured_take out]
      rfl
    · rw [← captured_take err]
      rfl
  · simp only [run, hchild, if_pos, CommandModule.result, captured_take]
  · simp only [run, hchild, Bool.false_eq_true, if_false]

/-! ## texts -/

/-- a character that is cut off is not told, unless it is the sign for what cannot be read -/
theorem eq_replacement_of_tells {s before : String} {c : Char} (h : Divides keptBytes s before c)
    (htells : TellsBeginning s (before.push replacement)) : c = replacement := by
  obtain ⟨-, -, after, rfl⟩ := h
  have hfront := htells.beginning
  rw [String.toList_push, String.toList_append, List.prefix_append_right_inj, String.toList_append,
    String.toList_singleton, List.singleton_append, List.cons_prefix_cons] at hfront
  exact hfront.1.symm

theorem tells_of_front {s told : String} (h : told.toList <+: s.toList)
    (hwhole : s.utf8ByteSize ≤ keptBytes → told = s) : TellsBeginning s told :=
  ⟨h, hwhole, h.subset⟩

theorem tells_of_shows {s told : String} (h : Shows keptBytes s told)
    (hcut : ∀ before c, Divides keptBytes s before c → c = replacement) : TellsBeginning s told := by
  cases h with
  | whole => exact tells_of_front (List.prefix_refl _) fun _ => rfl
  | @between _ after hs hsize =>
    subst hs
    refine tells_of_front ?_ fun hwhole => ?_
    · rw [String.toList_append]
      exact List.prefix_append _ _
    · rw [String.utf8ByteSize_append] at hwhole
      have hafter : after = "" := String.utf8ByteSize_eq_zero_iff.1 (by omega)
      rw [hafter, String.append_empty]
  | @inside before c h =>
    obtain rfl := hcut before c h
    have hlt := h.lt_utf8ByteSize
    obtain ⟨-, -, after, rfl⟩ := h
    refine tells_of_front ?_ fun hwhole => by omega
    rw [String.toList_push, String.toList_append, List.prefix_append_right_inj, String.toList_append,
      String.toList_singleton]
    exact List.prefix_append _ _

/-- the beginning of a text obeys the law exactly if no character but the sign itself is cut off -/
theorem tells_beginning_iff (s : String) : TellsBeginning s (beginning keptBytes s) ↔
    ∀ before c, Divides keptBytes s before c → c = replacement := by
  constructor
  · intro htells before c h
    rw [h.beginning_eq] at htells
    exact eq_replacement_of_tells h htells
  · exact tells_of_shows (shows_beginning keptBytes s)

/-- **of a program whose outputs are texts, however they come in pieces, a run tells the beginnings of
the two texts**: the whole of one that fits, else what comes before the limit, with a sign for a
character that the limit cuts off.  Nothing but the beginning is told exactly if there is no such
character, or it is that sign; and an error tells the same messages as the report. -/
theorem reports_tells_iff (m : CommandModule) {f : Finished} {out err : String}
    (hout : f.stdout.all = .ok (encode out)) (herr : f.stderr.all = .ok (encode err)) :
    ∃ o e, m.Reports f o e ∧ Shows keptBytes out o ∧ Shows keptBytes err e ∧
      (TellsBeginning out o ↔ ∀ before c, Divides keptBytes out before c → c = replacement) ∧
      (TellsBeginning err e ↔ ∀ before c, Divides keptBytes err before c → c = replacement) := by
  have hreports : m.Reports f (beginning keptBytes out) (beginning keptBytes err) :=
    m.reports_captured hout herr
  refine ⟨beginning keptBytes out, beginning keptBytes err, hreports, ?_, ?_, ?_, ?_⟩
  · exact shows_beginning keptBytes out
  · exact shows_beginning keptBytes err
  · exact tells_beginning_iff out
  · exact tells_beginning_iff err

/-- a text that fits is told as it is, although a read ends inside a character of it -/
theorem reports_tells_iff_pieces :
    let m : CommandModule := ⟨"check", "sh", ["-c", "echo hé; echo oops >&2; exit 3"], 60000⟩
    let f : Finished := ⟨some 3, .ofPieces [[0x68, 0xC3], [0xA9, 0x0A]],
      .ofPieces [[0x6F], [0x6F, 0x70, 0x73, 0x0A]]⟩
    f.stdout.all = .ok (encode "hé\n") ∧ f.stderr.all = .ok (encode "oops\n") ∧
      m.Reports f "hé\n" "oops\n" := by
  intro m f
  have hout : f.stdout.all = .ok (encode "hé\n") := rfl
  have herr : f.stderr.all = .ok (encode "oops\n") := rfl
  obtain ⟨o, e, hreports, -, -, ho, he⟩ := reports_tells_iff m hout herr
  have hfits (s : String) (h : s.utf8ByteSize ≤ keptBytes) :
      ∀ before c, Divides keptBytes s before c → c = replacement := fun _ _ hcut =>
    absurd hcut.lt_utf8ByteSize (Nat.not_lt.2 h)
  have hsame : o = "hé\n" := (ho.2 (hfits _ (by decide))).whole (by decide)
  have hsame' : e = "oops\n" := (he.2 (hfits _ (by decide))).whole (by decide)
  exact ⟨hout, herr, hsame ▸ hsame' ▸ hreports⟩

/-- an output of 65535 letters and an `é` is told with a character at its end that it does not hold -/
theorem not_tells_cut :
    let m : CommandModule := ⟨"check", "sh", ["-c", "cat notes"], 60000⟩
    let row := String.ofList (List.replicate 65535 'a')
    let f : Finished := ⟨some 0, .ofPieces [List.replicate 65535 0x61, [0xC3, 0xA9]], .ended⟩
    f.stdout.all = .ok (encode (row ++ "é")) ∧ f.stderr.all = .ok (encode "") ∧
      (∃ r, (m.run (.ended f) true).2 = some r ∧ r.text? "stdout" = some (row.push '\ufffd')) ∧
      ¬ TellsBeginning (row ++ "é") (row.push '\ufffd') := by
  intro m row f
  have hrow : encode row = List.replicate 65535 0x61 := by
    have ha : String.utf8EncodeChar 'a' = [0x61] := rfl
    rw [encode_eq, String.toList_ofList, List.flatMap_replicate, ha,
      List.flatten_replicate_singleton]
  have hsize : row.utf8ByteSize = 65535 := by
    rw [← length_encode, hrow, List.length_replicate]
  have hout : f.stdout.all = .ok (encode (row ++ "é")) := by
    have hlast : encode "é" = [0xC3, 0xA9] := rfl
    rw [Output.all_ofPieces, encode_append, hrow, hlast]
    rfl
  have herr : f.stderr.all = .ok (encode "") := rfl
  have hcut : Divides keptBytes (row ++ "é") row 'é' := by
    have htwo : 'é'.utf8Size = 2 := rfl
    rw [Divides, hsize, htwo]
    exact ⟨by decide, by decide, "", rfl⟩
  have hreports : m.Reports f (beginning keptBytes (row ++ "é")) (beginning keptBytes "") :=
    m.reports_captured hout herr
  obtain ⟨r, hr, hstdout, -⟩ := hreports.report
  rw [hcut.beginning_eq] at hstdout
  refine ⟨hout, herr, ⟨r, hr, hstdout⟩, fun htells => ?_⟩
  exact absurd (eq_replacement_of_tells hcut htells) (by decide)

end Rota
