import HexFilter.Proofs.Exchange
import HexFilter.Proofs.Ratios

/-! A summary that is written as JSON and read again. Its counts and times come back
as they were. Its ratios are written with the shortest figures and read with up to
three roundings, so they may come back as a neighbour of what they were. -/
namespace HexFilter

open Json Json.Reader

theorem Mode.takes_json (mode : Mode) : Takes Mode.reader mode.json mode := by
  intro rest _
  refine choiceOf_name rest ?_ ?_
  · cases mode <;> decide
  · cases mode <;> decide

theorem Duration.takes_json (d : Duration) : Takes Duration.reader d.json d :=
  d.inRange_parts.takes_duration d.duration?_parts

/-- All stages have a name. -/
theorem Stage.mem_byName (stage : Stage) : stage ∈ byName := by
  cases stage <;> decide

attribute [ext] Summary

namespace Summary

/-- A written summary is read as it was, but for what becomes of its ratios. -/
theorem takes_jsonIn (s : Summary) {order : List Stage}
    (hOrder : ∀ stage, s.times.contains stage → stage ∈ order)
    {expansionRatio throughput : Binary64}
    (hRatio : Takes Reader.double (Json.double s.expansionRatio) expansionRatio)
    (hThroughput : Takes Reader.double (Json.double s.throughput) throughput) :
    Takes reader (s.jsonIn order) { s with expansionRatio, throughput } := by
  have hWord (w : UInt64) : Takes word64 (natural w.toNat) w.toNat := takes_word64 w.toNat_lt
  have hMembers : Collects shape.memberRound {}
      ([member "mode" s.mode.json] ++ s.tally.jsonMembers ++
        [member "expansion_ratio" (Json.double s.expansionRatio),
          member "throughput_in_bytes_per_sec" (Json.double s.throughput),
          member "elapsed" s.elapsed.json,
          member "stage_times" (s.times.jsonIn order)])
      ⟨s.mode, s.tally.draft, expansionRatio, throughput, s.elapsed, s.times⟩ :=
    .cons (Shape.memberRound_member (by decide) rfl rfl (s.mode.takes_json.return _)) <|
    .cons (Shape.memberRound_member (by decide) rfl rfl ((hWord _).return _)) <|
    .cons (Shape.memberRound_member (by decide) rfl rfl ((hWord _).return _)) <|
    .cons (Shape.memberRound_member (by decide) rfl rfl ((hWord _).return _)) <|
    .cons (Shape.memberRound_member (by decide) rfl rfl ((hWord _).return _)) <|
    .cons (Shape.memberRound_member (by decide) rfl rfl ((hWord _).return _)) <|
    .cons (Shape.memberRound_member (by decide) rfl rfl ((takes_boolean _).return _)) <|
    .cons (Shape.memberRound_member (by decide) rfl rfl (hRatio.return _)) <|
    .cons (Shape.memberRound_member (by decide) rfl rfl (hThroughput.return _)) <|
    .cons (Shape.memberRound_member (by decide) rfl rfl (s.elapsed.takes_json.return _)) <|
    .cons (Shape.memberRound_member (by decide) rfl rfl ((s.times.takes_jsonIn hOrder).return _)) <|
    .nil _
  refine Shape.read_object hMembers ?_
  simp only [shape, required_bind, Tally.build_draft]
  rfl

/-- What became of a ratio that was written and read again. Both are finite and not
negative, and the one read is as many places away from the one written as there
were roundings of its digits and its power of ten, at most. -/
structure Reread (written read : Binary64) : Prop where
  written_finite : written.isFinite
  read_finite : read.isFinite
  written_sign : written.negative = false
  read_sign : read.negative = false
  apart : Binary64.Apart (Binary64.roundings written.rank) read.rank written.rank

/-- Without a rounding before the last one a ratio comes back as it was. -/
theorem Reread.eq {written read : Binary64} (reread : Reread written read)
    (hNone : Binary64.roundings written.rank = 0) : read = written := by
  obtain ⟨negative, rank⟩ := written
  obtain ⟨negative', rank'⟩ := read
  have apart := reread.apart
  rw [hNone] at apart
  obtain rfl : rank' = rank := apart.eq
  obtain rfl : negative' = negative := reread.read_sign.trans reread.written_sign.symm
  rfl

/-- An ordinary number is read as a near one. -/
theorem exists_reread {x : Binary64} (hSign : x.negative = false)
    (ordinary : Binary64.Ordinary x.rank) :
    ∃ read, Takes Reader.double (Json.double x) read ∧ Reread x read := by
  obtain ⟨negative, rank⟩ := x
  obtain rfl : negative = false := hSign
  obtain ⟨read, hTakes, hFinite, apart⟩ := ordinary.exists_takes
  refine ⟨⟨false, read⟩, hTakes, ?_, ?_, rfl, rfl, apart⟩
  · simpa [Binary64.isFinite] using ordinary.lt_infinity
  · simpa [Binary64.isFinite] using hFinite

section Ratios

variable (mode : Mode) (tally : Tally) (watch : Stopwatch) (now : Duration)

theorem exists_reread_expansionRatio : ∃ read,
    Takes Reader.double (Json.double (Summary.of mode tally watch now).expansionRatio) read ∧
      Reread (Summary.of mode tally watch now).expansionRatio read :=
  exists_reread (ratio_negative _ _) (ordinary_expansionRatio mode tally watch now)

theorem exists_reread_throughput : ∃ read,
    Takes Reader.double (Json.double (Summary.of mode tally watch now).throughput) read ∧
      Reread (Summary.of mode tally watch now).throughput read :=
  exists_reread (ratio_negative _ _) (ordinary_throughput mode tally watch now)

/-- A text of a summary is read as the summary it was made from, but for its ratios. -/
theorem exists_read_of {order : List Stage}
    (hOrder : ∀ stage, (Summary.of mode tally watch now).times.contains stage → stage ∈ order) :
    let s := Summary.of mode tally watch now
    ∃ read, whole reader (String.ofList (s.jsonIn order)) = .ok read ∧
      read.mode = s.mode ∧ read.tally = s.tally ∧ read.elapsed = s.elapsed ∧
      read.times = s.times ∧ Reread s.expansionRatio read.expansionRatio ∧
      Reread s.throughput read.throughput := by
  intro s
  obtain ⟨expansionRatio, hRatio, ratio⟩ := exists_reread_expansionRatio mode tally watch now
  obtain ⟨throughput, hThroughput, through⟩ := exists_reread_throughput mode tally watch now
  exact ⟨_, (s.takes_jsonIn hOrder hRatio hThroughput).whole, rfl, rfl, rfl, rfl, ratio, through⟩

end Ratios

/-- A summary survives being written as JSON and read again, with the entries of its
timesheet in any order, but for its ratios: they are finite numbers that may come
back as a neighbour. -/
theorem read_written_summary (mode : Mode) (tally : Tally) (watch : Stopwatch) (now : Duration) :
    let s := Summary.of mode tally watch now
    s.json = s.jsonIn Stage.byName ∧
    ∀ order : List Stage, (∀ stage, s.times.contains stage → stage ∈ order) →
      ∃ read, whole reader (String.ofList (s.jsonIn order)) = .ok read ∧
        read.mode = s.mode ∧ read.tally = s.tally ∧ read.elapsed = s.elapsed ∧
        read.times = s.times ∧ Reread s.expansionRatio read.expansionRatio ∧
        Reread s.throughput read.throughput := by
  intro s
  exact ⟨rfl, fun order hOrder => exists_read_of mode tally watch now hOrder⟩

/-- Two and a half and two are exact in a few digits, so nothing changes. The stages
are written in the order in which they were timed. -/
theorem read_written_summary_same :
    let tally : Tally := { chunksRead := 1, bytesIn := 2, bytesOut := 5 }
    let times : Timesheet :=
      { read := some ⟨1999999999, by decide⟩
        encode := some .zero
        flush := some ⟨3000000007, by decide⟩ }
    let watch : Stopwatch := { started := .zero, times }
    let s := Summary.of .encode tally watch ⟨1000000000, by decide⟩
    let order : List Stage := [.read, .encode, .write, .flush]
    s.jsonIn order ≠ s.json ∧
      (∀ stage, s.times.contains stage ↔ stage ∈ [Stage.read, .encode, .flush]) ∧
      whole reader (String.ofList (s.jsonIn order)) = .ok s := by
  intro tally times watch s order
  have hTimed (stage : Stage) : s.times.contains stage ↔ stage ∈ [Stage.read, .encode, .flush] := by
    cases stage <;> decide
  have hOrder (stage : Stage) (hStage : s.times.contains stage) : stage ∈ order := by
    have hMem := (hTimed stage).mp hStage
    revert hMem
    cases stage <;> decide
  obtain ⟨_, hReads⟩ := read_written_summary .encode tally watch ⟨1000000000, by decide⟩
  obtain ⟨read, hRead, hMode, hTally, hElapsed, hTimes, ratio, through⟩ := hReads order hOrder
  have hRatio : read.expansionRatio = s.expansionRatio := ratio.eq (by decide +kernel)
  have hThroughput : read.throughput = s.throughput := through.eq (by decide +kernel)
  refine ⟨by decide +kernel, hTimed, ?_⟩
  rw [hRead, Summary.ext hMode hTally hRatio hThroughput hElapsed hTimes]

/-- An eleventh is written with sixteen digits, which spell too large a number for a
double, and comes back as the next number. -/
theorem read_written_summary_drifts :
    let tally : Tally :=
      { chunksRead := 1, bytesIn := 11, bytesOut := 1, newlinesSkipped := 9, pairsDecoded := 1 }
    let s := Summary.of .decode tally { started := .zero } ⟨1000000000, by decide⟩
    whole reader (String.ofList s.json) ≠ .ok s ∧
      ∃ read, whole reader (String.ofList s.json) = .ok read ∧
        read.expansionRatio.rank = s.expansionRatio.rank + 1 := by
  intro tally s
  let spelling : Spelling := ⟨['0'], some "09090909090909091".toList, none⟩
  have hText : Json.double s.expansionRatio = spelling.text := by decide +kernel
  have isDouble : spelling.IsDouble :=
    ⟨by decide, List.all_eq_true.mp (by decide), by decide, by decide,
      List.all_eq_true.mp (by decide), .inl rfl⟩
  have hScale : Numeral.scale (Binary64.rankOf spelling.digits 1) spelling.power =
      some (s.expansionRatio.rank + 1) := by decide +kernel
  have hRatio : Takes Reader.double (Json.double s.expansionRatio)
      ⟨false, s.expansionRatio.rank + 1⟩ := by
    rw [hText]
    exact Spelling.takes_double isDouble (by decide) hScale
  obtain ⟨throughput, hThroughput, _⟩ :=
    exists_reread_throughput .decode tally { started := .zero } ⟨1000000000, by decide⟩
  have hRead : whole reader (String.ofList s.json) =
      .ok { s with expansionRatio := ⟨false, s.expansionRatio.rank + 1⟩, throughput } :=
    (s.takes_jsonIn (fun stage _ => stage.mem_byName) hRatio hThroughput).whole
  refine ⟨fun hSame => ?_, _, hRead, rfl⟩
  rw [hRead] at hSame
  have hRanks := congrArg (fun read => read.expansionRatio.rank) (Except.ok.inj hSame)
  exact absurd hRanks (Nat.succ_ne_self _)

end Summary

end HexFilter
