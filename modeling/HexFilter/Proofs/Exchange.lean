import HexFilter.Proofs.Listing
import HexFilter.Proofs.Members

/-! A tally or a timesheet that is written as JSON and read again. -/
namespace HexFilter

open Json Json.Reader

/-- The name of a stage is read as the stage. -/
theorem Stage.reader_name (stage : Stage) (rest : List Char) :
    Stage.reader (name stage.jsonName ++ rest) = .ok (stage, rest) := by
  refine choiceOf_name rest ?_ ?_
  · cases stage <;> decide
  · cases stage <;> decide

namespace Duration

variable {p : Parts}

/-- Both parts of a duration are read as its members. -/
theorem Parts.InRange.collects (h : p.InRange) :
    Collects shape.memberRound {} [member "secs" (natural p.secs), member "nanos" (natural p.nanos)]
      ⟨some p.secs, some p.nanos⟩ :=
  .cons (Shape.memberRound_member (by decide) rfl rfl ((takes_word64 h.secs_lt).return _)) <|
  .cons (Shape.memberRound_member (by decide) rfl rfl ((takes_word32 h.nanos_lt).return _)) <|
  .nil _

theorem Parts.InRange.takes (h : p.InRange) : Takes Parts.reader p.json p :=
  Shape.read_object (show Collects Parts.shape.memberRound _ _ _ from h.collects) rfl

/-- A duration is read from parts in range, with its nanoseconds carried. -/
theorem Parts.InRange.takes_duration (h : p.InRange) {d : Duration}
    (hDuration : p.duration? = some d) : Takes Duration.reader p.json d := by
  refine Shape.read_object h.collects ?_
  have hParts : ofParts? p.secs p.nanos = some d := hDuration
  rw [build_eq, hParts]

end Duration

namespace Timesheet

section Entries

variable {σ δ : Type} {read : Reader δ} {put : σ → Stage → δ → σ}

/-- A written entry is one more round of the reader of entries. -/
theorem roundOf_member (state : σ) (stage : Stage) {text : List Char} {value : δ}
    (h : Takes read text value) (first : Bool) (rest : List Char) (hRest : Delimited rest) :
    roundOf read put (first, state) (lead first ++ (member stage.jsonName text ++ rest)) =
      .ok (.again (false, put state stage value), rest) := by
  have hStage := stage.reader_name (':' :: (text ++ rest))
  have hExpect : expect ':' (':' :: (text ++ rest)) = .ok ((), text ++ rest) := expect_cons _ rfl
  simp [roundOf, member_append, nextMember_name, hStage, hExpect, h rest hRest]

/-- Entries that are collected one by one are read as a whole. -/
theorem takes_shapeOf {blank final : σ} {members : List (List Char)}
    (h : Collects (roundOf read put) blank members final) :
    Takes (shapeOf read put blank).read (object [member "times" (object members)]) final := by
  have hEntries : Takes (entriesOf read put blank) (object members) final := by
    intro rest hRest
    have hDone : ∀ first state rest, roundOf read put (first, state) ('}' :: rest) =
        .ok (.done state, '}' :: rest) := fun _ _ _ => rfl
    have hFinal := h.iterate hDone true rest
    have hToken := token_cons (c := '{') (joined true members ++ '}' :: rest) rfl
    have hExpect : expect '}' ('}' :: rest) = .ok ((), rest) := expect_cons rest rfl
    rw [object_eq_joined, List.cons_append, List.append_assoc, List.singleton_append]
    simp [entriesOf, hToken, drop, hFinal, hExpect]
  have hField : (shapeOf read put blank).fields.find?
      (fun field => field.name.toList = "times".toList) =
        some ⟨"times", Option.isSome, fun _ => return some (← entriesOf read put blank)⟩ := by
    simp [shapeOf]
  have hMembers : Collects (shapeOf read put blank).memberRound none
      [member "times" (object members)] (some final) :=
    .cons (Shape.memberRound_member (by decide) hField rfl (hEntries.return some)) (.nil _)
  exact Shape.read_object hMembers rfl

end Entries

namespace Listing

/-- An entry as a member of the object of all entries. -/
def entryMember (entry : Stage × Duration.Parts) : List Char :=
  member entry.1.jsonName entry.2.json

/-- A written listing is read as it was. -/
theorem takes_json {listing : Listing} (h : ∀ entry ∈ listing, entry.2.InRange) :
    Takes reader listing.json listing := by
  have hCollects : ∀ before : Listing, Collects
      (roundOf Duration.Parts.reader fun listing stage p => listing ++ [(stage, p)])
      before (listing.map entryMember) (before ++ listing) := by
    induction listing with
    | nil =>
      intro before
      simpa using Collects.nil before
    | cons entry others ih =>
      intro before
      rw [List.forall_mem_cons] at h
      rw [List.append_cons]
      exact .cons (roundOf_member before entry.1 h.1.takes) (ih h.2 _)
  exact takes_shapeOf (hCollects [])

/-- A written listing is read as the timesheet that settles it. -/
theorem takes_timesheet {listing : Listing} (hRange : ∀ entry ∈ listing, entry.2.InRange)
    (hFits : ∀ entry ∈ listing, entry.2.duration?.isSome) :
    ∃ t, Takes Timesheet.reader listing.json t ∧ listing.Settles t := by
  have hCollects : ∀ (before : Listing) (t : Timesheet), before.Settles t →
      ∃ final, Collects (roundOf Duration.reader put) t (listing.map entryMember) final ∧
        (before ++ listing).Settles final := by
    induction listing with
    | nil =>
      intro before t settles
      exact ⟨t, .nil t, by simpa using settles⟩
    | cons entry others ih =>
      intro before t settles
      rw [List.forall_mem_cons] at hRange hFits
      obtain ⟨d, hDuration⟩ := Option.isSome_iff_exists.1 hFits.1
      obtain ⟨final, hOthers, hFinal⟩ := ih hRange.2 hFits.2 _ _ (settles.put entry.1 hDuration)
      rw [← List.append_cons] at hFinal
      have hEntry := hRange.1.takes_duration hDuration
      exact ⟨final, .cons (roundOf_member t entry.1 hEntry) hOthers, hFinal⟩
  obtain ⟨final, hMembers, hFinal⟩ := hCollects [] {} settles_nil
  refine ⟨final, ?_, hFinal⟩
  rw [Timesheet.reader, shape_eq]
  exact takes_shapeOf hMembers

end Listing

/-- The entries in a given order of the stages, as they are written. -/
def listing (t : Timesheet) (order : List Stage) : Listing :=
  order.filterMap fun stage => (t.entry stage).map fun d => (stage, d.parts)

/-- A timesheet has an entry in the listing for each of its stages, if the order has
the stage. -/
theorem mem_listing {t : Timesheet} {order : List Stage} {stage : Stage} {p : Duration.Parts} :
    (stage, p) ∈ t.listing order ↔ stage ∈ order ∧ ∃ d, t.entry stage = some d ∧ d.parts = p := by
  simp only [listing, List.mem_filterMap, Option.map_eq_some_iff]
  constructor
  · rintro ⟨stage, hStage, d, hEntry, hSame⟩
    cases hSame
    exact ⟨hStage, d, hEntry, rfl⟩
  · rintro ⟨hStage, d, hEntry, rfl⟩
    exact ⟨stage, hStage, d, hEntry, rfl⟩

/-- A timesheet is written like the listing of its entries. -/
theorem json_listing (t : Timesheet) (order : List Stage) :
    (t.listing order).json = t.jsonIn order := by
  have hMembers : (t.listing order).map Listing.entryMember = order.filterMap t.jsonEntry := by
    rw [listing, List.map_filterMap]
    congr 1
    funext stage
    rw [Option.map_map]
    rfl
  exact congrArg (fun members => object [member "times" (object members)]) hMembers

/-- In an order that leaves out no entry, every entry is listed. -/
theorem settles_listing (t : Timesheet) {order : List Stage}
    (hOrder : ∀ stage, t.contains stage → stage ∈ order) : (t.listing order).Settles t where
  fits := by
    rintro ⟨stage, p⟩ hListed
    obtain ⟨_, d, _, rfl⟩ := mem_listing.1 hListed
    exact Option.isSome_of_eq_some d.duration?_parts
  entry_eq := by
    intro stage
    cases hLast : (t.listing order).last? stage with
    | none =>
      cases hEntry : t.entry stage with
      | none => rfl
      | some d =>
        have hContains : t.contains stage := Option.isSome_of_eq_some hEntry
        have hListed := mem_listing.2 ⟨hOrder stage hContains, d, hEntry, rfl⟩
        exact absurd hListed (Listing.notMem_of_last?_eq_none hLast d.parts)
    | some p =>
      obtain ⟨_, d, hEntry, rfl⟩ := mem_listing.1 (Listing.mem_of_last?_eq_some hLast)
      rw [Option.bind_some, d.duration?_parts, hEntry]

/-- A written timesheet is read as it was, whatever the order of its entries. -/
theorem takes_jsonIn (t : Timesheet) {order : List Stage}
    (hOrder : ∀ stage, t.contains stage → stage ∈ order) : Takes reader (t.jsonIn order) t := by
  have settles := t.settles_listing hOrder
  have hRange : ∀ entry ∈ t.listing order, entry.2.InRange := by
    rintro ⟨stage, p⟩ hListed
    obtain ⟨_, d, _, rfl⟩ := mem_listing.1 hListed
    exact d.inRange_parts
  obtain ⟨other, hOther, same⟩ := Listing.takes_timesheet hRange settles.fits
  cases settles.unique same
  exact json_listing t order ▸ hOther

end Timesheet

namespace Tally

/-- The draft of a tally with all its fields read. -/
def draft (t : Tally) : Draft :=
  ⟨t.chunksRead.toNat, t.bytesIn.toNat, t.bytesOut.toNat, t.newlinesSkipped.toNat,
    t.pairsDecoded.toNat, t.danglingNibble⟩

/-- With all its fields set a draft makes up the tally. -/
theorem build_draft (absent : String → Mismatch) (t : Tally) : build absent t.draft = .ok t := by
  have hWord (w : UInt64) : w.toNat.toUInt64 = w := UInt64.ofNat_toNat
  simp only [build, draft, required_bind, hWord]
  rfl

theorem takes_json (t : Tally) : Takes reader t.json t := by
  have hMembers : Collects shape.memberRound {} t.jsonMembers t.draft := by
    have hWord (w : UInt64) : Takes word64 (natural w.toNat) w.toNat := takes_word64 w.toNat_lt
    exact
      .cons (Shape.memberRound_member (by decide) rfl rfl ((hWord _).return _)) <|
      .cons (Shape.memberRound_member (by decide) rfl rfl ((hWord _).return _)) <|
      .cons (Shape.memberRound_member (by decide) rfl rfl ((hWord _).return _)) <|
      .cons (Shape.memberRound_member (by decide) rfl rfl ((hWord _).return _)) <|
      .cons (Shape.memberRound_member (by decide) rfl rfl ((hWord _).return _)) <|
      .cons (Shape.memberRound_member (by decide) rfl rfl ((takes_boolean _).return _)) <|
      .nil _
  exact Shape.read_object hMembers (t.build_draft _)

end Tally

/-- A written listing is read as just the timesheet that settles it, if there is one. -/
theorem Timesheet.Listing.whole_json_eq_ok_iff {listing : Timesheet.Listing} {t : Timesheet}
    (h : ∀ entry ∈ listing, entry.2.InRange) :
    whole Timesheet.reader (String.ofList listing.json) = .ok t ↔ listing.Settles t := by
  have hListing := (takes_json h).whole
  constructor
  · intro hRead
    obtain ⟨image, hImage, settles⟩ := Timesheet.reader_inStep.whole hRead
    rw [hListing] at hImage
    cases hImage
    exact settles
  · intro settles
    obtain ⟨other, hOther, same⟩ := takes_timesheet h settles.fits
    rw [settles.unique same]
    exact hOther.whole

/-- Tallies and timesheets survive being written and read, the latter with their
entries in any order. So does whatever is read from a text; a timesheet that is read
holds the last duration of each stage, with full seconds carried. -/
theorem read_written_json :
    (∀ t : Tally, whole Tally.reader (String.ofList t.json) = .ok t) ∧
    (∀ (t : Timesheet) (order : List Stage), (∀ stage, t.contains stage → stage ∈ order) →
      whole Timesheet.reader (String.ofList (t.jsonIn order)) = .ok t) ∧
    (∀ (text : String) (t : Tally), whole Tally.reader text = .ok t →
      whole Tally.reader (String.ofList t.json) = .ok t) ∧
    (∀ (text : String) (t : Timesheet), whole Timesheet.reader text = .ok t →
      (∃ listing, whole Timesheet.Listing.reader text = .ok listing ∧ listing.Settles t) ∧
      ∀ order : List Stage, (∀ stage, t.contains stage → stage ∈ order) →
        whole Timesheet.reader (String.ofList (t.jsonIn order)) = .ok t) ∧
    ∀ listing : Timesheet.Listing, (∀ entry ∈ listing, entry.2.InRange) →
      whole Timesheet.Listing.reader (String.ofList listing.json) = .ok listing ∧
      ∀ t, whole Timesheet.reader (String.ofList listing.json) = .ok t ↔ listing.Settles t := by
  have hTimesheet (t : Timesheet) (order : List Stage)
      (hOrder : ∀ stage, t.contains stage → stage ∈ order) :
      whole Timesheet.reader (String.ofList (t.jsonIn order)) = .ok t :=
    (t.takes_jsonIn hOrder).whole
  refine ⟨fun t => t.takes_json.whole, hTimesheet, fun _ t _ => t.takes_json.whole, ?_, ?_⟩
  · intro text t hRead
    exact ⟨Timesheet.reader_inStep.whole hRead, hTimesheet t⟩
  · intro listing hRange
    exact ⟨(Timesheet.Listing.takes_json hRange).whole, fun t =>
      Timesheet.Listing.whole_json_eq_ok_iff hRange⟩

/-- The second duration of reading takes the place of the first, and its nanoseconds
carry it to the last second that there is. -/
theorem read_written_json_repeated :
    let entries : Timesheet.Listing := [(.read, ⟨1, 5⟩),
      (.write, ⟨18446744073709551615, 999999999⟩), (.read, ⟨18446744073709551611, 4294967295⟩)]
    let t : Timesheet :=
      { read := some ⟨18446744073709551615294967295, by decide⟩, write := some .longest }
    let tally : Tally := { bytesIn := 18446744073709551615, danglingNibble := true }
    (∀ entry ∈ entries, entry.2.InRange) ∧
    whole Timesheet.reader (String.ofList entries.json) = .ok t ∧
    (∀ stage, t.contains stage → stage ∈ [Stage.write, .read]) ∧
    whole Timesheet.reader (String.ofList (t.jsonIn [.write, .read])) = .ok t ∧
    whole Tally.reader (String.ofList tally.json) = .ok tally := by
  intro entries t tally
  have hRange : ∀ entry ∈ entries, entry.2.InRange := by decide
  have hOrder : ∀ stage, t.contains stage → stage ∈ [Stage.write, .read] := by
    intro stage
    cases stage <;> decide
  have settles : entries.Settles t := {
    fits := by decide
    entry_eq := fun stage => by cases stage <;> decide }
  obtain ⟨hTally, _, hTallyAgain, hAgain, hEntries⟩ := read_written_json
  have hRead := ((hEntries entries hRange).2 t).2 settles
  exact ⟨hRange, hRead, hOrder, (hAgain _ t hRead).2 _ hOrder, hTallyAgain _ tally (hTally tally)⟩

end HexFilter
