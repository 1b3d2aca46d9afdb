import HexFilter.Proofs.Additions
import HexFilter.Proofs.InStep
import HexFilter.Summary.Reader

/-! The entries of a timesheet as they stand in a text, before repeated stages are
merged and nanoseconds are carried. They are read in step with the timesheet, so
every timesheet that is read holds the last duration of each stage. -/
namespace HexFilter

open Json

/-- A field that is there is no reason to stop. -/
theorem Json.required_bind {α β : Type} (absent : String → Mismatch) (name : String) (value : α)
    (next : α → Except Mismatch β) : (required absent name (some value) >>= next) = next value :=
  rfl

namespace Duration

/-- A duration as it stands in a text. -/
structure Parts where
  secs : Nat
  nanos : Nat
deriving DecidableEq

namespace Parts

/-- The parts put together, with full seconds carried out of the nanoseconds. -/
def duration? (p : Parts) : Option Duration := ofParts? p.secs p.nanos

/-- Both parts can be written in their words. -/
structure InRange (p : Parts) : Prop where
  secs_lt : p.secs < UInt64.size
  nanos_lt : p.nanos < UInt32.size

instance (p : Parts) : Decidable p.InRange :=
  decidable_of_iff (p.secs < UInt64.size ∧ p.nanos < UInt32.size)
    ⟨fun h => ⟨h.1, h.2⟩, fun h => ⟨h.secs_lt, h.nanos_lt⟩⟩

def json (p : Parts) : List Char :=
  object [member "secs" (natural p.secs), member "nanos" (natural p.nanos)]

def shape : Shape Draft Parts :=
  { Duration.shape with
    build := fun absent d => do
      return ⟨← required absent "secs" d.secs, ← required absent "nanos" d.nanos⟩ }

def reader : Reader Parts := shape.read

end Parts

def parts (d : Duration) : Parts := ⟨d.secs, d.subsecNanos⟩

/-- The parts of a duration make up the duration. -/
theorem duration?_parts (d : Duration) : d.parts.duration? = some d :=
  ofNanos?_eq_some_iff.2 d.secs_mul_add_subsecNanos.symm

theorem inRange_parts (d : Duration) : d.parts.InRange where
  secs_lt := d.secs_lt
  nanos_lt := Nat.lt_trans d.subsecNanos_lt (by decide)

/-- Seconds and nanoseconds are put together if both are there. -/
theorem build_eq (absent : String → Mismatch) (secs nanos : Nat) :
    shape.build absent ⟨some secs, some nanos⟩ =
      match ofParts? secs nanos with
      | some d => .ok d
      | none => .error .longDuration := by
  -- One field at a time: unfolded at once, the product with a second is counted out.
  have hSteps : shape.build absent ⟨some secs, some nanos⟩ = (do
      let secs ← required absent "secs" (some secs)
      let nanos ← required absent "nanos" (some nanos)
      match ofParts? secs nanos with
      | some d => return d
      | none => throw .longDuration) := rfl
  rw [hSteps, required_bind, required_bind]
  cases ofParts? secs nanos <;> rfl

/-- A duration is read where its parts can be carried, and from the same texts. -/
theorem reader_inStep : Reader.InStep (fun d p => p.duration? = some d) reader Parts.reader := by
  have hShapes : Shape.InStep Eq (fun d p => p.duration? = some d) shape Parts.shape := {
    fields := List.forall₂_same.2 fun field _ => {
      name_eq := rfl
      isSet_eq := fun h => h ▸ rfl
      read := fun h => h ▸ Reader.InStep.refl _ }
    strict_eq := rfl
    blank := rfl
    build := by
      rintro absent otherAbsent ⟨secs, nanos⟩ _ value rfl hBuild
      cases secs with
      | none => cases hBuild
      | some secs =>
        cases nanos with
        | none => cases hBuild
        | some nanos =>
          refine ⟨⟨secs, nanos⟩, rfl, ?_⟩
          rw [build_eq] at hBuild
          cases hDuration : ofParts? secs nanos with
          | none => simp [hDuration] at hBuild
          | some d =>
            rw [hDuration] at hBuild
            cases hBuild
            exact hDuration }
  exact hShapes.read

end Duration

namespace Timesheet

section Reading

variable {σ τ δ ε : Type}

/-- A round of reading entries, for any way to read a duration and to keep it. -/
def roundOf (read : Reader δ) (put : σ → Stage → δ → σ) :
    Bool × σ → Reader (Reader.Round (Bool × σ) σ)
  | (first, state) => do
      if ← Reader.nextMember first then
        let stage ← Stage.reader
        Reader.expect ':'
        return .again (false, put state stage (← read))
      else return .done state

def entriesOf (read : Reader δ) (put : σ → Stage → δ → σ) (blank : σ) : Reader σ := do
  match ← Reader.token with
  | '{' =>
      Reader.drop
      let entries ← Reader.iterate (roundOf read put) (true, blank)
      Reader.expect '}'
      return entries
  | _ => Reader.mismatched "a map"

def shapeOf (read : Reader δ) (put : σ → Stage → δ → σ) (blank : σ) : Shape (Option σ) σ where
  expected := "struct StageTimes"
  expectedList := "struct StageTimes with 1 element"
  fields := [⟨"times", Option.isSome, fun _ => return some (← entriesOf read put blank)⟩]
  strict := false
  blank := none
  build absent entries := required absent "times" entries

theorem shape_eq : shape = shapeOf Duration.reader put {} := rfl

open Reader Reader.InStep

variable {T : σ → τ → Prop} {R : δ → ε → Prop} {read : Reader δ} {other : Reader ε}
  {put : σ → Stage → δ → σ} {putOther : τ → Stage → ε → τ}

/-- Ways to keep an entry that keep related states related. -/
def PutInStep (T : σ → τ → Prop) (R : δ → ε → Prop) (put : σ → Stage → δ → σ)
    (putOther : τ → Stage → ε → τ) : Prop :=
  ∀ state image stage value result, T state image → R value result →
    T (put state stage value) (putOther image stage result)

/-- One more entry is read in step, if what keeps it is. -/
theorem roundOf_inStep (hRead : InStep R read other) (hPut : PutInStep T R put putOther)
    {state : Bool × σ} {image : Bool × τ} (hState : SameState T state image) :
    InStep (SameRound (SameState T) T) (roundOf read put state) (roundOf other putOther image) := by
  cases hState with
  | intro first hState =>
    refine .andThen (nextMember first) fun more => ?_
    cases more
    · exact .pure (.done hState)
    · refine .andThen Stage.reader fun stage => .andThen (expect _) fun _ => ?_
      refine .bind hRead fun value result hValue => .pure (.again ⟨false, ?_⟩)
      exact hPut _ _ stage value result hState hValue

/-- Two readers of entries are in step, if what they keep is. -/
theorem shapeOf_inStep (hRead : InStep R read other) (hPut : PutInStep T R put putOther)
    {blank : σ} {otherBlank : τ} (hBlank : T blank otherBlank) :
    Shape.InStep (Option.Rel T) T (shapeOf read put blank) (shapeOf other putOther otherBlank) := by
  have hRound (state : Bool × σ) (image : Bool × τ) (hState : SameState T state image) :=
    roundOf_inStep hRead hPut hState
  have hEntries : InStep T (entriesOf read put blank) (entriesOf other putOther otherBlank) := by
    refine .andThen token fun c => ?_
    split
    · refine .andThen drop fun _ => .bind (.iterate hRound ⟨true, hBlank⟩) ?_
      intro entries image hSame
      exact .andThen (expect _) fun _ => .pure hSame
    · exact .of_fails (fails_mismatched _) _
  exact {
    fields := .cons {
      name_eq := rfl
      isSet_eq := fun h => by cases h <;> rfl
      read := fun _ => .bind hEntries fun _ _ hSame => .pure (.some hSame) } .nil
    strict_eq := rfl
    blank := .none
    build := by
      rintro absent otherAbsent _ _ value (hSame | _) hBuild
      · cases hBuild
        exact ⟨_, rfl, hSame⟩
      · cases hBuild }

end Reading

/-- All entries of a text, in their order. -/
abbrev Listing := List (Stage × Duration.Parts)

namespace Listing

def reader : Reader Listing :=
  (shapeOf Duration.Parts.reader (fun listing stage p => listing ++ [(stage, p)]) []).read

def json (listing : Listing) : List Char :=
  object [member "times" (object (listing.map fun entry => member entry.1.jsonName entry.2.json))]

def last? (listing : Listing) (stage : Stage) : Option Duration.Parts :=
  ((listing.filter fun entry => entry.1 = stage).getLast?).map Prod.snd

/-- A timesheet with the last duration of each stage in a listing. None of the
durations is too long. -/
structure Settles (listing : Listing) (t : Timesheet) : Prop where
  fits : ∀ entry ∈ listing, entry.2.duration?.isSome
  entry_eq : ∀ stage, t.entry stage = (listing.last? stage).bind Duration.Parts.duration?

/-- A later entry of a stage hides the earlier ones. -/
theorem last?_append (listing : Listing) (stage other : Stage) (p : Duration.Parts) :
    last? (listing ++ [(stage, p)]) other =
      if other = stage then some p else listing.last? other := by
  by_cases h : stage = other
  · simp [last?, h]
  · simp [last?, h, Ne.symm h]

theorem mem_of_last?_eq_some {listing : Listing} {stage : Stage} {p : Duration.Parts}
    (h : listing.last? stage = some p) : (stage, p) ∈ listing := by
  obtain ⟨entry, hLast, rfl⟩ := Option.map_eq_some_iff.1 h
  obtain ⟨hListed, hStage⟩ := List.mem_filter.1 (List.mem_of_getLast? hLast)
  exact of_decide_eq_true hStage ▸ hListed

/-- A stage without a last entry has none. -/
theorem notMem_of_last?_eq_none {listing : Listing} {stage : Stage}
    (h : listing.last? stage = none) (p : Duration.Parts) : (stage, p) ∉ listing := by
  intro hListed
  have hNone := List.getLast?_eq_none_iff.1 (Option.map_eq_none_iff.1 h)
  have hMem : (stage, p) ∈ listing.filter fun entry => entry.1 = stage :=
    List.mem_filter.2 ⟨hListed, decide_eq_true rfl⟩
  rw [hNone] at hMem
  cases hMem

theorem settles_nil : Settles [] {} where
  fits := by simp
  entry_eq := fun stage => by cases stage <;> rfl

/-- One more entry settles to the timesheet with that entry put in. -/
theorem Settles.put {listing : Listing} {t : Timesheet} (settles : listing.Settles t)
    (stage : Stage) {p : Duration.Parts} {d : Duration} (h : p.duration? = some d) :
    Settles (listing ++ [(stage, p)]) (t.put stage d) where
  fits := by
    intro entry hEntry
    rcases List.mem_append.1 hEntry with hOld | hNew
    · exact settles.fits entry hOld
    · rw [List.mem_singleton.1 hNew]
      exact Option.isSome_of_eq_some h
  entry_eq := by
    intro other
    rw [last?_append]
    by_cases hOther : other = stage
    · rw [if_pos hOther, hOther, entry_put_self, Option.bind_some, h]
    · rw [if_neg hOther, entry_put_of_ne t d hOther, settles.entry_eq]

/-- Entries settle to one timesheet. -/
theorem Settles.unique {listing : Listing} {t other : Timesheet} (settles : listing.Settles t)
    (same : listing.Settles other) : t = other :=
  ext_entry fun stage => by rw [settles.entry_eq, same.entry_eq]

end Listing

/-- What is read as a timesheet is also read as a listing, which the timesheet
settles. -/
theorem reader_inStep :
    Reader.InStep (fun t listing => Listing.Settles listing t) reader Listing.reader := by
  have hPut : PutInStep (fun t listing => Listing.Settles listing t)
      (fun d p => p.duration? = some d) put fun listing stage p => listing ++ [(stage, p)] :=
    fun _ _ stage _ _ settles h => settles.put stage h
  have hShapes := shapeOf_inStep Duration.reader_inStep hPut Listing.settles_nil
  rw [reader, shape_eq]
  exact hShapes.read

end Timesheet

end HexFilter
