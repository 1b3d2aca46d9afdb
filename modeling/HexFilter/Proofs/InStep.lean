import HexFilter.Json.Record
import Mathlib.Data.List.Forall2

/-! Two readers that go through every text in step and make different values of
it. What the first one accepts the second one accepts too, and their values are
related: a reader that merges what it reads can be held against one that keeps
everything. -/
namespace HexFilter.Json

namespace Reader

variable {α β γ δ σ τ : Type} {R : α → β → Prop} {S : γ → δ → Prop} {T : σ → τ → Prop}

/-- Whenever the first reader takes a value, the second one takes a related value
and stops at the same place. -/
def InStep (R : α → β → Prop) (read : Reader α) (other : Reader β) : Prop :=
  ∀ (cs : List Char) (value : α) (rest : List Char), read cs = .ok (value, rest) →
    ∃ image, other cs = .ok (image, rest) ∧ R value image

/-- A reader that accepts no text. -/
def Fails (read : Reader α) : Prop := ∀ cs, ∃ fault, read cs = .error fault

theorem Fails.fail (fault : Fault) : Fails (fail fault : Reader α) := fun _ => ⟨fault, rfl⟩

/-- What fails in its second part fails. -/
theorem Fails.andThen (read : Reader α) {next : α → Reader γ} (h : ∀ value, Fails (next value)) :
    Fails (read >>= next) := by
  intro cs
  rw [bind_apply]
  cases read cs with
  | error fault => exact ⟨fault, rfl⟩
  | ok answer => exact h answer.1 answer.2

theorem fails_mismatched (expected : String) : Fails (mismatched expected : Reader α) := by
  refine .andThen token fun c => ?_
  -- Whatever stands here is read as far as its own faults win, and then reported.
  split
  case h_7 =>
    split
    · exact .andThen number fun n => .fail _
    · exact .fail _
  case h_4 => exact .andThen drop fun _ => .andThen text fun _ => .fail _
  case h_5 => exact .fail _
  case h_6 => exact .fail _
  all_goals exact .andThen (literal _) fun _ => .fail _

namespace InStep

theorem refl (read : Reader α) : InStep Eq read read :=
  fun _ value _ h => ⟨value, h, rfl⟩

theorem pure {value : α} {image : β} (h : R value image) :
    InStep R (pure value) (pure image) := by
  intro cs value' rest hRead
  cases hRead
  exact ⟨image, rfl, h⟩

/-- A reader that always fails is in step with any other. -/
theorem of_fails {read : Reader α} (h : Fails read) (other : Reader β) : InStep R read other := by
  intro cs value rest hRead
  obtain ⟨fault, hFault⟩ := h cs
  rw [hFault] at hRead
  cases hRead

/-- Readers that are in step one after the other are in step as a whole. -/
theorem bind {read : Reader α} {other : Reader β} {next : α → Reader γ} {otherNext : β → Reader δ}
    (hRead : InStep R read other)
    (hNext : ∀ value image, R value image → InStep S (next value) (otherNext image)) :
    InStep S (read >>= next) (other >>= otherNext) := by
  intro cs value rest hBoth
  rw [bind_apply] at hBoth
  cases hFirst : read cs with
  | error fault => simp [hFirst] at hBoth
  | ok answer =>
    obtain ⟨first, middle⟩ := answer
    obtain ⟨image, hImage, hRelated⟩ := hRead _ _ _ hFirst
    rw [hFirst] at hBoth
    obtain ⟨last, hLast, hFinal⟩ := hNext first image hRelated _ _ _ hBoth
    exact ⟨last, by rw [bind_apply, hImage]; exact hLast, hFinal⟩

/-- Both readers use the same first reader. -/
theorem andThen (read : Reader α) {next : α → Reader γ} {otherNext : α → Reader δ}
    (hNext : ∀ value, InStep S (next value) (otherNext value)) :
    InStep S (read >>= next) (read >>= otherNext) :=
  bind (refl read) fun value _ h => h ▸ hNext value

/-- Rounds that come to the same thing. -/
inductive SameRound (T : σ → τ → Prop) (R : α → β → Prop) : Round σ α → Round τ β → Prop where
  | again {state : σ} {image : τ} (h : T state image) : SameRound T R (.again state) (.again image)
  | done {value : α} {image : β} (h : R value image) : SameRound T R (.done value) (.done image)

/-- States of two readers of members, which are before the first member or not. -/
inductive SameState (T : σ → τ → Prop) : Bool × σ → Bool × τ → Prop where
  | intro (first : Bool) {state : σ} {image : τ} (h : T state image) :
      SameState T (first, state) (first, image)

/-- Loops are in step if each of their rounds is, whatever they have gathered so
far. -/
theorem iterate {round : σ → Reader (Round σ α)} {other : τ → Reader (Round τ β)}
    (hRound : ∀ state image, T state image → InStep (SameRound T R) (round state) (other image))
    {state : σ} {image : τ} (h : T state image) :
    InStep R (iterate round state) (iterate other image) := by
  intro cs value rest hRead
  induction hLength : cs.length using Nat.strongRecOn generalizing cs state image with
  | ind length ih =>
    rw [Reader.iterate] at hRead ⊢
    cases hFirst : round state cs with
    | error fault => simp [hFirst] at hRead
    | ok answer =>
      obtain ⟨result, middle⟩ := answer
      obtain ⟨otherResult, hOther, hSame⟩ := hRound state image h _ _ _ hFirst
      rw [hFirst] at hRead
      rw [hOther]
      cases hSame with
      | done hRelated =>
        cases hRead
        exact ⟨_, rfl, hRelated⟩
      | again hStates =>
        by_cases hShorter : middle.length < cs.length
        · simp only [hShorter, if_true] at hRead ⊢
          exact ih middle.length (hLength ▸ hShorter) hStates middle hRead rfl
        · simp [hShorter] at hRead

/-- Whole texts are read in step as well. -/
theorem whole {read : Reader α} {other : Reader β} (h : InStep R read other) {text : String}
    {value : α} (hRead : whole read text = .ok value) :
    ∃ image, whole other text = .ok image ∧ R value image := by
  unfold Reader.whole at hRead ⊢
  cases hFirst : read text.toList with
  | error fault => simp [hFirst] at hRead
  | ok answer =>
    obtain ⟨first, rest⟩ := answer
    obtain ⟨image, hImage, hRelated⟩ := h _ _ _ hFirst
    simp only [hFirst, hImage] at hRead ⊢
    by_cases hEnd : (rest.dropWhile isBlank).isEmpty
    · rw [if_pos hEnd] at hRead ⊢
      cases hRead
      exact ⟨image, rfl, hRelated⟩
    · rw [if_neg hEnd] at hRead
      cases hRead

end InStep

end Reader

/-- Two fields of one name whose readers keep their drafts related. -/
structure FieldReader.InStep {σ τ : Type} (T : σ → τ → Prop) (field : FieldReader σ)
    (other : FieldReader τ) : Prop where
  name_eq : other.name = field.name
  isSet_eq : ∀ {draft image}, T draft image → other.isSet image = field.isSet draft
  read : ∀ {draft image}, T draft image → Reader.InStep T (field.read draft) (other.read image)

/-- Two records with the same fields whose readers keep their drafts related. -/
structure Shape.InStep {σ τ α β : Type} (T : σ → τ → Prop) (R : α → β → Prop) (shape : Shape σ α)
    (other : Shape τ β) : Prop where
  fields : List.Forall₂ (FieldReader.InStep T) shape.fields other.fields
  strict_eq : other.strict = shape.strict
  blank : T shape.blank other.blank
  build : ∀ (absent otherAbsent : String → Mismatch) {draft image value}, T draft image →
    shape.build absent draft = .ok value →
      ∃ result, other.build otherAbsent image = .ok result ∧ R value result

namespace Shape.InStep

open Reader Reader.InStep

variable {α β σ τ : Type} {T : σ → τ → Prop} {R : α → β → Prop} {shape : Shape σ α}
  {other : Shape τ β}

/-- A key finds fields of both records, or of neither. -/
theorem find?_fields (key : List Char) {fields : List (FieldReader σ)}
    {others : List (FieldReader τ)} (h : List.Forall₂ (FieldReader.InStep T) fields others) :
    fields.find? (fun field => field.name.toList = key) = none ∧
        others.find? (fun field => field.name.toList = key) = none ∨
      ∃ field otherField, fields.find? (fun field => field.name.toList = key) = some field ∧
        others.find? (fun field => field.name.toList = key) = some otherField ∧
        FieldReader.InStep T field otherField := by
  induction h with
  | nil => exact .inl ⟨rfl, rfl⟩
  | @cons field otherField fields others hField hFields ih =>
    by_cases hKey : field.name.toList = key
    · exact .inr ⟨field, otherField, by simp [hKey], by simp [hField.name_eq, hKey], hField⟩
    · simpa [hKey, hField.name_eq] using ih

/-- The value of a member is read in step, whether its key is known or not. -/
theorem memberValue (h : Shape.InStep T R shape other) (key : List Char) {draft : σ} {image : τ}
    (hDraft : T draft image) :
    Reader.InStep T (shape.memberValue key draft) (other.memberValue key image) := by
  unfold Shape.memberValue
  rcases find?_fields key h.fields with
    ⟨hField, hOther⟩ | ⟨field, otherField, hField, hOther, hSame⟩
  · rw [hField, hOther, h.strict_eq]
    cases shape.strict
    · exact .andThen (expect _) fun _ => .andThen skip fun _ => .pure hDraft
    · exact .of_fails (.fail _) _
  · simp only [hField, hOther, hSame.isSet_eq hDraft]
    cases field.isSet draft
    · exact .andThen (expect _) fun _ => hSame.read hDraft
    · exact .of_fails (.fail _) _

/-- One more member is read in step. -/
theorem memberRound (h : Shape.InStep T R shape other) {state : Bool × σ} {image : Bool × τ}
    (hState : SameState T state image) :
    Reader.InStep (SameRound (SameState T) T) (shape.memberRound state)
      (other.memberRound image) := by
  cases hState with
  | intro first hDraft =>
    refine .andThen (nextMember first) fun more => ?_
    cases more
    · exact .pure (.done hDraft)
    · refine .andThen drop fun _ => .andThen text fun key => ?_
      exact .bind (h.memberValue key hDraft) fun _ _ hNext => .pure (.again ⟨false, hNext⟩)

/-- The elements of a list are read in step, field by field. -/
theorem elements {fields : List (FieldReader σ)} {others : List (FieldReader τ)}
    (h : List.Forall₂ (FieldReader.InStep T) fields others) (first : Bool) {draft : σ} {image : τ}
    (hDraft : T draft image) :
    Reader.InStep T (Shape.elements first fields draft) (Shape.elements first others image) := by
  induction h generalizing first draft image with
  | nil => exact .pure hDraft
  | cons hField hFields ih =>
    refine .andThen (nextElement first) fun more => ?_
    cases more
    · exact .pure hDraft
    · exact .bind (hField.read hDraft) fun next nextImage hNext => ih false hNext

theorem finish (h : Shape.InStep T R shape other) (absent otherAbsent : String → Mismatch)
    {draft : σ} {image : τ} (hDraft : T draft image) :
    Reader.InStep R (shape.finish absent draft) (other.finish otherAbsent image) := by
  unfold Shape.finish
  cases hBuild : shape.build absent draft with
  | error cause => exact .of_fails (.fail _) _
  | ok value =>
    obtain ⟨result, hResult, hRelated⟩ := h.build absent otherAbsent hDraft hBuild
    rw [hResult]
    exact .pure hRelated

/-- A record is read in step with another one if its fields are, and what is made of
them. -/
theorem read (h : Shape.InStep T R shape other) : Reader.InStep R shape.read other.read := by
  refine .andThen token fun c => ?_
  split
  · refine .andThen drop fun _ => ?_
    refine .bind (.iterate (fun _ _ hState => h.memberRound hState) ⟨true, h.blank⟩) ?_
    intro draft image hDraft
    refine .bind (h.finish _ _ hDraft) fun value result hValue => ?_
    exact .andThen (expect _) fun _ => .pure hValue
  · refine .andThen drop fun _ => .bind (elements h.fields true h.blank) ?_
    intro draft image hDraft
    refine .bind (h.finish _ _ hDraft) fun value result hValue => ?_
    exact .andThen (expect _) fun _ => .pure hValue
  · exact .of_fails (fails_mismatched _) _

end Shape.InStep

end HexFilter.Json
