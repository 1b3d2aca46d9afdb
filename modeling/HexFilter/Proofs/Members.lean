import HexFilter.Proofs.Reading

/-! Objects as they are written, in front of a reader of members. A reader goes
from state to state, one written member at a time, and stops at the end of the
object; a record is read this way into its draft. -/
namespace HexFilter.Json

namespace Reader

variable {σ α : Type}

/-- What stands in front of a member. -/
def lead (first : Bool) : List Char := if first then [] else [',']

/-- Members one after the other. -/
def joined : Bool → List (List Char) → List Char
  | _, [] => []
  | first, member :: members => lead first ++ (member ++ joined false members)

theorem object_eq_joined (members : List (List Char)) :
    object members = '{' :: (joined true members ++ ['}']) := by
  have hJoined : ∀ first : List Char, ∀ members : List (List Char),
      ((first :: members).intersperse [',']).flatten = first ++ joined false members := by
    intro first members
    induction members generalizing first with
    | nil => simp [joined]
    | cons second members ih => simp [joined, lead, ih]
  cases members with
  | nil => rfl
  | cons member members => simp [object, hJoined, joined, lead]

/-- Behind a member stands another one or the end of the object. -/
theorem delimited_joined (members : List (List Char)) (rest : List Char) :
    Delimited (joined false members ++ '}' :: rest) := by
  cases members with
  | nil => exact .brace rest
  | cons member members => exact .comma _

/-- Round by round, one written member each, a reader of members gets from one
state to another. -/
inductive Collects (round : Bool × σ → Reader (Round (Bool × σ) σ)) :
    σ → List (List Char) → σ → Prop where
  | nil (state : σ) : Collects round state [] state
  | cons {state next final : σ} {key : String} {value : List Char} {members : List (List Char)}
      (takes : ∀ (first : Bool) (rest : List Char), Delimited rest →
        round (first, state) (lead first ++ (member key value ++ rest)) =
          .ok (.again (false, next), rest))
      (others : Collects round next members final) :
      Collects round state (member key value :: members) final

/-- Members that can be collected one by one are collected in one loop. -/
theorem Collects.iterate {round : Bool × σ → Reader (Round (Bool × σ) σ)} {state final : σ}
    {members : List (List Char)} (h : Collects round state members final)
    (hDone : ∀ first state rest,
      round (first, state) ('}' :: rest) = .ok (.done state, '}' :: rest))
    (first : Bool) (rest : List Char) :
    iterate round (first, state) (joined first members ++ '}' :: rest) =
      .ok (final, '}' :: rest) := by
  induction h generalizing first with
  | nil state =>
    rw [Reader.iterate]
    simp [joined, hDone]
  | @cons state next final key value members takes others ih =>
    have hText : joined first (member key value :: members) ++ '}' :: rest =
        lead first ++ (member key value ++ (joined false members ++ '}' :: rest)) := by
      simp [joined]
    -- The key alone uses up text, so the repetition goes on.
    have hShorter : (joined false members ++ '}' :: rest).length <
        (lead first ++ (member key value ++ (joined false members ++ '}' :: rest))).length := by
      simp [member, name]
      omega
    rw [hText, Reader.iterate, takes first _ (delimited_joined members rest)]
    simp only [hShorter, if_true, ih]

/-- The key of the next member is found behind what stands in front of it. -/
theorem nextMember_name (first : Bool) (key : String) (rest : List Char) :
    nextMember first (lead first ++ (name key ++ rest)) = .ok (true, name key ++ rest) := by
  cases first <;> rfl

theorem member_append (key : String) (value rest : List Char) :
    member key value ++ rest = name key ++ ':' :: (value ++ rest) :=
  List.append_assoc _ _ _

end Reader

namespace Shape

open Reader

variable {σ α : Type} {shape : Shape σ α}

/-- A written member of a known field that is not set yet is one more round of the
loop. -/
theorem memberRound_member {field : FieldReader σ} {key : String} {value : List Char}
    {draft next : σ} (hPlain : key.toList.all isPlain)
    (hField : shape.fields.find? (fun field => field.name.toList = key.toList) = some field)
    (hNew : field.isSet draft = false) (hValue : Takes (field.read draft) value next)
    (first : Bool) (rest : List Char) (hRest : Delimited rest) :
    shape.memberRound (first, draft) (lead first ++ (member key value ++ rest)) =
      .ok (.again (false, next), rest) := by
  have hText := text_append (':' :: (value ++ rest)) hPlain
  have hExpect : expect ':' (':' :: (value ++ rest)) = .ok ((), value ++ rest) := expect_cons _ rfl
  have hNext : shape.memberValue key.toList draft (':' :: (value ++ rest)) =
      .ok (next, rest) := by
    simp [memberValue, hField, hNew, hExpect, hValue rest hRest]
  simp [memberRound, member_append, nextMember_name, drop_name, hText, hNext]

/-- An object is read as what is made of its members. -/
theorem read_object {members : List (List Char)} {draft : σ} {value : α}
    (hMembers : Collects shape.memberRound shape.blank members draft)
    (hBuild : shape.build .missingField draft = .ok value) :
    Takes shape.read (object members) value := by
  intro rest hRest
  have hDone : ∀ first draft rest, shape.memberRound (first, draft) ('}' :: rest) =
      .ok (.done draft, '}' :: rest) := fun _ _ _ => rfl
  have hDraft := hMembers.iterate hDone true rest
  have hToken := token_cons (c := '{') (joined true members ++ '}' :: rest) rfl
  have hFinish : shape.finish .missingField draft ('}' :: rest) = .ok (value, '}' :: rest) := by
    rw [finish, hBuild]
    rfl
  have hExpect : expect '}' ('}' :: rest) = .ok ((), rest) := rfl
  rw [object_eq_joined, List.cons_append, List.append_assoc, List.singleton_append]
  simp [read, hToken, drop, hDraft, hFinish, hExpect]

end Shape

end HexFilter.Json
