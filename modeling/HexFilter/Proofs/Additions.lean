import HexFilter.Proofs.Timing
import Mathlib.Algebra.BigOperators.Group.List.Basic
import Mathlib.Algebra.GroupWithZero.Nat
import Mathlib.Data.Option.Basic

/-! A timesheet against all durations that were added to it. It keeps one sum for
each stage, and these sums alone decide whether a further duration fits, so nothing
depends on the order of the additions. -/
namespace HexFilter

namespace Duration

/-- A duration is told by its nanoseconds. -/
theorem nanos_injective : Function.Injective nanos := by
  rintro ⟨a, _⟩ ⟨b, _⟩ h
  cases h
  rfl

/-- The duration of so many nanoseconds is the one that has them. -/
theorem ofNanos?_eq_some_iff {nanos : Nat} {d : Duration} :
    ofNanos? nanos = some d ↔ d.nanos = nanos := by
  have hLimit : d.nanos < limit := d.lt_limit
  unfold ofNanos?
  split
  · rw [Option.some.injEq]
    exact ⟨fun h => by rw [← h], fun h => nanos_injective h.symm⟩
  · simp only [reduceCtorEq, false_iff]
    omega

/-- Only what is longer than the longest duration is no duration. -/
theorem ofNanos?_eq_none_iff {nanos : Nat} : ofNanos? nanos = none ↔ longest.nanos < nanos := by
  have hLongest : longest.nanos = limit - 1 := rfl
  have hLimit : 0 < limit := by decide
  unfold ofNanos?
  split
  · simp only [reduceCtorEq, false_iff]
    omega
  · simp only [true_iff]
    omega

/-- The whole seconds and the rest make up all nanoseconds. -/
theorem secs_mul_add_subsecNanos (d : Duration) : d.secs * second + d.subsecNanos = d.nanos :=
  Nat.div_add_mod' _ _

theorem subsecNanos_lt (d : Duration) : d.subsecNanos < second := Nat.mod_lt _ (by decide)

theorem secs_lt (d : Duration) : d.secs < UInt64.size :=
  Nat.div_lt_of_lt_mul (Nat.mul_comm _ _ ▸ d.lt_limit)

/-- The exact sum, whether or not it is a duration. -/
def sum (ds : List Duration) : Nat := (ds.map nanos).sum

theorem sum_cons (d : Duration) (ds : List Duration) : sum (d :: ds) = d.nanos + sum ds := by
  rw [sum, List.map_cons, List.sum_cons]
  rfl

theorem sum_perm {ds others : List Duration} (h : ds.Perm others) : sum ds = sum others :=
  (h.map nanos).sum_eq

/-- The checked sum is the exact one, if that is a duration. -/
theorem sum?_eq (ds : List Duration) : sum? ds = ofNanos? (sum ds) := by
  rw [sum?, sum, List.sum_eq_foldl, List.foldl_map]

/-- Durations that are added one by one overflow only if their sum does. -/
theorem foldlM_add? (d : Duration) (ds : List Duration) :
    ds.foldlM add? d = ofNanos? (d.nanos + sum ds) := by
  induction ds generalizing d with
  | nil => exact (ofNanos?_eq_some_iff.mpr rfl).symm
  | cons next rest ih =>
      rw [List.foldlM_cons, sum_cons, ← Nat.add_assoc, add?]
      cases hNext : ofNanos? (d.nanos + next.nanos) with
      | none =>
          have hLong := ofNanos?_eq_none_iff.mp hNext
          exact (ofNanos?_eq_none_iff.mpr (by omega)).symm
      | some both =>
          have hBoth := ofNanos?_eq_some_iff.mp hNext
          rw [← hBoth]
          exact ih both

end Duration

namespace Timesheet

/-- A duration that is to be added to a stage. -/
abbrev Addition := Stage × Duration

/-- One addition after the other, up to the first that does not fit. -/
def adds (t : Timesheet) (additions : List Addition) : Except DurationOverflow Timesheet :=
  additions.foldlM (fun t addition => t.add addition.1 addition.2) t

/-- The exact sum of what is to be added to one stage. -/
def sumFor (stage : Stage) (additions : List Addition) : Nat :=
  Duration.sum ((additions.filter (·.1 = stage)).map Prod.snd)

/-- The exact sum of all that is to be added. -/
def sumOver (additions : List Addition) : Nat := Duration.sum (additions.map Prod.snd)

section Sums

variable (stage : Stage)

theorem sumFor_append (first second : List Addition) :
    sumFor stage (first ++ second) = sumFor stage first + sumFor stage second := by
  simp [sumFor, Duration.sum]

theorem sumFor_singleton (addition : Addition) :
    sumFor stage [addition] = if addition.1 = stage then addition.2.nanos else 0 := by
  by_cases h : addition.1 = stage <;> simp [sumFor, Duration.sum, h]

/-- What is charged to a stage in all does not depend on the order. -/
theorem sumFor_perm {additions others : List Addition} (h : additions.Perm others) :
    sumFor stage additions = sumFor stage others :=
  Duration.sum_perm ((h.filter _).map _)

/-- Every addition is made to one of the stages. -/
theorem sum_sumFor (additions : List Addition) :
    (Stage.all.map fun stage => sumFor stage additions).sum = sumOver additions := by
  induction additions with
  | nil => rfl
  | cons addition rest ih =>
      have hCons (stage : Stage) : sumFor stage (addition :: rest) =
          (if addition.1 = stage then addition.2.nanos else 0) + sumFor stage rest := by
        rw [← List.singleton_append, sumFor_append, sumFor_singleton]
      have hOver : sumOver (addition :: rest) = addition.2.nanos + sumOver rest :=
        Duration.sum_cons _ _
      rw [hOver, ← ih]
      simp only [Stage.all, List.map_cons, List.map_nil, List.sum_cons, List.sum_nil, hCons]
      cases addition.1 <;> simp <;> omega

end Sums

theorem ext_entry {t other : Timesheet} (h : ∀ stage, t.entry stage = other.entry stage) :
    t = other := by
  cases t
  cases other
  have hRead := h .read
  have hEncode := h .encode
  have hDecode := h .decode
  have hWrite := h .write
  have hFlush := h .flush
  simp only [entry] at hRead hEncode hDecode hWrite hFlush
  rw [hRead, hEncode, hDecode, hWrite, hFlush]

/-- The entry of a stage is its time, where there is one. -/
theorem entry_eq (t : Timesheet) (stage : Stage) :
    t.entry stage = if t.contains stage then some (t.get stage) else none := by
  unfold contains get
  cases t.entry stage with
  | none => rfl
  | some d => rfl

/-- A timesheet with the sums of just these additions. A stage without any has no
entry. -/
structure Holds (t : Timesheet) (additions : List Addition) : Prop where
  contains_iff : ∀ stage, t.contains stage ↔ stage ∈ additions.map Prod.fst
  nanos_get : ∀ stage, (t.get stage).nanos = sumFor stage additions

section Holds

variable {t other : Timesheet} {additions others : List Addition} {stage : Stage} {d : Duration}

theorem holds_new : Holds {} [] where
  contains_iff := by intro stage; cases stage <;> simp [contains, entry]
  nanos_get := by intro stage; cases stage <;> rfl

/-- There is only one such timesheet. -/
theorem Holds.unique (holds : t.Holds additions) (same : other.Holds additions) : t = other := by
  apply ext_entry
  intro stage
  have hContains : t.contains stage = other.contains stage :=
    Bool.eq_iff_iff.mpr ((holds.contains_iff stage).trans (same.contains_iff stage).symm)
  have hGet : t.get stage = other.get stage :=
    Duration.nanos_injective ((holds.nanos_get stage).trans (same.nanos_get stage).symm)
  rw [entry_eq, entry_eq, hContains, hGet]

/-- A timesheet holds additions in whatever order they are listed. -/
theorem Holds.perm (holds : t.Holds additions) (h : additions.Perm others) : t.Holds others where
  contains_iff stage := (holds.contains_iff stage).trans (h.map Prod.fst).mem_iff
  nanos_get stage := (holds.nanos_get stage).trans (sumFor_perm stage h)

/-- An addition overflows exactly if the exact sum of its stage does. -/
theorem Holds.add_eq_error_iff (holds : t.Holds additions) (stage : Stage) (d : Duration) :
    t.add stage d = .error .add ↔
      Duration.longest.nanos < sumFor stage (additions ++ [(stage, d)]) := by
  rw [sumFor_append, sumFor_singleton, if_pos rfl, ← holds.nanos_get,
    ← Duration.ofNanos?_eq_none_iff, ← Duration.add?, add]
  cases (t.get stage).add? d with
  | none => simp
  | some sum => simp

/-- An addition that fits is held with those before it. -/
theorem Holds.add (holds : t.Holds additions) (hAdd : t.add stage d = .ok other) :
    other.Holds (additions ++ [(stage, d)]) := by
  unfold Timesheet.add at hAdd
  cases hSum : (t.get stage).add? d with
  | none => simp [hSum] at hAdd
  | some sum =>
      simp only [hSum, Except.ok.injEq] at hAdd
      subst hAdd
      refine ⟨?_, ?_⟩
      · intro each
        by_cases hEach : each = stage
        · simp [contains, hEach]
        · have hContains := holds.contains_iff each
          unfold contains at hContains ⊢
          simp [hEach, hContains]
      · intro each
        rw [sumFor_append, sumFor_singleton]
        by_cases hEach : each = stage
        · rw [if_pos hEach.symm, get, hEach, entry_put_self, ← holds.nanos_get]
          exact Duration.ofNanos?_eq_some_iff.mp hSum
        · rw [if_neg (Ne.symm hEach), get, entry_put_of_ne _ _ hEach, ← get, holds.nanos_get,
            Nat.add_zero]

/-- An addition fails only for its own sum. -/
theorem add_eq_add_of_error {overflow : DurationOverflow} (h : t.add stage d = .error overflow) :
    overflow = .add := by
  unfold Timesheet.add at h
  split at h
  · cases h
  · exact (Except.error.inj h).symm

/-- A run of additions that all fit. -/
theorem Holds.adds (holds : t.Holds additions) (hAdds : t.adds others = .ok other) :
    other.Holds (additions ++ others) := by
  induction others generalizing t additions with
  | nil =>
      cases hAdds
      rwa [List.append_nil]
  | cons next rest ih =>
      rw [Timesheet.adds, List.foldlM_cons] at hAdds
      cases hAdd : t.add next.1 next.2 with
      | error overflow =>
          rw [hAdd] at hAdds
          cases hAdds
      | ok sums =>
          rw [hAdd] at hAdds
          have hRest := ih (holds.add hAdd) hAdds
          rwa [List.append_assoc] at hRest

/-- If the sum of every stage fits in the end, each addition fits: the sums only
grow. -/
theorem Holds.exists_adds (holds : t.Holds additions)
    (hFits : ∀ stage, sumFor stage (additions ++ others) ≤ Duration.longest.nanos) :
    ∃ other, t.adds others = .ok other := by
  induction others generalizing t additions with
  | nil => exact ⟨t, rfl⟩
  | cons next rest ih =>
      rw [List.append_cons] at hFits
      rw [Timesheet.adds, List.foldlM_cons]
      cases hAdd : t.add next.1 next.2 with
      | error overflow =>
          rw [add_eq_add_of_error hAdd] at hAdd
          have hLong : Duration.longest.nanos < sumFor next.1 (additions ++ [next]) :=
            (holds.add_eq_error_iff _ _).mp hAdd
          have hNext := hFits next.1
          rw [sumFor_append] at hNext
          omega
      | ok sums => exact ih (holds.add hAdd) hFits

/-- One addition after the other comes to an end exactly if the exact sums fit. -/
theorem exists_adds_iff :
    (∃ t, Timesheet.adds {} additions = .ok t) ↔
      ∀ stage, sumFor stage additions ≤ Duration.longest.nanos := by
  constructor
  · rintro ⟨t, hAdds⟩ stage
    have hLimit : (t.get stage).nanos < Duration.limit := (t.get stage).lt_limit
    have hLongest : Duration.longest.nanos = Duration.limit - 1 := rfl
    have hGet : (t.get stage).nanos = sumFor stage additions :=
      (holds_new.adds hAdds).nanos_get stage
    omega
  · exact holds_new.exists_adds

/-- The sums do not depend on the order of the additions. -/
theorem adds_perm (hAdds : Timesheet.adds {} additions = .ok t) (h : others.Perm additions) :
    Timesheet.adds {} others = .ok t := by
  have hFits := exists_adds_iff.mp ⟨t, hAdds⟩
  obtain ⟨other, hOther⟩ := exists_adds_iff.mpr fun stage => sumFor_perm stage h ▸ hFits stage
  rw [hOther, ((holds_new.adds hOther).perm h).unique (holds_new.adds hAdds)]

/-- The sums for all stages make up all that was added. -/
theorem Holds.total_eq (holds : t.Holds additions) :
    t.total = match Duration.ofNanos? (sumOver additions) with
      | some sum => .ok sum
      | none => .error .sum := by
  have hSum : Duration.sum (Stage.all.map t.get) = sumOver additions := by
    rw [← sum_sumFor, Duration.sum, List.map_map]
    exact congrArg List.sum (List.map_congr_left fun stage _ => holds.nanos_get stage)
  have hTotal : t.total =
      match Duration.sum? (Stage.all.map t.get) with
      | some d => .ok d
      | none => .error .sum := rfl
  rw [hTotal, Duration.sum?_eq, hSum]

end Holds

/-- The durations that have been entered, in the order of their stages. -/
def entries (t : Timesheet) : List Duration := Stage.all.filterMap t.entry

/-- A stage without an entry adds nothing. -/
theorem sum_entries (t : Timesheet) :
    Duration.sum t.entries = Duration.sum (Stage.all.map t.get) := by
  have hSum (stages : List Stage) :
      Duration.sum (stages.filterMap t.entry) = Duration.sum (stages.map t.get) := by
    induction stages with
    | nil => rfl
    | cons stage rest ih =>
        rw [List.map_cons, Duration.sum_cons, get]
        cases hEntry : t.entry stage with
        | none =>
            rw [List.filterMap_cons_none hEntry, ih]
            exact (Nat.zero_add _).symm
        | some d => rw [List.filterMap_cons_some hEntry, Duration.sum_cons, ih, Option.getD_some]
  exact hSum Stage.all

/-- In whatever order the entries are added up, one by one, the total is the
same, and so is the overflow. -/
theorem foldlM_add?_entries (t : Timesheet) {durations : List Duration}
    (h : durations.Perm t.entries) :
    durations.foldlM Duration.add? .zero = t.total.toOption := by
  have hZero : Duration.zero.nanos = 0 := rfl
  rw [Duration.foldlM_add?, hZero, Nat.zero_add, Duration.sum_perm h, sum_entries,
    ← Duration.sum?_eq, total]
  cases Duration.sum? (Stage.all.map t.get) with
  | none => rfl
  | some sum => rfl

/-- Additions to stages are exact. They come to an end exactly if the sum of every
stage is a duration; then the next one overflows exactly if it makes the sum of its
stage too long. Each stage has its exact sum, with less than a second in the
nanoseconds, and it has an entry exactly if something was added to it. The total is
the exact sum of all additions, and overflows exactly if that is too long. Neither
the order of the additions nor the order in which the entries are added up makes
any difference. -/
theorem adds_exact (additions : List Addition) :
    ((∃ t, adds {} additions = .ok t) ↔
      ∀ stage, sumFor stage additions ≤ Duration.longest.nanos) ∧
    ∀ t, adds {} additions = .ok t →
      (∀ stage d, t.add stage d = .error .add ↔
        Duration.longest.nanos < sumFor stage (additions ++ [(stage, d)])) ∧
      (∀ stage, let sum := t.get stage
        sum.secs * 1000000000 + sum.subsecNanos = sumFor stage additions ∧
        sum.subsecNanos < 1000000000 ∧ sum.secs < UInt64.size) ∧
      (∀ stage, t.contains stage ↔ ∃ d, (stage, d) ∈ additions) ∧
      (t.total = .error .sum ↔ Duration.longest.nanos < sumOver additions) ∧
      (∀ d, t.total = .ok d ↔ d.nanos = sumOver additions) ∧
      (∀ others, others.Perm additions → adds {} others = .ok t) ∧
      (∀ durations : List Duration, durations.Perm t.entries →
        durations.foldlM Duration.add? .zero = t.total.toOption) := by
  refine ⟨exists_adds_iff, ?_⟩
  intro t hAdds
  have holds : t.Holds additions := holds_new.adds hAdds
  have hTotal := holds.total_eq
  refine ⟨holds.add_eq_error_iff, ?_, ?_, ?_, ?_, fun others h => adds_perm hAdds h,
    fun durations h => t.foldlM_add?_entries h⟩
  · intro stage
    refine ⟨?_, Duration.subsecNanos_lt _, Duration.secs_lt _⟩
    rw [← holds.nanos_get]
    exact Duration.secs_mul_add_subsecNanos _
  · intro stage
    rw [holds.contains_iff]
    simp
  · rw [← Duration.ofNanos?_eq_none_iff, hTotal]
    cases Duration.ofNanos? (sumOver additions) with
    | none => simp
    | some sum => simp
  · intro d
    rw [← Duration.ofNanos?_eq_some_iff, hTotal]
    cases Duration.ofNanos? (sumOver additions) with
    | none => simp
    | some sum => simp

/-- Seconds and nanoseconds are each as long as they can be, and the next nanosecond
would carry. -/
theorem adds_exact_longest :
    let seconds : Duration := ⟨18446744073709551615000000000, by decide⟩
    let rest : Duration := ⟨999999999, by decide⟩
    let next : Duration := ⟨1, by decide⟩
    ∃ t, adds {} [(.read, seconds), (.write, .zero), (.read, rest)] = .ok t ∧
      t.contains .write ∧ ¬ t.contains .flush ∧ t.total = .ok .longest ∧
      t.add .read next = .error .add ∧
      adds {} [(.write, .zero), (.read, rest), (.read, seconds)] = .ok t := by
  intro seconds rest next
  have hFits (stage : Stage) : sumFor stage [(.read, seconds), (.write, .zero), (.read, rest)] ≤
      Duration.longest.nanos := by
    cases stage <;> decide
  obtain ⟨t, hAdds⟩ := (adds_exact _).1.mpr hFits
  obtain ⟨hNext, _, hContains, _, hTotal, hOrder, _⟩ := (adds_exact _).2 t hAdds
  refine ⟨t, hAdds, (hContains .write).mpr ⟨.zero, by decide⟩, ?_,
    (hTotal .longest).mpr (by decide),
    (hNext .read next).mpr (by decide), hOrder _ (by decide)⟩
  rw [hContains]
  simp

end Timesheet

end HexFilter
