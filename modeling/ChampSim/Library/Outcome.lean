/-
Outcomes of operations that may fail: what holds of the value of one that
succeeds, and which failures it may end with.
-/

import Mathlib.Data.List.Basic

set_option autoImplicit false

namespace ChampSim.Outcome

variable {Error Value Other Item : Type}

/-- A value has the property, and a failure is one of those allowed. -/
def Ends (Allowed : Error → Prop) (result : Except Error Value) (Post : Value → Prop) : Prop :=
  match result with
  | .ok value => Post value
  | .error failure => Allowed failure

variable {Allowed : Error → Prop}

theorem Ends.of_ok {result : Except Error Value} {Post : Value → Prop} {value : Value}
    (ends : Ends Allowed result Post) (ran : result = .ok value) : Post value := by
  rw [ran] at ends
  exact ends

theorem Ends.of_error {result : Except Error Value} {Post : Value → Prop} {failure : Error}
    (ends : Ends Allowed result Post) (failed : result = .error failure) : Allowed failure := by
  rw [failed] at ends
  exact ends

theorem Ends.mono {result : Except Error Value} {Post Weaker : Value → Prop}
    (ends : Ends Allowed result Post) (weaker : ∀ value, Post value → Weaker value) :
    Ends Allowed result Weaker := by
  cases result with
  | error failure => exact ends
  | ok value => exact weaker value ends

theorem Ends.allow {Wider : Error → Prop} {result : Except Error Value} {Post : Value → Prop}
    (ends : Ends Allowed result Post) (wider : ∀ failure, Allowed failure → Wider failure) :
    Ends Wider result Post := by
  cases result with
  | error failure => exact wider failure ends
  | ok value => exact ends

theorem Ends.never {result : Except Error Value} {Post : Value → Prop}
    (ends : Ends (fun _ => False) result Post) : Ends Allowed result Post :=
  ends.allow (fun _failure impossible => impossible.elim)

theorem Ends.bind {result : Except Error Value} {next : Value → Except Error Other}
    {Post : Value → Prop} {Last : Other → Prop} (first : Ends Allowed result Post)
    (second : ∀ value, Post value → Ends Allowed (next value) Last) :
    Ends Allowed (result >>= next) Last := by
  cases result with
  | error failure => exact first
  | ok value => exact second value first

theorem bind_ok {result : Except Error Value} {next : Value → Except Error Other} {last : Other}
    (ran : (result >>= next) = .ok last) : ∃ value, result = .ok value ∧ next value = .ok last := by
  cases result with
  | error failure => cases ran
  | ok value => exact ⟨value, rfl, ran⟩

theorem map_ok {result : Except Error Value} {change : Value → Other} {last : Other}
    (ran : result.map change = .ok last) : ∃ value, result = .ok value ∧ change value = last := by
  cases result with
  | error failure => cases ran
  | ok value => exact ⟨value, rfl, Except.ok.inj ran⟩

theorem Ends.map {result : Except Error Value} {change : Value → Other} {Post : Value → Prop}
    {Last : Other → Prop} (ends : Ends Allowed result Post)
    (changed : ∀ value, Post value → Last (change value)) :
    Ends Allowed (result.map change) Last := by
  cases result with
  | error failure => exact ends
  | ok value => exact changed value ends

theorem ends_anything (result : Except Error Value) :
    Ends (fun _ => True) result (fun _ => True) := by
  cases result <;> exact trivial

theorem ends_of_ok {result : Except Error Value} {Post : Value → Prop}
    (post : ∀ value, result = .ok value → Post value) : Ends (fun _ => True) result Post := by
  cases result with
  | error failure => trivial
  | ok value => exact post value rfl

def failed : Except Error Value → Option Error
  | .ok _ => none
  | .error failure => some failure

theorem failed_eq {result : Except Error Value} {failure : Error}
    (fails : failed result = some failure) : result = .error failure := by
  cases result with
  | ok value => cases fails
  | error other => exact congrArg _ (Option.some.inj fails)

def succeeds (result : Except Error Value) (test : Value → Bool) : Bool :=
  match result with
  | .ok value => test value
  | .error _ => false

theorem of_succeeds {result : Except Error Value} {test : Value → Bool}
    (passes : succeeds result test = true) : ∃ value, result = .ok value ∧ test value = true := by
  cases result with
  | ok value => exact ⟨value, rfl, passes⟩
  | error failure => cases passes

/-- What is said of the value of an operation is decided by carrying the operation out. -/
instance decidableOfValue (result : Except Error Value) (Post : Value → Prop)
    [DecidablePred Post] : Decidable (∀ value, result = .ok value → Post value) :=
  match result with
  | .error _ => isTrue (fun _value impossible => nomatch impossible)
  | .ok value =>
      decidable_of_iff (Post value)
        ⟨fun holds _value same => Except.ok.inj same ▸ holds, fun always => always value rfl⟩

theorem Ends.exists_ok {result : Except Error Value} {Post : Value → Prop}
    (ends : Ends (fun _ => False) result Post) : ∃ value, result = .ok value ∧ Post value := by
  cases result with
  | ok value => exact ⟨value, rfl, ends⟩
  | error failure => exact ends.elim

theorem foldlM_ends (step : Value → Item → Except Error Value) (Invariant : Value → Prop)
    (items : List Item)
    (kept : ∀ value, ∀ item ∈ items, Invariant value → Ends Allowed (step value item) Invariant) :
    ∀ value, Invariant value → Ends Allowed (items.foldlM step value) Invariant := by
  induction items with
  | nil =>
      intro value holds
      exact holds
  | cons item rest ih =>
      intro value holds
      rw [List.foldlM_cons]
      apply (kept value item List.mem_cons_self holds).bind
      exact ih (fun other later member => kept other later (List.mem_cons_of_mem item member))

/-- The rule for a loop over indices, with an invariant that knows the index. -/
theorem foldlM_range_ends (step : Value → Nat → Except Error Value)
    (Invariant : Nat → Value → Prop) (count : Nat) :
    ∀ start value, Invariant start value →
      (∀ index other, start ≤ index → index < start + count → Invariant index other →
        Ends Allowed (step other index) (Invariant (index + 1))) →
      Ends Allowed ((List.range' start count).foldlM step value) (Invariant (start + count)) := by
  induction count with
  | zero =>
      intro start value holds _kept
      exact holds
  | succ count ih =>
      intro start value holds kept
      rw [List.range'_succ, List.foldlM_cons]
      apply (kept start value (Nat.le_refl start) (by omega) holds).bind
      intro next nextHolds
      have rest := ih (start + 1) next nextHolds (fun index other above within =>
        kept index other (by omega) (by omega))
      rw [show start + (count + 1) = start + 1 + count by omega]
      exact rest

def need (failure : Error) : Option Value → Except Error Value
  | some value => .ok value
  | none => .error failure

theorem need_ok {failure : Error} {optional : Option Value} {value : Value}
    (ran : need failure optional = .ok value) : optional = some value := by
  cases optional with
  | none => cases ran
  | some present => exact congrArg some (Except.ok.inj ran)

theorem need_some (failure : Error) (value : Value) : need failure (some value) = .ok value := rfl

theorem need_bind {failure : Error} (optional : Option Value) (next : Value → Except Error Other)
    (later : Value → Option Other)
    (agrees : ∀ value, optional = some value → next value = need failure (later value)) :
    (need failure optional >>= next) = need failure (optional.bind later) := by
  cases optional with
  | none => rfl
  | some value => exact agrees value rfl

theorem need_map {failure : Error} (optional : Option Value) (next : Value → Except Error Other)
    (later : Value → Other)
    (agrees : ∀ value, optional = some value → next value = .ok (later value)) :
    (need failure optional >>= next) = need failure (optional.map later) := by
  cases optional with
  | none => rfl
  | some value => exact agrees value rfl

theorem need_value {failure : Error} (allowed : Allowed failure) (optional : Option Value) :
    Ends Allowed (need failure optional) (fun value => optional = some value) := by
  cases optional with
  | none => exact allowed
  | some value => rfl

end ChampSim.Outcome
