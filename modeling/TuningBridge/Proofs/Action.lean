import TuningBridge.Error

/-!
# Running actions

How sequences of actions run: an action that succeeds hands its value and its state to the rest, one
that fails ends the sequence with the state that it left, and a handler takes over from there.
-/

namespace TuningBridge.Actions

section Except

variable {ε α β : Type}

@[simp] theorem pure_eq_ok (value : α) : (pure value : Except ε α) = .ok value := rfl

@[simp] theorem throw_eq_error (error : ε) : (throw error : Except ε α) = .error error := rfl

/-- What succeeds hands its value on. -/
@[simp] theorem ok_bind (value : α) (rest : α → Except ε β) : (.ok value >>= rest) = rest value :=
  rfl

/-- What fails ends the sequence. -/
@[simp] theorem error_bind (error : ε) (rest : α → Except ε β) :
    (.error error >>= rest : Except ε β) = .error error := rfl

/-- A sequence that succeeds has a first step that succeeds. -/
theorem exists_of_bind_eq_ok {first : Except ε α} {rest : α → Except ε β} {last : β}
    (h : first >>= rest = .ok last) : ∃ value, first = .ok value ∧ rest value = .ok last := by
  cases first with
  | ok value => exact ⟨value, rfl, h⟩
  | error error => cases h

/-- A mapped result that succeeds comes from one that does. -/
theorem exists_of_map_eq_ok {first : Except ε α} {f : α → β} {last : β}
    (h : first.map f = .ok last) : ∃ value, first = .ok value ∧ f value = last := by
  cases first with
  | ok value => exact ⟨value, rfl, Except.ok.inj h⟩
  | error error => cases h

end Except

section State

variable {ε σ α β : Type} {state after : σ} {value : α} {error : ε}

/-- A result that is there already is returned and changes no state. -/
@[simp] theorem run_ofExcept_ok :
    (MonadExcept.ofExcept (.ok value : Except ε α) : EStateM ε σ α).run state = .ok value state :=
  rfl

/-- An error that is there already is thrown and changes no state. -/
@[simp] theorem run_ofExcept_error :
    (MonadExcept.ofExcept (.error error : Except ε α) : EStateM ε σ α).run state =
      .error error state :=
  rfl

/-- An action that succeeds is followed by the rest. -/
theorem run_bind_ok {action : EStateM ε σ α} (h : action.run state = .ok value after)
    (rest : α → EStateM ε σ β) : (action >>= rest).run state = (rest value).run after := by
  rw [EStateM.run_bind, h]

/-- An action that fails ends the sequence. -/
theorem run_bind_error {action : EStateM ε σ α} (h : action.run state = .error error after)
    (rest : α → EStateM ε σ β) : (action >>= rest).run state = .error error after := by
  rw [EStateM.run_bind, h]

/-- An action that succeeds does not need its handler. -/
theorem run_tryCatch_ok {action : EStateM ε σ α} (h : action.run state = .ok value after)
    (handle : ε → EStateM ε σ α) : (tryCatch action handle).run state = .ok value after := by
  have hrun : action state = _ := h
  show EStateM.tryCatch action handle state = _
  delta EStateM.tryCatch
  dsimp only
  rw [hrun]

/-- A handler starts in the state that the failed action left. -/
theorem run_tryCatch_error {action : EStateM ε σ α} (h : action.run state = .error error after)
    (handle : ε → EStateM ε σ α) :
    (tryCatch action handle).run state = (handle error).run after := by
  have hrun : action state = _ := h
  show EStateM.tryCatch action handle state = _
  delta EStateM.tryCatch
  dsimp only
  rw [hrun]
  rfl

end State

end TuningBridge.Actions
