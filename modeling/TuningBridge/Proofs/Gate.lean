import TuningBridge.HashGate
import TuningBridge.Proofs.Numeral
import TuningBridge.Proofs.ReadOnly

/-!
# What unlocks the gate

Every comparison reads the hash register once at most, writes nothing and decides alone whether the
gate is unlocked behind it.  At startup comparisons follow one another until one of them matches,
finds no worker or has no register to read, or until the attempts are used up.  So the gate is
unlocked if and only if the comparison that was made last, by whatever check, has matched.
-/

namespace TuningBridge

namespace ChipM

variable {chip : Chip} {cell : HashCell}

/-- A hash that is read matches if its four bytes denote the expected value. -/
theorem run_checkHash_ok {data : Bytes} (h : (chip.transport.read cell.address 4).1 = .ok data) :
    ∃ journal, (checkHash (some cell)).run chip =
      .ok (decide (data.toNat = cell.value.toNat))
        { chip.afterRead cell.address 4 with journal } := by
  have hlength : data.length = 4 := Transport.length_read h
  have hlt : data.toNat < 2 ^ 32 := by
    have hlt := Bytes.toNat_lt data
    rwa [hlength] at hlt
  have hword : UInt32.ofNat data.toNat = cell.value ↔ data.toNat = cell.value.toNat := by
    rw [← UInt32.toNat_inj, UInt32.toNat_ofNat', Nat.mod_eq_of_lt hlt]
  rw [checkHash, Actions.run_bind_ok (run_readUInt32_ok h), Actions.run_bind_ok (run_note _)]
  by_cases hvalue : data.toNat = cell.value.toNat
  · rw [if_pos (hword.mpr hvalue), decide_eq_true hvalue]
    exact ⟨_, rfl⟩
  · rw [if_neg (mt hword.mp hvalue), decide_eq_false hvalue]
    exact ⟨_, rfl⟩

theorem run_checkHash_error {error : Error}
    (h : (chip.transport.read cell.address 4).1 = .error error) :
    (checkHash (some cell)).run chip = .error error (chip.afterRead cell.address 4) :=
  Actions.run_bind_error (run_readUInt32_error h) _

end ChipM

/-- One comparison of the hash: the worker as the comparison finds it, and the register to
compare. -/
structure Comparison where
  worker : Worker
  cell : Option HashCell

namespace Comparison

/-- The outcome of a comparison. -/
def outcome (comparison : Comparison) : Except Error Bool :=
  HashGate.verdict (comparison.worker.perform (.checkHash comparison.cell)).1

/-- The worker behind a comparison. -/
def after (comparison : Comparison) : Worker :=
  (comparison.worker.perform (.checkHash comparison.cell)).2

/-- Whether the outcome of a comparison is a match. -/
def isMatch (comparison : Comparison) : Bool :=
  match comparison.outcome with
  | .ok true => true
  | _ => false

/-- The worker is there, and the four bytes that it reads from the hash register denote the expected
value. -/
def Matches (comparison : Comparison) : Prop :=
  comparison.worker.isAlive = true ∧ ∃ cell data, comparison.cell = some cell ∧
    (comparison.worker.chip.transport.read cell.address 4).1 = .ok data ∧
    data.toNat = cell.value.toNat

/-- At startup no comparison follows: this one matches, has no register to read, or finds no
worker. -/
def Ends (comparison : Comparison) : Prop :=
  comparison.Matches ∨ comparison.cell = none ∨ comparison.outcome = .error .workerGone

/-- What comes of a comparison that a worker is asked for: the outcome, and the worker behind it. -/
inductive Course (worker : Worker) : Option HashCell → Except Error Bool → Worker → Prop
  /-- There is no worker. -/
  | gone {cell : Option HashCell} :
      worker.isAlive = false → Course worker cell (.error .workerGone) worker
  /-- There is no register to read. -/
  | missing {journal : Array Event} : worker.isAlive = true →
      Course worker none (.ok false) { worker with chip := { worker.chip with journal } }
  /-- The register is not read. -/
  | unread {cell : HashCell} {error : Error} : worker.isAlive = true →
      (worker.chip.transport.read cell.address 4).1 = .error error →
      Course worker (some cell) (.error error)
        { worker with chip := worker.chip.afterRead cell.address 4 }
  /-- The register is read and compared. -/
  | compared {cell : HashCell} {data : Bytes} {journal : Array Event} : worker.isAlive = true →
      (worker.chip.transport.read cell.address 4).1 = .ok data →
      Course worker (some cell) (.ok (decide (data.toNat = cell.value.toNat)))
        { worker with chip := { worker.chip.afterRead cell.address 4 with journal } }

variable (comparison : Comparison)

theorem course : Course comparison.worker comparison.cell comparison.outcome comparison.after := by
  obtain ⟨worker, cell⟩ := comparison
  simp only [outcome, after]
  cases halive : worker.isAlive with
  | false =>
    rw [Worker.perform_of_gone halive]
    exact .gone halive
  | true =>
    cases cell with
    | none =>
      have hrun : (Command.checkHash none).run.run worker.chip = .ok (.verdict false)
          { worker.chip with journal := worker.chip.journal ++ [Event.hashCellMissing] } := rfl
      rw [Worker.perform_of_run halive hrun]
      exact .missing halive
    | some cell =>
      cases hread : (worker.chip.transport.read cell.address 4).1 with
      | error error =>
        have hrun : (Command.checkHash (some cell)).run.run worker.chip =
            .error error (worker.chip.afterRead cell.address 4) :=
          Actions.run_bind_error (ChipM.run_checkHash_error hread) _
        rw [Worker.perform_of_error halive hrun]
        exact .unread halive hread
      | ok data =>
        obtain ⟨journal, hcheck⟩ := ChipM.run_checkHash_ok hread
        have hrun : (Command.checkHash (some cell)).run.run worker.chip =
            .ok (.verdict (decide (data.toNat = cell.value.toNat)))
              { worker.chip.afterRead cell.address 4 with journal } :=
          Actions.run_bind_ok hcheck _
        rw [Worker.perform_of_run halive hrun]
        exact .compared halive hread

namespace Course

variable {worker after : Worker} {cell : Option HashCell} {outcome : Except Error Bool}

theorem ok_true_iff (h : Course worker cell outcome after) :
    outcome = .ok true ↔ Matches ⟨worker, cell⟩ := by
  cases h with
  | gone halive => simp [Matches, halive]
  | missing => simp [Matches]
  | unread halive hread => simp [Matches, hread]
  | compared halive hread => simp [Matches, halive, hread]

/-- Without a register there is no error but that of a missing worker. -/
theorem of_none (h : Course worker none outcome after) :
    outcome = .ok false ∨ outcome = .error .workerGone := by
  cases h with
  | gone => exact .inr rfl
  | missing => exact .inl rfl

/-- Nothing is written. -/
theorem unwritten (h : Course worker cell outcome after) :
    worker.chip.transport.Unwritten after.chip.transport := by
  cases h with
  | gone => exact .refl _
  | missing => exact .refl _
  | unread => exact worker.chip.unwritten_afterRead _ 4
  | compared => exact worker.chip.unwritten_afterRead _ 4

end Course

/-- The outcome is that of a match if and only if the comparison matches. -/
theorem isMatch_iff : comparison.isMatch = true ↔ comparison.Matches := by
  rw [← comparison.course.ok_true_iff, isMatch]
  split
  · next hmatch => simp [hmatch]
  · next hother => simpa using hother

end Comparison

namespace HashGate

/-- What the gate remembers behind comparisons, if it remembered `before` in front of them. -/
def remembered (before : Bool) (made : List Comparison) : Bool :=
  made.foldl (fun _ comparison => comparison.isMatch) before

/-- The worker behind comparisons. -/
def workerAfter (worker : Worker) (made : List Comparison) : Worker :=
  made.foldl (fun _ comparison => comparison.after) worker

theorem check_eq (gate : HashGate) (worker : Worker) (cell : Option HashCell) :
    gate.check worker cell = ((⟨worker, cell⟩ : Comparison).outcome,
      { gate with isUnlocked := (⟨worker, cell⟩ : Comparison).isMatch },
      (⟨worker, cell⟩ : Comparison).after) := rfl

/-- The last one of comparisons decides. -/
theorem remembered_iff (made : List Comparison) :
    remembered false made = true ↔ ∃ last, made.getLast? = some last ∧ last.Matches := by
  cases hlast : made.getLast? with
  | none =>
    rw [List.getLast?_eq_none_iff.mp hlast]
    simp [remembered]
  | some last =>
    obtain ⟨front, rfl⟩ := List.getLast?_eq_some_iff.mp hlast
    simp [remembered, last.isMatch_iff]

/-- The comparisons of a check at startup, the first of which has a number.  Each finds the worker
as the pause behind the one before has left it; only the last one ends the attempts, and it does
unless they are used up. -/
structure Attempts (cell : Option HashCell) (meanwhile : Nat → Worker → Worker)
    (attempts number : Nat) (worker : Worker) (made : List Comparison) : Prop where
  cell : ∀ comparison ∈ made, comparison.cell = cell
  first : ∀ comparison, made.head? = some comparison → comparison.worker = worker
  next : ∀ index before behind, made[index]? = some before → made[index + 1]? = some behind →
    behind.worker = meanwhile (number + index) before.after
  goesOn : ∀ comparison ∈ made.dropLast, ¬comparison.Ends
  atMost : made.length ≤ attempts
  ends : made.length = attempts ∨ ∃ last, made.getLast? = some last ∧ last.Ends

namespace Attempts

variable {cell : Option HashCell} {meanwhile : Nat → Worker → Worker} {left number : Nat}
  {worker next : Worker} {rest : List Comparison}

theorem none : Attempts cell meanwhile 0 number worker [] where
  cell := by simp
  first := by simp
  next := by simp
  goesOn := by simp
  atMost := Nat.le_refl 0
  ends := .inl rfl

/-- A comparison that ends the attempts is the last one. -/
theorem one (h : Comparison.Ends ⟨worker, cell⟩) :
    Attempts cell meanwhile (left + 1) number worker [⟨worker, cell⟩] where
  cell := by simp
  first := by simp
  next := by simp
  goesOn := by simp
  atMost := by simp
  ends := .inr ⟨_, rfl, h⟩

/-- A comparison that does not end the attempts is followed by the others. -/
theorem cons (h : ¬Comparison.Ends ⟨worker, cell⟩)
    (hnext : left ≠ 0 → next = meanwhile number (⟨worker, cell⟩ : Comparison).after)
    (hrest : Attempts cell meanwhile left (number + 1) next rest) :
    Attempts cell meanwhile (left + 1) number worker (⟨worker, cell⟩ :: rest) where
  cell := List.forall_mem_cons.mpr ⟨rfl, hrest.cell⟩
  first := by simp
  next index before behind hbefore hbehind := by
    cases index with
    | zero =>
      obtain rfl := Option.some.inj hbefore
      rw [List.getElem?_cons_succ, ← List.head?_eq_getElem?] at hbehind
      have hleft : left ≠ 0 := by
        rintro rfl
        rw [List.length_eq_zero_iff.mp (Nat.le_zero.mp hrest.atMost)] at hbehind
        cases hbehind
      rw [hrest.first behind hbehind, hnext hleft, Nat.add_zero]
    | succ index =>
      rw [List.getElem?_cons_succ] at hbefore hbehind
      rw [hrest.next index before behind hbefore hbehind, Nat.add_right_comm, Nat.add_assoc]
  goesOn := by
    cases rest with
    | nil => simp
    | cons second others => exact List.forall_mem_cons.mpr ⟨h, hrest.goesOn⟩
  atMost := Nat.succ_le_succ hrest.atMost
  ends := by
    rcases hrest.ends with hlength | ⟨last, hlast, hends⟩
    · exact .inl (congrArg Nat.succ hlength)
    · exact .inr ⟨last, by rw [List.getLast?_cons, hlast]; rfl, hends⟩

/-- Where attempts are left a comparison is made. -/
theorem ne_nil (h : Attempts cell meanwhile left number worker rest) (hleft : left ≠ 0) :
    rest ≠ [] := by
  rintro rfl
  rcases h.ends with hlength | ⟨last, hlast, _⟩
  · exact hleft hlength.symm
  · cases hlast

end Attempts

/-- What a check returns, remembers and leaves behind comparisons that it made. -/
structure Accounts (before : Bool) (worker : Worker) (made : List Comparison)
    (after : Bool × HashGate × Worker) : Prop where
  matched : after.1 = made.any Comparison.isMatch
  remembered : after.2.1.isUnlocked = remembered before made
  worker : after.2.2 = workerAfter worker made

section Startup

variable {cell : Option HashCell} {worker : Worker}

/-- A comparison that ends the attempts decides their result. -/
private theorem attempt_of_ends (meanwhile : Nat → Worker → Worker) (left number : Nat)
    (gate : HashGate) (h : Comparison.Ends ⟨worker, cell⟩) :
    ∃ gate' : HashGate, gate'.isUnlocked = Comparison.isMatch ⟨worker, cell⟩ ∧
      attempt cell meanwhile (left + 1) number gate worker =
        (Comparison.isMatch ⟨worker, cell⟩, gate', Comparison.after ⟨worker, cell⟩) := by
  have hcourse := Comparison.course ⟨worker, cell⟩
  rw [attempt, check_eq, Comparison.isMatch]
  cases houtcome : (⟨worker, cell⟩ : Comparison).outcome with
  | ok matched =>
    cases matched with
    | true => exact ⟨_, rfl, rfl⟩
    | false =>
      have hnone : cell = none := by
        rcases h with hmatches | hnone | hgone
        · rw [hcourse.ok_true_iff.mpr hmatches] at houtcome
          cases houtcome
        · exact hnone
        · rw [houtcome] at hgone
          cases hgone
      exact ⟨_, rfl, if_pos (Option.isNone_iff_eq_none.mpr hnone)⟩
  | error error =>
    have hgone : error = .workerGone := by
      rcases h with hmatches | rfl | hgone
      · rw [hcourse.ok_true_iff.mpr hmatches] at houtcome
        cases houtcome
      · have hnone := hcourse.of_none
        rw [houtcome] at hnone
        simpa using hnone
      · rw [houtcome] at hgone
        exact Except.error.inj hgone
    subst hgone
    exact ⟨_, rfl, rfl⟩

/-- Behind a comparison that does not end them the attempts go on with a locked gate. -/
private theorem attempt_of_not_ends (meanwhile : Nat → Worker → Worker) (left number : Nat)
    (gate : HashGate) (h : ¬Comparison.Ends ⟨worker, cell⟩) :
    ∃ gate' : HashGate, gate'.isUnlocked = false ∧
      attempt cell meanwhile (left + 1) number gate worker =
        attempt cell meanwhile left (number + 1) gate'
          (if left = 0 then Comparison.after ⟨worker, cell⟩
          else meanwhile number (Comparison.after ⟨worker, cell⟩)) := by
  simp only [Comparison.Ends, not_or, ← Comparison.isMatch_iff] at h
  obtain ⟨hmatch, hsome, hgone⟩ := h
  have hlocked : Comparison.isMatch ⟨worker, cell⟩ = false := Bool.eq_false_iff.mpr hmatch
  rw [attempt, check_eq, hlocked]
  cases houtcome : (⟨worker, cell⟩ : Comparison).outcome with
  | ok matched =>
    cases matched with
    | true =>
      rw [Comparison.isMatch, houtcome] at hlocked
      cases hlocked
    | false => exact ⟨_, rfl, if_neg (mt Option.isNone_iff_eq_none.mp hsome)⟩
  | error error =>
    cases error with
    | workerGone => exact absurd houtcome hgone
    | _ => exact ⟨_, rfl, rfl⟩

/-- Attempts account for the comparisons that they make, whatever the gate remembers in front of
them. -/
private theorem exists_attempts (cell : Option HashCell) (meanwhile : Nat → Worker → Worker)
    (left number : Nat) (worker : Worker) :
    ∃ made, Attempts cell meanwhile left number worker made ∧ ∀ gate,
      Accounts gate.isUnlocked worker made (attempt cell meanwhile left number gate worker) := by
  induction left generalizing number worker with
  | zero => exact ⟨[], .none, fun gate => ⟨rfl, rfl, rfl⟩⟩
  | succ left ih =>
    by_cases hends : Comparison.Ends ⟨worker, cell⟩
    · refine ⟨[⟨worker, cell⟩], .one hends, fun gate => ?_⟩
      obtain ⟨gate', hgate, hattempt⟩ := attempt_of_ends meanwhile left number gate hends
      rw [hattempt]
      exact ⟨by simp, hgate, rfl⟩
    · obtain ⟨rest, hrest, haccounts⟩ := ih (number + 1)
        (if left = 0 then Comparison.after ⟨worker, cell⟩
        else meanwhile number (Comparison.after ⟨worker, cell⟩))
      have hmatch : Comparison.isMatch ⟨worker, cell⟩ = false :=
        Bool.eq_false_iff.mpr fun h => hends (.inl ((Comparison.isMatch_iff _).mp h))
      refine ⟨⟨worker, cell⟩ :: rest, .cons hends (fun hleft => if_neg hleft) hrest, fun gate => ?_⟩
      obtain ⟨gate', hgate, hattempt⟩ := attempt_of_not_ends meanwhile left number gate hends
      rw [hattempt]
      refine ⟨?_, ?_, ?_⟩
      · rw [(haccounts gate').matched, List.any_cons, hmatch, Bool.false_or]
      · rw [(haccounts gate').remembered, hgate, HashGate.remembered, HashGate.remembered,
          List.foldl_cons, hmatch]
      · rw [(haccounts gate').worker]
        cases rest with
        | nil =>
          have hleft : left = 0 := by
            by_contra hne
            exact hrest.ne_nil hne rfl
          rw [if_pos hleft]
          rfl
        | cons second others => rfl

end Startup

/-- A check of the hash through the gate, and the worker that it finds. -/
inductive Trial
  | once (worker : Worker) (cell : Option HashCell)
  /-- The check at startup; `meanwhile` is what happens to the worker in the pauses. -/
  | startup (worker : Worker) (cell : Option HashCell) (plan : RetryPlan)
      (meanwhile : Nat → Worker → Worker)

/-- Carry out a check; a check at startup returns no error. -/
def undergo (gate : HashGate) : Trial → Except Error Bool × HashGate × Worker
  | .once worker cell => gate.check worker cell
  | .startup worker cell plan meanwhile =>
    let (matched, gate, worker) := gate.checkAtStartup worker cell plan meanwhile
    (.ok matched, gate, worker)

/-- The gate behind checks, one after the other. -/
def afterTrials (gate : HashGate) (trials : List Trial) : HashGate :=
  trials.foldl (fun gate trial => (gate.undergo trial).2.1) gate

namespace Trial

/-- The worker that a check finds. -/
def worker : Trial → Worker
  | once worker _ => worker
  | startup worker _ _ _ => worker

/-- The comparisons that a check makes. -/
def Makes : Trial → List Comparison → Prop
  | once worker cell, made => made = [⟨worker, cell⟩]
  | startup worker cell plan meanwhile, made => Attempts cell meanwhile plan.attempts 1 worker made

/-- A check makes comparisons: one of them has matched if and only if the check returns that, and
the worker is left as the last one leaves it. -/
structure Consists (trial : Trial) (made : List Comparison) : Prop where
  makes : trial.Makes made
  result : ∀ gate : HashGate, (gate.undergo trial).1 = .ok true ↔ ∃ comparison ∈ made,
    comparison.Matches
  worker : ∀ gate : HashGate, (gate.undergo trial).2.2 = workerAfter trial.worker made

/-- The gate remembers what came of the comparisons of a check. -/
private theorem exists_consists (trial : Trial) :
    ∃ made, trial.Consists made ∧
      ∀ gate : HashGate, (gate.undergo trial).2.1.isUnlocked = remembered gate.isUnlocked made := by
  cases trial with
  | once worker cell =>
    refine ⟨[⟨worker, cell⟩], ⟨rfl, fun gate => ?_, fun gate => rfl⟩, fun gate => rfl⟩
    rw [undergo, check_eq]
    simpa using (Comparison.course ⟨worker, cell⟩).ok_true_iff
  | startup worker cell plan meanwhile =>
    obtain ⟨made, hmade, haccounts⟩ := exists_attempts cell meanwhile plan.attempts 1 worker
    have hstart : ∀ gate : HashGate, Accounts gate.isUnlocked worker made
        (gate.checkAtStartup worker cell plan meanwhile) :=
      fun gate => haccounts (gate.note .startupCheck)
    refine ⟨made, ⟨hmade, fun gate => ?_, fun gate => (hstart gate).worker⟩,
      fun gate => (hstart gate).remembered⟩
    have hmatched := (hstart gate).matched
    simp only [undergo, hmatched, Except.ok.injEq, List.any_eq_true, Comparison.isMatch_iff]

end Trial

/-- After any checks the gate is unlocked if and only if a comparison was made and the one that was
made last has matched; every check makes the comparisons that it may make, and none of these writes
anything. -/
theorem unlocked_iff_last_matches (trials : List Trial) :
    ∃ made : List (List Comparison),
      List.Forall₂ Trial.Consists trials made ∧
      ((({} : HashGate).afterTrials trials).isUnlocked = true ↔
        ∃ last, made.flatten.getLast? = some last ∧ last.Matches) ∧
      ∀ comparison ∈ made.flatten,
        comparison.worker.chip.transport.Unwritten comparison.after.chip.transport := by
  have hrun : ∀ gate : HashGate, ∃ made : List (List Comparison),
      List.Forall₂ Trial.Consists trials made ∧
      (gate.afterTrials trials).isUnlocked = remembered gate.isUnlocked made.flatten := by
    induction trials with
    | nil => exact fun gate => ⟨[], .nil, rfl⟩
    | cons trial rest ih =>
      intro gate
      obtain ⟨own, hown, hunlocked⟩ := trial.exists_consists
      obtain ⟨made, hmade, hrest⟩ := ih (gate.undergo trial).2.1
      refine ⟨own :: made, .cons hown hmade, ?_⟩
      rw [List.flatten_cons, remembered, List.foldl_append, ← remembered, ← remembered,
        ← hunlocked gate]
      exact hrest
  obtain ⟨made, hmade, hunlocked⟩ := hrun {}
  refine ⟨made, hmade, ?_, fun comparison _ => comparison.course.unwritten⟩
  rw [hunlocked]
  exact remembered_iff made.flatten

/-- A chip without its hash. -/
private def cold : Worker :=
  { chip := { family := .adau14xx, transport := .memory {}, useSafeload := false } }

/-- The hash appears in the pause behind the second attempt. -/
private def booting (number : Nat) (worker : Worker) : Worker :=
  if number = 2 then
    { worker with chip.transport := .memory (({} : Bank).preload 0x3000 [0, 0, 0, 42]) }
  else worker

-- Two attempts are too few, the third one finds the hash.
example : [2, 3].map (fun attempts =>
    (({} : HashGate).afterTrials
      [.startup cold (some ⟨0x3000, 42⟩) ⟨attempts, 0⟩ booting]).isUnlocked) =
      [false, true] := rfl

end HashGate

end TuningBridge
