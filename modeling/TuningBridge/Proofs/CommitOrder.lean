import TuningBridge.Proofs.Frames
import TuningBridge.Proofs.Staging

/-!
# The commit of a safeload on a bus

Register writes return no failure, so a staging write that is not transferred does not keep a
safeload from its commit.  It is attempted before the commit, though, and reported as an error
before it.  Only the read of core control, which comes before the commit of `adau1x0x`, can end a
safeload without one.
-/

namespace TuningBridge

namespace Safeload

/-- What a safeload does on a bus behind its staging writes, and how it ends. -/
inductive Ending (port : Port) (data : Bytes) :
    Family → List Transfer → EStateM.Result Error Chip Unit → Prop
  /-- The number of words is sent. -/
  | counted (transferred : Bool) (after : Chip) :
    Ending port data .adau14xx [⟨port.wholeFrame (countWrite data), transferred⟩] (.ok () after)
  /-- Core control is read, and sent with the transfer bit set. -/
  | started (control : Bytes) (transferred : Bool) (after : Chip) :
    Ending port data .adau1x0x
      [⟨port.reading controlRegister 2, true⟩,
        ⟨port.wholeFrame (controlWrite control), transferred⟩]
      (.ok () after)
  /-- Core control is not read, and nothing is sent. -/
  | unread (after : Chip) :
    Ending port data .adau1x0x [⟨port.reading controlRegister 2, false⟩]
      (.error (.bus (port.readFault controlRegister)) after)

variable {chip : Chip} {port : Port} {words : Nat} {wire : Wire} {address : UInt16} {data : Bytes}

/-- Every staging write is attempted before the commit, and reported before it unless all its frames
are transferred.  On `adau1x0x` there is a commit if and only if core control is read. -/
theorem attempted_before_commit (hbus : chip.transport = .bus port words wire)
    (hcapacity : Bytes.wordCount data ≤ capacity) :
    ∃ (attempts : List Attempt) (closing : List Transfer) (next : Wire) (events : List Event),
      attempts.map (·.write) = staging chip.family address data ∧
      (∀ attempt ∈ attempts, attempt.IsReported port words ↔ ¬attempt.IsWhole port words) ∧
      Ending port data chip.family closing ((run address data).run chip) ∧
      (ChipM.final (run address data) chip).transport = .bus port words next ∧
      wire.CarriesOut (attempts.flatMap (·.transfers port words) ++ closing) next ∧
      (ChipM.final (run address data) chip).journal.toList =
        chip.journal.toList ++ attempts.flatMap (·.events port words) ++ events := by
  obtain ⟨attempts, middle, hwrites, hpossible, hmiddle, hstaging, hjournal⟩ :=
    chip.exists_attempts hbus (staging chip.family address data)
  have hreported : ∀ attempt ∈ attempts, attempt.IsReported port words ↔
      ¬attempt.IsWhole port words :=
    fun attempt hattempt => Attempt.isReported_iff (hpossible attempt hattempt)
  rw [← staged] at hmiddle hjournal
  cases hfamily : chip.family with
  | adau14xx =>
    obtain ⟨transferred, next, events, hnext, hcommit, hcommitted⟩ :=
      Chip.exists_transfer hmiddle (countWrite data) (by rw [length_countWrite]; decide)
        (Nat.le_of_eq (length_countWrite data))
    have hrun : (run address data).run chip =
        .ok () ((staged chip address data).afterWrite (countWrite data)) :=
      run_adau14xx hfamily hcapacity
    rw [hrun, ChipM.final_of_ok hrun]
    refine ⟨attempts, _, next, events, hfamily ▸ hwrites, hreported, .counted transferred _, hnext,
      hstaging.trans hcommit, ?_⟩
    rw [hcommitted, hjournal]
  | adau1x0x =>
    obtain ⟨between, reading, hbetween, hreading, hread⟩ :=
      Chip.exists_afterRead hmiddle controlRegister 2
    rcases hread with ⟨control, hok, htransfer⟩ | ⟨herror, htransfer⟩
    · obtain ⟨transferred, next, events, hnext, hcommit, hcommitted⟩ :=
        Chip.exists_transfer hbetween (controlWrite control) (by rw [length_controlWrite]; decide)
          (by rw [length_controlWrite]; decide)
      have hrun : (run address data).run chip = .ok () _ := run_adau1x0x_ok hfamily hcapacity hok
      rw [hrun, ChipM.final_of_ok hrun]
      refine ⟨attempts, _, next, reading ++ events, hfamily ▸ hwrites, hreported,
        .started control transferred _, hnext, hstaging.trans (htransfer.trans hcommit), ?_⟩
      rw [hcommitted, hreading, hjournal, List.append_assoc]
    · have hrun : (run address data).run chip = .error _ _ :=
        run_adau1x0x_error hfamily hcapacity herror
      rw [hrun, ChipM.final_of_error hrun]
      refine ⟨attempts, _, between, reading, hfamily ▸ hwrites, hreported, .unread _, hbetween,
        hstaging.trans htransfer, ?_⟩
      rw [hreading, hjournal]

/-- An `adau14xx` on a bus that loses its second transaction. -/
def secondLost : Chip :=
  { family := .adau14xx, transport := .bus .spi 1023 { fails := (· == 1) }, useSafeload := true }

theorem attempted_before_commit_secondLost :
    secondLost.transport = .bus .spi 1023 { fails := (· == 1) } ∧
    Bytes.wordCount [1, 2, 3, 4] ≤ capacity ∧
      ∃ (attempts : List Attempt) (closing : List Transfer) (next : Wire) (events : List Event),
        attempts.map (·.write) = staging .adau14xx 0x20 [1, 2, 3, 4] ∧
        (∀ attempt ∈ attempts, attempt.IsReported .spi 1023 ↔ ¬attempt.IsWhole .spi 1023) ∧
        Ending .spi [1, 2, 3, 4] .adau14xx closing ((run 0x20 [1, 2, 3, 4]).run secondLost) ∧
        (ChipM.final (run 0x20 [1, 2, 3, 4]) secondLost).transport = .bus .spi 1023 next ∧
        ({ fails := (· == 1) } : Wire).CarriesOut
          (attempts.flatMap (·.transfers .spi 1023) ++ closing) next ∧
        (ChipM.final (run 0x20 [1, 2, 3, 4]) secondLost).journal.toList =
          secondLost.journal.toList ++ attempts.flatMap (·.events .spi 1023) ++ events :=
  have hbus : secondLost.transport = .bus .spi 1023 { fails := (· == 1) } := rfl
  have hcapacity : Bytes.wordCount [1, 2, 3, 4] ≤ capacity := by decide
  ⟨hbus, hcapacity, attempted_before_commit hbus hcapacity⟩

/-- A transaction that commits a safeload. -/
def IsCommit (port : Port) (data : Bytes) : Family → Transaction → Prop
  | .adau14xx, transaction => transaction = port.wholeFrame (countWrite data)
  | .adau1x0x, transaction => ∃ control, transaction = port.wholeFrame (controlWrite control)

/-- Not everything in front of a commit is transferred: the number of words is sent behind an
address that was lost. -/
theorem not_transferred_before_commit :
    ¬∀ (chip : Chip) (port : Port) (words : Nat) (wire : Wire) (address : UInt16) (data : Bytes),
      chip.transport = .bus port words wire → data.length % 4 = 0 → 0 < Bytes.wordCount data →
        Bytes.wordCount data ≤ capacity →
          ∀ (before after : List Transfer) (commit : Transfer),
            (ChipM.final (run address data) chip).transport.transfers =
                chip.transport.transfers ++ before ++ commit :: after →
              IsCommit port data chip.family commit.transaction →
                ∀ transfer ∈ before, transfer.transferred = true := by
  intro h
  have htransfers : (ChipM.final (run 0x20 [1, 2, 3, 4]) secondLost).transport.transfers =
      [⟨.spiWrite [0, 0x60, 0x00, 1, 2, 3, 4], true⟩,
        ⟨.spiWrite [0, 0x60, 0x05, 0, 0, 0, 0x20], false⟩] ++
        [⟨.spiWrite [0, 0x60, 0x06, 0, 0, 0, 1], true⟩] := by decide +kernel
  have hlost := h secondLost .spi 1023 _ 0x20 [1, 2, 3, 4] rfl (by decide) (by decide) (by decide)
    _ [] _ htransfers rfl ⟨.spiWrite [0, 0x60, 0x05, 0, 0, 0, 0x20], false⟩ (by simp)
  cases hlost

end Safeload

end TuningBridge
