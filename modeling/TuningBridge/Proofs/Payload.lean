import TuningBridge.Family
import TuningBridge.Packet
import TuningBridge.Proofs.Action
import TuningBridge.Proofs.Assignment

/-!
# Payloads and their declared length

A payload is given to a packet step by step: a length that is not declared yet goes into the header
first, and only then the payload is stored.  Nothing is changed before the last step that can fail,
so a refused payload leaves the packet as it was.  A payload that is accepted has the declared
length afterwards; whatever is given to a packet that was made with a payload, the two agree, and
once there are bytes their number stays.
-/

namespace TuningBridge

/-- A byte string whose length is a word. -/
def Bytes.Countable (bytes : Bytes) : Prop := bytes.length < 2 ^ 64

instance (bytes : Bytes) : Decidable bytes.Countable := inferInstanceAs (Decidable (_ < _))

/-- The length of a byte string as a word. -/
theorem Bytes.Countable.toNat_ofNat {bytes : Bytes} (h : bytes.Countable) :
    (UInt64.ofNat bytes.length).toNat = bytes.length := by
  rw [UInt64.toNat_ofNat', Nat.mod_eq_of_lt h]

theorem Header.dataLength_of_some {header : Header} {field : Field}
    (h : header.get? .dataLength = some field) : header.dataLength = .ok field.value.toNat := by
  rw [dataLength, value, h]
  rfl

theorem Header.dataLength_of_none {header : Header} (h : header.get? .dataLength = none) :
    header.dataLength = .error (.unknownField .dataLength) := by
  rw [dataLength, value, h]
  rfl

/-- An action on a packet; what it did to the packet before it failed stays done. -/
abbrev PacketM := EStateM Error Packet

/-- Replace the payload of a packet, one step after the other. -/
def PacketM.setPayload (payload : Bytes) : PacketM Unit := do
  let packet ← get
  let declared ← MonadExcept.ofExcept packet.header.dataLength
  if declared = 0 then
    let header ← MonadExcept.ofExcept (packet.header.set .dataLength (UInt64.ofNat payload.length))
    set { packet with header }
  else if declared ≠ payload.length then
    throw (.lengthMismatch declared payload.length)
  modify fun packet => { packet with payload }

namespace Packet

section Replacement

variable {packet : Packet} {payload : Bytes} {header : Header} {error : Error}

/-- The steps end where replacing the payload at once does, and if they fail, they did nothing. -/
theorem run_setPayload (packet : Packet) (payload : Bytes) :
    (PacketM.setPayload payload).run packet =
      match packet.setPayload payload with
      | .ok after => .ok () after
      | .error error => .error error packet := by
  rw [PacketM.setPayload, setPayload, Actions.run_bind_ok (EStateM.run_get packet)]
  cases hdeclared : packet.header.dataLength with
  | error error => rfl
  | ok declared =>
    rw [Actions.run_bind_ok Actions.run_ofExcept_ok, Actions.ok_bind]
    by_cases hzero : declared = 0
    · rw [if_pos hzero, if_pos hzero]
      cases packet.header.set .dataLength (UInt64.ofNat payload.length) <;> rfl
    · rw [if_neg hzero, if_neg hzero]
      by_cases hlength : declared = payload.length
      · rw [if_neg (not_not.mpr hlength), if_pos hlength]
        rfl
      · rw [if_pos hlength, if_neg hlength]
        rfl

/-- The condition under which a payload is accepted. -/
def Takes (packet : Packet) (payload : Bytes) : Prop :=
  ∃ field, packet.header.get? .dataLength = some field ∧
    (field.value.toNat = payload.length ∨ field.value.toNat = 0 ∧ payload.length < 256 ^ field.size)

/-- The header behind a payload that is accepted. -/
inductive Accepts (packet : Packet) (payload : Bytes) : Header → Prop
  /-- The declared length is that of the payload. -/
  | matched {field : Field} : packet.header.get? .dataLength = some field → field.value.toNat ≠ 0 →
      field.value.toNat = payload.length → Accepts packet payload packet.header
  /-- No length was declared, and that of the payload fits. -/
  | filled {field : Field} {header : Header} : packet.header.get? .dataLength = some field →
      field.value.toNat = 0 → payload.length < 256 ^ field.size →
      packet.header.Stored .dataLength (UInt64.ofNat payload.length) header →
      Accepts packet payload header

/-- Why a payload is refused. -/
inductive Refuses (packet : Packet) (payload : Bytes) : Error → Prop
  /-- There is no place for a length. -/
  | undeclared : packet.header.get? .dataLength = none →
      Refuses packet payload (.unknownField .dataLength)
  /-- Another length is declared. -/
  | mismatched {field : Field} :
      packet.header.get? .dataLength = some field → field.value.toNat ≠ 0 →
      field.value.toNat ≠ payload.length →
      Refuses packet payload (.lengthMismatch field.value.toNat payload.length)
  /-- No length was declared, and that of the payload does not fit. -/
  | oversized {field : Field} : packet.header.get? .dataLength = some field →
      field.value.toNat = 0 →
      256 ^ field.size ≤ payload.length →
      Refuses packet payload
        (.invalidFieldValue .dataLength (.doesNotFit payload.length (field.size * 8)))

/-- What comes of a payload that is given to a packet: the result, and the packet behind it. -/
inductive PayloadCourse (packet : Packet) (payload : Bytes) :
    EStateM.Result Error Packet Unit → Prop
  | accepted {header : Header} :
      packet.Accepts payload header → PayloadCourse packet payload (.ok () ⟨header, payload⟩)
  | refused {error : Error} : packet.Refuses payload error →
      PayloadCourse packet payload (.error error packet)

theorem Accepts.takes (h : packet.Accepts payload header) : packet.Takes payload := by
  cases h with
  | matched hfield _ hlength => exact ⟨_, hfield, .inl hlength⟩
  | filled hfield hzero hlt => exact ⟨_, hfield, .inr ⟨hzero, hlt⟩⟩

/-- The declared length is that of the payload. -/
theorem Accepts.dataLength (h : packet.Accepts payload header) (hcount : payload.Countable) :
    header.dataLength = .ok payload.length := by
  cases h with
  | matched hfield _ hlength => rw [Header.dataLength_of_some hfield, hlength]
  | filled hfield _ _ hstored =>
    rw [Header.dataLength_of_some (hstored.get?_eq hfield)]
    exact congrArg Except.ok hcount.toNat_ofNat

/-- A payload that is accepted leaves the layout of the header. -/
theorem Accepts.layout (h : packet.Accepts payload header) :
    header.layout = packet.header.layout := by
  cases h with
  | matched => rfl
  | filled _ _ _ hstored => exact hstored.layout

/-- A payload that is accepted changes no field but the declared length. -/
theorem Accepts.get?_of_ne (h : packet.Accepts payload header) {name : FieldName}
    (hne : name ≠ .dataLength) : header.get? name = packet.header.get? name := by
  cases h with
  | matched => rfl
  | filled _ _ _ hstored => exact hstored.get?_of_ne name hne

/-- A payload that is refused does not meet the condition. -/
theorem Refuses.not_takes (h : packet.Refuses payload error) : ¬packet.Takes payload := by
  rintro ⟨field, hfield, hlength⟩
  cases h with
  | undeclared hnone => cases hnone.symm.trans hfield
  | mismatched hsome hne hother =>
    obtain rfl := Option.some.inj (hsome.symm.trans hfield)
    exact hlength.elim hother fun hzero => hne hzero.1
  | oversized hsome hzero hle =>
    obtain rfl := Option.some.inj (hfield.symm.trans hsome)
    have hpos : 0 < 256 ^ field.size := Nat.pow_pos (by decide)
    omega

/-- Another length than the declared one is refused, and the packet left as it is. -/
theorem run_setPayload_of_ne {length : Nat} (hdeclared : packet.header.dataLength = .ok length)
    (hpos : 0 < length) (hne : payload.length ≠ length) :
    (PacketM.setPayload payload).run packet =
      .error (.lengthMismatch length payload.length) packet := by
  rw [run_setPayload, setPayload, hdeclared, Actions.ok_bind, if_neg hpos.ne', if_neg hne.symm]
  rfl

/-- A payload is accepted or refused, and the result and the packet behind it say which. -/
theorem payloadCourse (packet : Packet) (h : payload.Countable) :
    PayloadCourse packet payload ((PacketM.setPayload payload).run packet) := by
  cases hfield : packet.header.get? .dataLength with
  | none =>
    rw [run_setPayload, setPayload, Header.dataLength_of_none hfield, Actions.error_bind]
    exact .refused (.undeclared hfield)
  | some field =>
    have hdeclared := Header.dataLength_of_some hfield
    by_cases hzero : field.value.toNat = 0
    · rw [run_setPayload, setPayload, hdeclared, Actions.ok_bind, if_pos hzero]
      by_cases hlt : payload.length < 256 ^ field.size
      · have hword : (UInt64.ofNat payload.length).toNat < 256 ^ field.size := by
          rwa [h.toNat_ofNat]
        obtain ⟨changed, hset, hstored⟩ := Header.set_of_lt hfield hword
        rw [hset]
        exact .accepted (.filled hfield hzero hlt hstored)
      · have hle := not_lt.mp hlt
        rw [Header.set_of_le hfield (by rwa [h.toNat_ofNat]), h.toNat_ofNat]
        exact .refused (.oversized hfield hzero hle)
    · by_cases hlength : field.value.toNat = payload.length
      · rw [run_setPayload, setPayload, hdeclared, Actions.ok_bind, if_neg hzero, if_pos hlength]
        exact .accepted (.matched hfield hzero hlength)
      · rw [run_setPayload_of_ne hdeclared (Nat.pos_of_ne_zero hzero) (Ne.symm hlength)]
        exact .refused (.mismatched hfield hzero hlength)

/-- How a packet replaces its payload. -/
structure Replaces (packet : Packet) (payload : Bytes) : Prop where
  /-- It does so under one condition. -/
  accepted_iff : (∃ after, (PacketM.setPayload payload).run packet = .ok () after) ↔
    packet.Takes payload
  /-- The new payload has the declared length, and no other field is changed. -/
  accepted : ∀ after, (PacketM.setPayload payload).run packet = .ok () after →
    after.payload = payload ∧ after.header.dataLength = .ok payload.length ∧
      after.header.layout = packet.header.layout ∧
      ∀ name, name ≠ .dataLength → after.header.get? name = packet.header.get? name
  /-- Otherwise the packet stays as it is, with the error that fits the cause. -/
  refused : ∀ error after, (PacketM.setPayload payload).run packet = .error error after →
    after = packet ∧ packet.Refuses payload error
  /-- The steps end where replacing the payload at once does. -/
  at_once : (PacketM.setPayload payload).run packet =
    match packet.setPayload payload with
    | .ok after => .ok () after
    | .error error => .error error packet

/-- A payload is given to a packet under one condition, and otherwise changes nothing. -/
theorem replaces (packet : Packet) (h : payload.Countable) : packet.Replaces payload := by
  have hcourse := packet.payloadCourse h
  generalize hrun : (PacketM.setPayload payload).run packet = result at hcourse
  cases hcourse with
  | accepted haccepts =>
    refine ⟨⟨fun _ => haccepts.takes, fun _ => ⟨_, hrun⟩⟩, fun after hafter => ?_,
      fun error after herror => ?_, packet.run_setPayload payload⟩
    · obtain rfl := (EStateM.Result.ok.inj (hrun.symm.trans hafter)).2
      exact ⟨rfl, haccepts.dataLength h, haccepts.layout, fun _ => haccepts.get?_of_ne⟩
    · cases hrun.symm.trans herror
  | refused hrefuses =>
    refine ⟨⟨fun ⟨after, hafter⟩ => ?_, fun htakes => absurd htakes hrefuses.not_takes⟩,
      fun after hafter => ?_, fun error after herror => ?_, packet.run_setPayload payload⟩
    · cases hrun.symm.trans hafter
    · cases hrun.symm.trans hafter
    · obtain ⟨rfl, rfl⟩ := EStateM.Result.error.inj (hrun.symm.trans herror)
      exact ⟨rfl, hrefuses⟩

end Replacement

section Runs

variable {packet : Packet} {payload : Bytes}

/-- The packet behind a payload that was given to it, accepted or not. -/
def offered (packet : Packet) (payload : Bytes) : Packet :=
  match (PacketM.setPayload payload).run packet with
  | .ok _ after => after
  | .error _ after => after

/-- The packet behind payloads, one after the other, each of which may be refused. -/
def given (packet : Packet) (payloads : List Bytes) : Packet := payloads.foldl offered packet

/-- The declared length is that of the payload. -/
def Settled (packet : Packet) : Prop := packet.header.dataLength = .ok packet.payload.length

/-- A packet is settled by a payload that it accepts. -/
theorem settled_of_run {after : Packet} (hcount : payload.Countable)
    (h : (PacketM.setPayload payload).run packet = .ok () after) : after.Settled := by
  obtain ⟨hpayload, hlength, -⟩ := (packet.replaces hcount).accepted after h
  rw [Settled, hlength, hpayload]

/-- A packet that was made with a payload is settled. -/
theorem settled_of_make {header : Header} (hcount : payload.Countable)
    (h : make header payload = .ok packet) : packet.Settled := by
  have hset : (ofHeader header).setPayload payload = .ok packet := h
  have hrun : (PacketM.setPayload payload).run (ofHeader header) = .ok () packet := by
    rw [run_setPayload, hset]
  exact settled_of_run hcount hrun

/-- A packet stays settled whatever payload it is offered. -/
theorem Settled.offered (h : packet.Settled) (hcount : payload.Countable) :
    (packet.offered payload).Settled := by
  rw [Packet.offered]
  split
  · next after hrun => exact settled_of_run hcount hrun
  · next error after hrun =>
    obtain ⟨rfl, -⟩ := (packet.replaces hcount).refused error after hrun
    exact h

/-- A settled packet stays settled, whatever it is given. -/
theorem Settled.given (h : packet.Settled) {payloads : List Bytes}
    (hcount : ∀ payload ∈ payloads, payload.Countable) : (packet.given payloads).Settled := by
  induction payloads generalizing packet with
  | nil => exact h
  | cons payload rest ih =>
    obtain ⟨hfirst, hrest⟩ := List.forall_mem_cons.mp hcount
    exact ih (h.offered hfirst) hrest

/-- A settled packet that has bytes keeps their number. -/
theorem Settled.length_offered (h : packet.Settled) (hcount : payload.Countable)
    (hpos : 0 < packet.payload.length) :
    (packet.offered payload).payload.length = packet.payload.length := by
  by_cases hne : payload.length = packet.payload.length
  · rw [Packet.offered]
    split
    · next after hrun =>
      rw [((packet.replaces hcount).accepted after hrun).1, hne]
    · next error after hrun => rw [((packet.replaces hcount).refused error after hrun).1]
  · rw [Packet.offered, run_setPayload_of_ne h hpos hne]

/-- Once a packet has bytes, payloads do not change their number. -/
theorem Settled.length_given (h : packet.Settled) {payloads : List Bytes}
    (hcount : ∀ payload ∈ payloads, payload.Countable) (hpos : 0 < packet.payload.length) :
    (packet.given payloads).payload.length = packet.payload.length := by
  induction payloads generalizing packet with
  | nil => rfl
  | cons payload rest ih =>
    obtain ⟨hfirst, hrest⟩ := List.forall_mem_cons.mp hcount
    have hlength := h.length_offered hfirst hpos
    exact (ih (h.offered hfirst) hrest (hlength ▸ hpos)).trans hlength

/-- What holds of a packet after payloads were given to it. -/
structure KeepsLength (packet : Packet) (payloads : List Bytes) : Prop where
  /-- The declared length is that of the payload. -/
  settled : (packet.given payloads).Settled
  /-- Once there are bytes, no other number of them is accepted. -/
  refuses : 0 < (packet.given payloads).payload.length → ∀ payload : Bytes,
    payload.length ≠ (packet.given payloads).payload.length →
    (PacketM.setPayload payload).run (packet.given payloads) =
      .error (.lengthMismatch (packet.given payloads).payload.length payload.length)
        (packet.given payloads)
  /-- Once there are bytes, their number stays. -/
  keeps : 0 < (packet.given payloads).payload.length → ∀ more : List Bytes,
    (∀ payload ∈ more, payload.Countable) →
    (packet.given (payloads ++ more)).payload.length = (packet.given payloads).payload.length

/-- A settled packet keeps its length. -/
theorem Settled.keepsLength (h : packet.Settled) {payloads : List Bytes}
    (hcount : ∀ payload ∈ payloads, payload.Countable) : packet.KeepsLength payloads where
  settled := h.given hcount
  refuses hpos _ hne := run_setPayload_of_ne (h.given hcount) hpos hne
  keeps hpos more hmore := by
    have hgiven : packet.given (payloads ++ more) = (packet.given payloads).given more :=
      List.foldl_append
    rw [hgiven, (h.given hcount).length_given hmore hpos]

end Runs

/-- A packet accepts a payload exactly if the length is declared, or can be; it then has the new
payload and its length, and all else as before, and otherwise it is left as it was.  So the declared
length of a packet that was made with a payload is that of its payload whatever it is given, and
once it is not zero no other length is accepted. -/
theorem payload_of_declared_length :
    (∀ (packet : Packet) (payload : Bytes), payload.Countable → packet.Replaces payload) ∧
      ∀ (header : Header) (first : Bytes) (packet : Packet) (payloads : List Bytes),
        make header first = .ok packet → (∀ payload ∈ first :: payloads, payload.Countable) →
          packet.KeepsLength payloads := by
  refine ⟨fun packet payload => packet.replaces,
    fun header first packet payloads hmake hcount => ?_⟩
  obtain ⟨hfirst, hrest⟩ := List.forall_mem_cons.mp hcount
  exact (settled_of_make hfirst hmake).keepsLength hrest

/-- The header of a read response of `adau1x0x` that declares a length. -/
def responseOf (length : UInt64) : Header :=
  ⟨[⟨.operation, 0, 1, 0x0B⟩, ⟨.dataLength, 1, 2, length⟩, ⟨.success, 3, 1, 0⟩]⟩

/-- A response without bytes takes the length of the first bytes it is given; then four bytes are
refused, and three others accepted. -/
theorem payload_of_declared_length_response :
    Family.adau1x0x.headerOfCode 0x0B none = .ok (responseOf 0) ∧
      make (responseOf 0) [] = .ok (ofHeader (responseOf 0)) ∧
      (ofHeader (responseOf 0)).Replaces [1, 2, 3] ∧
      (ofHeader (responseOf 0)).KeepsLength [[1, 2, 3], [4, 5, 6, 7], [8, 9, 10]] ∧
      (ofHeader (responseOf 0)).given [[1, 2, 3], [4, 5, 6, 7], [8, 9, 10]] =
        ⟨responseOf 3, [8, 9, 10]⟩ := by
  have hmake : make (responseOf 0) [] = .ok (ofHeader (responseOf 0)) := by decide
  exact ⟨by decide, hmake, payload_of_declared_length.1 _ _ (by decide),
    payload_of_declared_length.2 (responseOf 0) [] _ _ hmake (by decide), by decide⟩

end Packet

end TuningBridge
