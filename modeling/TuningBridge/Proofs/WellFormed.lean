import TuningBridge.Packet
import TuningBridge.Proofs.Action
import TuningBridge.Proofs.Assignment

/-!
# Well-formed packets

A header is valid for a family and an operation if it has the family's layout for the operation,
names the operation in its first byte and holds values that fit.  A packet is well formed up to a
limit if its header is valid, declares no more data than the limit, and is followed by exactly the
declared data or, in a read request, by nothing.  Valid headers are the byte strings of the right
length behind the right first byte, and a byte string starts with at most one of them.
-/

namespace TuningBridge

/-- The byte of an operation is the only one that stands for it. -/
theorem Operation.code_of_ofCode? {code : UInt8} {operation : Operation}
    (h : Operation.ofCode? code = some operation) : operation.code = code := by
  simp only [Operation.ofCode?] at h
  split_ifs at h with hwrite hrequest hresponse
  · rw [← Option.some.inj h, hwrite, Operation.code]
  · rw [← Option.some.inj h, hrequest, Operation.code]
  · rw [← Option.some.inj h, hresponse, Operation.code]

/-- The number of payload bytes behind a header that declares a length. -/
def Operation.payloadLength : Operation → Nat → Nat
  | .readRequest, _ => 0
  | _, declared => declared

/-- Just three bytes stand for operations. -/
theorem Operation.ofCode?_eq_none_iff {code : UInt8} :
    Operation.ofCode? code = none ↔ code ≠ 0x09 ∧ code ≠ 0x0A ∧ code ≠ 0x0B := by
  simp only [Operation.ofCode?]
  split_ifs <;> simp_all

/-- Behind all headers but that of a read request there is a payload of the declared length. -/
theorem Operation.payloadLength_of_ne {operation : Operation} (h : operation ≠ .readRequest)
    (declared : Nat) : operation.payloadLength declared = declared := by
  cases operation with
  | readRequest => exact absurd rfl h
  | write => rfl
  | readResponse => rfl

/-- The number of bytes in a header. -/
def Family.headerLength (family : Family) (operation : Operation) : Nat :=
  (family.layout operation).foldr (fun (_, _, size) total => size + total) 0

/-- A header in the family's layout for an operation that it names, with values that fit. -/
structure Header.Valid (header : Header) (family : Family) (operation : Operation) : Prop where
  layout : header.layout = family.layout operation
  fits : header.Fits
  code : header.value .operation = .ok operation.code.toUInt64

/-- A packet with a valid header, a declared length within the limit and a payload of that length,
or none behind a read request. -/
structure Packet.WellFormed (packet : Packet) (family : Family) (limit : Nat) : Prop where
  header : ∃ operation, packet.header.Valid family operation ∧
    packet.payload.length = operation.payloadLength (packet.header.number .dataLength)
  within : packet.header.number .dataLength ≤ limit

namespace Family

/-- The layouts of packets leave no gap. -/
theorem gapless_layout (family : Family) (operation : Operation) :
    Header.gapless 0 (family.layout operation) = true := by
  cases family <;> cases operation <;> rfl

/-- The layouts of packets name no field twice. -/
theorem nodup_layout (family : Family) (operation : Operation) :
    ((family.layout operation).map Prod.fst).Nodup := by
  cases family <;> cases operation <;> decide

/-- Every header starts with the byte of its operation. -/
theorem layout_eq_cons (family : Family) (operation : Operation) :
    ∃ rest, family.layout operation = (.operation, 0, 1) :: rest := by
  cases family <;> cases operation <;> exact ⟨_, rfl⟩

/-- Every header declares a length, in at most four bytes. -/
theorem mem_layout_dataLength (family : Family) (operation : Operation) :
    ∃ offset size, (.dataLength, offset, size) ∈ family.layout operation ∧ size ≤ 4 := by
  have h : ∃ entry ∈ family.layout operation, entry.1 = .dataLength ∧ entry.2.2 ≤ 4 := by
    cases family <;> cases operation <;> decide
  obtain ⟨⟨name, offset, size⟩, hmem, rfl, hsize⟩ := h
  exact ⟨offset, size, hmem, hsize⟩

/-- Every request names a register by two bytes. -/
theorem mem_layout_address (family : Family) {operation : Operation}
    (h : operation ≠ .readResponse) :
    ∃ offset, (.address, offset, 2) ∈ family.layout operation := by
  cases family <;> cases operation <;> simp_all [layout]

theorem headerLength_pos (family : Family) (operation : Operation) :
    0 < family.headerLength operation := by
  cases family <;> cases operation <;> decide

/-- The byte of an operation selects the family's layout for it. -/
theorem headerOfCode_code (family : Family) (operation : Operation) :
    ∃ blank, family.headerOfCode operation.code none = .ok blank ∧
      blank.layout = family.layout operation := by
  cases family <;> cases operation <;> exact ⟨_, rfl, rfl⟩

end Family

namespace Header

/-- A header in the layout of a family has the length of that layout. -/
theorem size_eq_headerLength {header : Header} {family : Family} {operation : Operation}
    (h : header.layout = family.layout operation) :
    header.size = family.headerLength operation := by
  rw [size_eq_foldr, h, Family.headerLength]

/-- The first byte of a header in a family's layout is the value of its operation field. -/
theorem bytes_eq_cons {header : Header} {family : Family} {operation : Operation}
    (hl : header.layout = family.layout operation) (hf : header.Fits) :
    ∃ value rest, header.value .operation = .ok value ∧ value.toNat < 256 ∧
      header.bytes = UInt8.ofNat value.toNat :: rest := by
  have hg := hl ▸ family.gapless_layout operation
  obtain ⟨tail, htail⟩ := family.layout_eq_cons operation
  rw [htail] at hl
  rw [bytes_eq_flatMap hg]
  obtain ⟨fields⟩ := header
  cases fields with
  | nil => simp at hl
  | cons field fields =>
    simp only [layout_cons, List.cons.injEq, Prod.mk.injEq] at hl
    obtain ⟨⟨hname, hoffset, hsize⟩, hl⟩ := hl
    have hvalue := (fits_cons.mp hf).1
    rw [hsize, pow_one] at hvalue
    refine ⟨field.value, fields.flatMap Field.bytes, by simp [value, get?, hname], hvalue, ?_⟩
    simp [Field.bytes, hsize, Bytes.ofNat]

/-- A byte string of the length of a header and with the byte of the operation in front is a
header. -/
theorem exists_valid {family : Family} {operation : Operation} {data : Bytes}
    (hlen : data.length = family.headerLength operation)
    (hcode : data.head? = some operation.code) :
    ∃ header : Header, header.Valid family operation ∧ header.bytes = data := by
  obtain ⟨blank, _, hl⟩ := family.headerOfCode_code operation
  have hg := hl ▸ family.gapless_layout operation
  obtain ⟨header, _, hl', hf, hbytes⟩ :=
    parse_gapless hg (hlen.trans (size_eq_headerLength hl).symm)
  obtain ⟨value, rest, hvalue, hlt, hcons⟩ := bytes_eq_cons (hl'.trans hl) hf
  have hfirst : UInt8.ofNat value.toNat = operation.code := by
    rw [← hbytes, hcons] at hcode
    exact Option.some.inj hcode
  have hcode' : value = operation.code.toUInt64 := by
    rw [← hfirst, ← UInt64.toNat_inj, UInt8.toNat_toUInt64, UInt8.toNat_ofNat',
      Nat.mod_eq_of_lt hlt]
  exact ⟨header, ⟨hl'.trans hl, hf, hcode' ▸ hvalue⟩, hbytes⟩

namespace Valid

variable {header : Header} {family : Family} {operation : Operation}

theorem gapless (h : header.Valid family operation) : Header.gapless 0 header.layout = true :=
  h.layout ▸ family.gapless_layout operation

theorem nodup (h : header.Valid family operation) : (header.layout.map Prod.fst).Nodup :=
  h.layout ▸ family.nodup_layout operation

/-- No field of a valid header has the name of another one. -/
theorem nodup_names (h : header.Valid family operation) : header.names.Nodup := by
  rw [Header.names, ← Header.map_fst_layout]
  exact h.nodup

/-- A valid header has as many bytes as its layout. -/
theorem length_bytes (h : header.Valid family operation) :
    header.bytes.length = family.headerLength operation :=
  (Header.length_bytes h.gapless).trans (size_eq_headerLength h.layout)

/-- The bytes of a valid header start with the byte of its operation. -/
theorem bytes_eq_cons (h : header.Valid family operation) :
    ∃ rest, header.bytes = operation.code :: rest := by
  obtain ⟨value, rest, hvalue, hlt, hcons⟩ := Header.bytes_eq_cons h.layout h.fits
  have hcode : value = operation.code.toUInt64 := Except.ok.inj (hvalue.symm.trans h.code)
  refine ⟨rest, ?_⟩
  rw [hcons, hcode, UInt8.toNat_toUInt64, UInt8.ofNat_toNat]

/-- Any blank header of the layout reads the bytes of a valid header as that header. -/
theorem parse_bytes (h : header.Valid family operation) {blank : Header}
    (hl : blank.layout = family.layout operation) :
    blank.parse header.bytes = (.ok (), header) := by
  have hg : Header.gapless 0 blank.layout = true := hl ▸ family.gapless_layout operation
  obtain ⟨parsed, hparse, hl', hf, hbytes⟩ :=
    parse_gapless hg (h.length_bytes.trans (size_eq_headerLength hl).symm)
  have hlayout : header.layout = parsed.layout := h.layout.trans (hl'.trans hl).symm
  rw [hparse, eq_of_bytes_eq (hl'.symm ▸ hg) hlayout hf h.fits hbytes]

/-- A byte string starts with at most one valid header. -/
theorem eq_of_prefix {other : Header} {operation' : Operation} {stream : Bytes}
    (h : header.Valid family operation) (h' : other.Valid family operation')
    (hp : header.bytes <+: stream) (hp' : other.bytes <+: stream) :
    operation = operation' ∧ header = other := by
  obtain ⟨rest, hrest⟩ := h.bytes_eq_cons
  obtain ⟨rest', hrest'⟩ := h'.bytes_eq_cons
  have hcode : operation.code = operation'.code := by
    obtain ⟨tail, rfl⟩ := hp
    obtain ⟨tail', htail'⟩ := hp'
    rw [hrest, hrest', List.cons_append, List.cons_append] at htail'
    exact (List.cons.inj htail').1.symm
  have hoperation : operation = operation' := by
    have := congrArg Operation.ofCode? hcode
    simpa [Operation.ofCode?_code] using this
  subst hoperation
  have hlen : header.bytes.length = other.bytes.length := h.length_bytes.trans h'.length_bytes.symm
  have hbytes := List.IsPrefix.eq_of_length (List.prefix_of_prefix_length_le hp hp' hlen.le) hlen
  exact ⟨rfl, eq_of_bytes_eq h.gapless (h'.layout.trans h.layout.symm) h.fits h'.fits hbytes⟩

/-- A valid header is recognized by the byte of its operation. -/
theorem operation? (h : header.Valid family operation) : header.operation? = some operation := by
  have hvalue := h.code
  cases hfield : header.get? .operation with
  | none => simp [value, hfield] at hvalue
  | some field =>
    have hcode : field.value = operation.code.toUInt64 := by simpa [value, hfield] using hvalue
    have hlt : field.value.toNat < 256 := by
      rw [hcode, UInt8.toNat_toUInt64]
      exact operation.code.toNat_lt
    have hbyte : field.value.toUInt8 = operation.code := by rw [hcode, UInt8.toUInt8_toUInt64]
    simp [Header.operation?, hfield, hlt, hbyte, Operation.ofCode?_code]

/-- The declared length is what the field holds. -/
theorem dataLength (h : header.Valid family operation) :
    header.dataLength = .ok (header.number .dataLength) := by
  obtain ⟨offset, size, hmem, _⟩ := family.mem_layout_dataLength operation
  obtain ⟨⟨value, hvalue, hnumber⟩, _⟩ := number_of_mem_layout (h.layout ▸ hmem) h.nodup h.fits
  simp [Header.dataLength, hvalue, ← hnumber]

theorem isWrite (h : header.Valid family operation) :
    header.isWrite = decide (operation = .write) := by
  simp [Header.isWrite, h.operation?]

/-- A valid header is that of a read request just if it names that operation. -/
theorem isReadRequest (h : header.Valid family operation) :
    header.isReadRequest = decide (operation = .readRequest) := by
  simp [Header.isReadRequest, h.operation?]

/-- Behind all valid headers but that of a read request there is a payload. -/
theorem carriesPayload (h : header.Valid family operation) :
    header.carriesPayload = decide (operation ≠ .readRequest) := by
  cases operation <;>
    simp [Header.carriesPayload, Header.isWrite, Header.isReadResponse, h.operation?]

/-- The address of a request is what the field holds. -/
theorem address (h : header.Valid family operation) (hne : operation ≠ .readResponse) :
    header.address = .ok (UInt16.ofNat (header.number .address)) := by
  obtain ⟨offset, hmem⟩ := family.mem_layout_address hne
  obtain ⟨⟨value, hvalue, hnumber⟩, hlt⟩ := number_of_mem_layout (h.layout ▸ hmem) h.nodup h.fits
  have hlt : value.toNat < 0x10000 := by simpa [hnumber] using hlt
  rw [← hnumber]
  simp [Header.address, hvalue, hlt]

end Valid

end Header

namespace Packet

theorem ofHeader_header {packet : Packet} (h : packet.payload = []) :
    ofHeader packet.header = packet := by
  rw [ofHeader, ← h]

/-- A payload of the declared length leaves the header as it is. -/
theorem make_eq {header : Header} {family : Family} {operation : Operation} {payload : Bytes}
    (h : header.Valid family operation) (hlen : payload.length = header.number .dataLength) :
    make header payload = .ok ⟨header, payload⟩ := by
  obtain ⟨offset, size, hmem, _⟩ := family.mem_layout_dataLength operation
  obtain ⟨value, hfield⟩ := Header.get?_of_mem_layout (h.layout ▸ hmem) h.nodup
  have hnumber : header.number .dataLength = value.toNat := by simp [Header.number, hfield]
  have hset : header.set .dataLength (UInt64.ofNat payload.length) = .ok header := by
    rw [hlen, hnumber, UInt64.ofNat_toNat]
    exact Header.set_self h.fits hfield
  by_cases hzero : header.number .dataLength = 0
  · simp [make, setPayload, ofHeader, h.dataLength, hzero, hset]
  · simp [make, setPayload, ofHeader, h.dataLength, hzero, hlen]

namespace WellFormed

variable {packet other : Packet} {family : Family} {limit bound : Nat}

/-- A packet has bytes. -/
theorem bytes_ne_nil (h : packet.WellFormed family limit) : packet.bytes ≠ [] := by
  obtain ⟨operation, hvalid, _⟩ := h.header
  obtain ⟨rest, hrest⟩ := hvalid.bytes_eq_cons
  simp [bytes, hrest]

/-- A byte string starts with at most one well-formed packet. -/
theorem eq_of_prefix {stream : Bytes} (h : packet.WellFormed family limit)
    (h' : other.WellFormed family bound) (hp : packet.bytes <+: stream)
    (hp' : other.bytes <+: stream) : packet = other := by
  obtain ⟨operation, hvalid, hlen⟩ := h.header
  obtain ⟨operation', hvalid', hlen'⟩ := h'.header
  obtain ⟨rfl, hheader⟩ := hvalid.eq_of_prefix hvalid'
    ((List.prefix_append _ _).trans hp) ((List.prefix_append _ _).trans hp')
  obtain ⟨header, payload⟩ := packet
  obtain ⟨header', payload'⟩ := other
  obtain rfl : header = header' := hheader
  have hpayload : payload.length = payload'.length := hlen.trans hlen'.symm
  have hbytes : (header.bytes ++ payload).length = (header.bytes ++ payload').length := by
    rw [List.length_append, List.length_append, hpayload]
  have happend : header.bytes ++ payload = header.bytes ++ payload' :=
    (List.prefix_of_prefix_length_le hp hp' hbytes.le).eq_of_length hbytes
  rw [List.append_cancel_left happend]

end WellFormed

end Packet

end TuningBridge
