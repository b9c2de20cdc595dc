import TuningBridge.Proofs.Edits
import TuningBridge.Proofs.Template
import TuningBridge.Session

/-!
# Replies to read requests

The reply to a read request repeats the values of the request in the fields that both layouts have,
says that it is a response and a success, and carries the data.  Every shared field is at least as
wide in the reply, with one exception: the reserved field of `adau14xx` is two bytes wide in a
request and one byte wide in a response, so a reply can be made if and only if the value fits one
byte.
-/

namespace TuningBridge

/-- The number in a field of the reply to a request. -/
def Header.replyNumber (request : Header) : FieldName → Nat
  | .operation => Operation.readResponse.code.toNat
  | .success => 0
  | name => request.number name

/-- The header of the reply to a request. -/
def Family.replyHeader (family : Family) (request : Header) : Header :=
  .ofValues (family.layout .readResponse) fun name => UInt64.ofNat (request.replyNumber name)

/-- The reserved bytes of a request do not fit the reserved byte of a reply. -/
def Family.OverflowsReply (family : Family) (request : Header) : Prop :=
  family = .adau14xx ∧ 255 < request.number .reserved

instance (family : Family) (request : Header) : Decidable (family.OverflowsReply request) :=
  inferInstanceAs (Decidable (_ ∧ _))

namespace Family

/-- A field of a request is no wider than the field of its name in the reply, but for the reserved
one. -/
theorem size_le_of_mem_layout (family : Family) {name : FieldName} {offset size offset' size' : Nat}
    (h : (name, offset, size) ∈ family.layout .readRequest)
    (h' : (name, offset', size') ∈ family.layout .readResponse) :
    size ≤ size' ∨ family = .adau14xx ∧ name = .reserved ∧ size' = 1 := by
  have hall : ∀ entry ∈ family.layout .readRequest, ∀ entry' ∈ family.layout .readResponse,
      entry.1 = entry'.1 → entry.2.2 ≤ entry'.2.2 ∨
        family = .adau14xx ∧ entry.1 = .reserved ∧ entry'.2.2 = 1 := by
    cases family <;> decide
  exact hall _ h _ h' rfl

theorem layout_replyHeader (family : Family) (request : Header) :
    (family.replyHeader request).layout = family.layout .readResponse :=
  Header.layout_ofValues _ _

/-- Two bytes of a response say what it is and that it is a success. -/
theorem mem_layout_success (family : Family) :
    ∃ offset, (.success, offset, 1) ∈ family.layout .readResponse := by
  cases family
  · exact ⟨12, by decide⟩
  · exact ⟨3, by decide⟩

end Family

/-- The number in a field as a word. -/
theorem Header.ofNat_number (header : Header) (name : FieldName) :
    UInt64.ofNat (header.number name) = ((header.get? name).map (·.value)).getD 0 := by
  rw [number]
  cases header.get? name with
  | none => rfl
  | some field =>
    rw [Option.map_some, Option.getD_some, UInt64.ofNat_toNat, Option.map_some, Option.getD_some]

section

variable {family : Family} {request : Header} {source : Field}

/-- The reserved bytes of a request are the number in the field that has their name. -/
private theorem number_reserved (h : request.Valid family .readRequest)
    (hsource : source ∈ request.fields) (hname : source.name = .reserved) :
    request.number .reserved = source.value.toNat := by
  rw [← hname, Header.number, Header.get?_of_mem hsource h.nodup]
  rfl

/-- Only the reserved bytes of a request can be too large for the reply. -/
private theorem reserved_of_overflows (h : request.Valid family .readRequest)
    (hsource : source ∈ request.fields) (hover : source.Overflows (family.layout .readResponse)) :
    family.OverflowsReply request ∧ source.name = .reserved := by
  obtain ⟨offset, size, hmem', hle⟩ := hover
  have hvalue : source.value.toNat < 256 ^ source.size := h.fits source hsource
  have hmem : (source.name, source.offset, source.size) ∈ family.layout .readRequest :=
    h.layout ▸ List.mem_map_of_mem hsource
  rcases family.size_le_of_mem_layout hmem hmem' with hsize | ⟨hfamily, hname, rfl⟩
  · have hlt := hvalue.trans_le (Nat.pow_le_pow_right (by norm_num) hsize)
    exact absurd hlt (not_lt.mpr hle)
  · refine ⟨⟨hfamily, ?_⟩, hname⟩
    rw [number_reserved h hsource hname]
    omega

/-- A header that is filled from a request is that of its reply, but for the success. -/
private theorem set_success_filledHeader (family : Family) (request : Header) :
    (family.filledHeader .readResponse request).set .success 0 =
      .ok (family.replyHeader request) := by
  obtain ⟨offset, hmem⟩ := family.mem_layout_success
  have hzero : (0 : UInt64).toNat < 256 ^ 1 := by decide
  rw [Family.filledHeader, Header.set_ofValues hmem (family.nodup_layout .readResponse) hzero,
    Family.replyHeader]
  congr 2
  funext name
  by_cases hsuccess : name = .success
  · rw [hsuccess, Function.update_self]
    rfl
  by_cases hoperation : name = .operation
  · rw [hoperation, Function.update_of_ne (by decide), if_pos rfl]
    rfl
  · have hnumber : request.replyNumber name = request.number name := by
      cases name <;> first | rfl | contradiction
    rw [Function.update_of_ne hsuccess, if_neg hoperation, hnumber, Header.ofNat_number]

/-- The header of a reply is made unless the reserved bytes overflow. -/
private theorem headerOf_readResponse (h : request.Valid family .readRequest)
    (hno : ¬family.OverflowsReply request) :
    family.headerOf .readResponse (some request) =
      .ok (family.filledHeader .readResponse request) :=
  Family.headerOfCode_of_fit h.nodup_names fun _ hsource hover =>
    hno (reserved_of_overflows h hsource hover).1

end

section

variable {family : Family} {request : Header} {data : Bytes}

/-- The header of a reply is valid. -/
theorem Header.Valid.replyHeader (h : request.Valid family .readRequest)
    (hno : ¬family.OverflowsReply request) :
    (family.replyHeader request).Valid family .readResponse := by
  have hfits := (Header.Given.filled (headerOf_readResponse h hno)).arranged.fits
  refine ⟨family.layout_replyHeader request, ?_, ?_⟩
  · exact (Header.keeps_set (set_success_filledHeader family request)).fits hfits
  · cases family <;> rfl

/-- A reply declares as much data as its request. -/
theorem number_dataLength_replyHeader (family : Family) (request : Header) :
    (family.replyHeader request).number .dataLength = request.number .dataLength := by
  rw [← Header.toNat_ofNat_number request]
  cases family <;> rfl

/-- A reply is made of its header and the data. -/
theorem reply_eq_ok (h : request.Valid family .readRequest) (hno : ¬family.OverflowsReply request)
    (hlen : data.length = request.number .dataLength) :
    SessionM.reply family request data = .ok ⟨family.replyHeader request, data⟩ := by
  have hmake : Packet.make (family.replyHeader request) data =
      .ok ⟨family.replyHeader request, data⟩ :=
    Packet.make_eq (h.replyHeader hno)
      (hlen.trans (number_dataLength_replyHeader family request).symm)
  rw [SessionM.reply, headerOf_readResponse h hno, Actions.ok_bind, set_success_filledHeader,
    Actions.ok_bind, hmake]

/-- Reserved bytes that overflow are the cause for which a reply fails. -/
theorem reply_eq_error (h : request.Valid family .readRequest)
    (hover : family.OverflowsReply request) :
    SessionM.reply family request data =
      .error (.invalidFieldValue .reserved (.doesNotFit (request.number .reserved) 8)) := by
  obtain ⟨rfl, hlarge⟩ := hover
  rcases Header.forall_not_overflows_or_first request.fields
    (Family.adau14xx.layout .readResponse) with
    hfit | ⟨before, source, rest, hsplit, hbefore, hover⟩
  · -- the reserved field is there, and does overflow
    have hreserved : (.reserved, 12, 2) ∈ request.layout := h.layout ▸ by decide
    obtain ⟨value, hget⟩ := Header.get?_of_mem_layout hreserved h.nodup
    have hmem := List.mem_of_find?_eq_some hget
    have hnumber := number_reserved h hmem rfl
    have hentry : (.reserved, 13, 1) ∈ Family.adau14xx.layout .readResponse := by decide
    exact absurd ⟨13, 1, hentry, by omega⟩ (hfit _ hmem)
  · have hsource : source ∈ request.fields := by simp [hsplit]
    have hname := (reserved_of_overflows h hsource hover).2
    obtain ⟨offset, size, hentry, hle⟩ := hover
    obtain ⟨rfl, rfl⟩ : offset = 13 ∧ size = 1 := by simpa [hname, Family.layout] using hentry
    have hfail := Family.headerOfCode_of_overflow h.nodup_names hsplit hbefore hentry hle
    rw [SessionM.reply, Family.headerOf, hfail, Actions.error_bind,
      number_reserved h hsource hname, hname]

end

end TuningBridge
