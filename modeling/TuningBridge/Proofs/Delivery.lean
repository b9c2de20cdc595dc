import TuningBridge.Link

/-!
# Delivery over a link

The pieces in which bytes arrive do not count: a read takes the first bytes of the stream, and reads
that follow each other take what one read of the same length takes.  A peer with enough room accepts
every byte of a write.
-/

namespace TuningBridge.Link

/-- The bytes that have not been taken, first byte first. -/
def stream (link : Link) : Bytes := link.incoming.flatten

/-- The link behind a number of bytes. -/
def skip (link : Link) (count : Nat) : Link :=
  { link with incoming := (takeFrom count link.incoming).2 }

/-- The link after the peer has accepted bytes. -/
def deliver (link : Link) (bytes : Bytes) : Link :=
  { link with
    accepted := link.accepted ++ bytes
    capacity := link.capacity.map (· - bytes.length) }

/-- The peer accepts at least a number of bytes, and flushing works. -/
def HasRoom (link : Link) (count : Nat) : Prop :=
  link.flushFault = none ∧ ∀ room ∈ link.capacity, count ≤ room

/-- Where a byte is left, fewer were dropped than there are. -/
private theorem lt_length_of_drop_eq_cons {piece tail : Bytes} {count : Nat} {byte : UInt8}
    (h : piece.drop count = byte :: tail) : count < piece.length := by
  have hlength := congrArg List.length h
  rw [List.length_drop, List.length_cons] at hlength
  omega

/-- The bytes taken are the first ones of all pieces together, and the others stay. -/
theorem takeFrom_flatten (count : Nat) (pieces : List Bytes) :
    (takeFrom count pieces).1 = pieces.flatten.take count ∧
      (takeFrom count pieces).2.flatten = pieces.flatten.drop count := by
  induction pieces generalizing count with
  | nil => cases count <;> simp [takeFrom]
  | cons piece rest ih =>
    cases count with
    | zero => simp [takeFrom]
    | succ count =>
      obtain ⟨htaken, hleft⟩ := ih (count + 1 - piece.length)
      rw [List.flatten_cons, List.take_append, List.drop_append]
      cases hdrop : piece.drop (count + 1) with
      | nil =>
        have hle : piece.length ≤ count + 1 := List.drop_eq_nil_iff.mp hdrop
        simp [takeFrom, hdrop, htaken, hleft, List.take_of_length_le hle]
      | cons byte tail =>
        have hlt : count + 1 < piece.length := lt_length_of_drop_eq_cons hdrop
        have hzero : count + 1 - piece.length = 0 := by omega
        simp [takeFrom, hdrop, hzero]

/-- Taking bytes twice leaves what taking all of them at once leaves. -/
theorem takeFrom_takeFrom (first second : Nat) (pieces : List Bytes) :
    (takeFrom second (takeFrom first pieces).2).2 = (takeFrom (first + second) pieces).2 := by
  induction pieces generalizing first with
  | nil => cases first <;> cases second <;> simp [takeFrom]
  | cons piece rest ih =>
    cases first with
    | zero => simp [takeFrom]
    | succ first =>
      rw [Nat.succ_add]
      cases hdrop : piece.drop (first + 1) with
      | nil =>
        have hle : piece.length ≤ first + 1 := List.drop_eq_nil_iff.mp hdrop
        have hdrop' : piece.drop (first + second + 1) = [] := List.drop_of_length_le (by omega)
        have hsum : first + 1 - piece.length + second =
            first + second + 1 - piece.length := by omega
        simp [takeFrom, hdrop, hdrop', ih, hsum]
      | cons byte tail =>
        cases second with
        | zero => simp [takeFrom, hdrop]
        | succ second =>
          have hlt : first + 1 < piece.length := lt_length_of_drop_eq_cons hdrop
          have htail : (byte :: tail).drop (second + 1) =
              piece.drop (first + (second + 1) + 1) := by
            rw [← hdrop, List.drop_drop]
            congr 1
            omega
          have hlength : (byte :: tail).length = piece.length - (first + 1) := by
            rw [← hdrop, List.length_drop]
          have hleft : second + 1 - (byte :: tail).length =
              first + (second + 1) + 1 - piece.length := by omega
          simp only [takeFrom, hdrop, htail, hleft]
          split <;> rfl

section

variable {link : Link} {count : Nat}

/-- Skipping bytes of a link drops them from its stream. -/
@[simp] theorem stream_skip : (link.skip count).stream = link.stream.drop count :=
  (takeFrom_flatten count link.incoming).2

/-- Bytes that are skipped in two parts are skipped at once. -/
@[simp] theorem skip_skip (first second : Nat) :
    (link.skip first).skip second = link.skip (first + second) := by
  simp only [skip, takeFrom_takeFrom]

@[simp] theorem deliver_nil : link.deliver [] = link := by
  simp [deliver]

/-- What is sent does not change what is received. -/
@[simp] theorem stream_deliver (bytes : Bytes) : (link.deliver bytes).stream = link.stream := rfl

/-- Behind accepted bytes there is room for the rest. -/
theorem HasRoom.deliver {first second : Bytes} (h : link.HasRoom (first ++ second).length) :
    (link.deliver first).HasRoom second.length := by
  refine ⟨h.1, fun room hroom => ?_⟩
  obtain ⟨room', hroom', rfl⟩ := Option.map_eq_some_iff.mp hroom
  have hle := h.2 room' hroom'
  rw [List.length_append] at hle
  omega

/-- A link that has room for bytes has room for fewer. -/
theorem HasRoom.mono {fewer : Nat} (h : link.HasRoom count) (hle : fewer ≤ count) :
    link.HasRoom fewer :=
  ⟨h.1, fun room hroom => Nat.le_trans hle (h.2 room hroom)⟩

/-- A read of no more than the stream takes its first bytes. -/
theorem receive_of_le (h : count ≤ link.stream.length) :
    link.receive count = (.ok (link.stream.take count), link.skip count) := by
  have htaken : (takeFrom count link.incoming).1 = link.stream.take count :=
    (takeFrom_flatten count link.incoming).1
  have hlength : (link.stream.take count).length = count := by
    rw [List.length_take, Nat.min_eq_left h]
  simp only [receive, htaken, hlength, ite_true, skip]

/-- A read of more than the stream meets its end. -/
theorem receive_of_lt (h : link.stream.length < count) :
    link.receive count = (.error link.ending.toError, link.skip count) := by
  have htaken : (takeFrom count link.incoming).1 = link.stream.take count :=
    (takeFrom_flatten count link.incoming).1
  have hlength : (link.stream.take count).length ≠ count := by
    rw [List.length_take]
    omega
  simp only [receive, htaken, hlength, ite_false, skip]

/-- A peer with enough room accepts a write. -/
theorem send_of_hasRoom {bytes : Bytes} (h : link.HasRoom bytes.length) :
    link.send bytes = (.ok (), link.deliver bytes) := by
  obtain ⟨hflush, hroom⟩ := h
  cases hcapacity : link.capacity with
  | none => simp [send, deliver, hcapacity, hflush]
  | some room =>
    have hle : bytes.length ≤ room := hroom room hcapacity
    simp [send, deliver, hcapacity, hflush, List.take_of_length_le hle]

end

end TuningBridge.Link
