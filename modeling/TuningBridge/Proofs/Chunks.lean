import TuningBridge.Chunk

/-!
# Chunks of a write

The chunks of a write carry its data in order: full ones that start as many registers apart as there
is room for words, and a last one that is no longer; where there is no room, one chunk carries all
of it.  This determines the chunks.  So data that fits into one chunk is not cut, and no chunk has
more words than a frame has room for.
-/

namespace TuningBridge.Chunk

variable {words room : Nat} {address : UInt16} {data : Bytes} {chunk : Chunk}
  {chunks rest : List Chunk}

/-- How chunks carry data to the registers from an address on, with room for a number of words in
each.  Where there is no room the data is not cut. -/
structure Carries (room : Nat) (address : UInt16) (data : Bytes) (chunks : List Chunk) : Prop where
  /-- The payloads in order are the data. -/
  payloads : chunks.flatMap (·.payload) = data
  /-- No payload is empty. -/
  nonempty : ∀ chunk ∈ chunks, chunk.payload ≠ []
  /-- Without room there is one chunk at most, and it has all of the data. -/
  whole : room = 0 → chunks.length ≤ 1 ∧ ∀ chunk ∈ chunks, chunk = ⟨address, data⟩
  /-- Otherwise there is room for every payload, -/
  fits : 0 < room → ∀ chunk ∈ chunks, chunk.payload.length ≤ 4 * room
  /-- and every chunk but the last is full. -/
  full : 0 < room → ∀ chunk ∈ chunks.dropLast, chunk.payload.length = 4 * room
  /-- The chunks start as many registers apart as there is room for words; addresses wrap around. -/
  start : ∀ index chunk, chunks[index]? = some chunk →
    chunk.address = address + UInt16.ofNat (index * room)
  /-- Every chunk starts behind the whole words of the one before it. -/
  follows : ∀ index chunk next, chunks[index]? = some chunk → chunks[index + 1]? = some next →
    next.address = chunk.address + UInt16.ofNat (chunk.payload.length / 4)

/-- A chunk more is a number of words further. -/
private theorem step_start (address : UInt16) (room index : Nat) :
    address + UInt16.ofNat ((index + 1) * room) =
      address + UInt16.ofNat room + UInt16.ofNat (index * room) := by
  rw [UInt16.add_assoc, ← UInt16.ofNat_add, Nat.succ_mul, Nat.add_comm room]

private theorem zero_start (address : UInt16) (room : Nat) :
    address + UInt16.ofNat (0 * room) = address := by
  rw [Nat.zero_mul]
  exact UInt16.add_zero address

namespace Carries

/-- The first chunk starts at the address. -/
theorem address_head (h : Carries room address data (chunk :: rest)) : chunk.address = address :=
  (h.start 0 chunk rfl).trans (zero_start address room)

/-- No chunks carry no data. -/
theorem nil_iff : Carries room address data [] ↔ data = [] := by
  constructor
  · intro h
    exact h.payloads.symm
  · rintro rfl
    exact ⟨rfl, by simp, by simp, by simp, by simp, by simp, by simp⟩

/-- No data needs no chunks. -/
theorem eq_nil (h : Carries room address [] chunks) : chunks = [] := by
  rw [List.eq_nil_iff_forall_not_mem]
  intro chunk hchunk
  exact h.nonempty chunk hchunk (List.flatMap_eq_nil_iff.mp h.payloads chunk hchunk)

/-- One chunk carries the data for which there is room in it, and any data where there is no room at
all. -/
theorem singleton_iff : Carries room address data [chunk] ↔
    chunk = ⟨address, data⟩ ∧ data ≠ [] ∧ (0 < room → data.length ≤ 4 * room) := by
  constructor
  · intro h
    have hpayload : chunk.payload = data := by
      have hpayloads := h.payloads
      rwa [List.flatMap_singleton] at hpayloads
    have haddress : chunk.address = address := h.address_head
    subst hpayload haddress
    exact ⟨rfl, h.nonempty chunk List.mem_cons_self,
      fun hpos => h.fits hpos chunk List.mem_cons_self⟩
  · rintro ⟨rfl, hne, hle⟩
    refine ⟨List.flatMap_singleton _ _, by simpa, by simp, by simpa, by simp, ?_, by simp⟩
    intro index chunk hchunk
    cases index with
    | zero =>
      obtain rfl := Option.some.inj hchunk
      exact (zero_start address room).symm
    | succ index => cases hchunk

/-- In front of other chunks stands a full one. -/
theorem length_head (h : Carries room address data (chunk :: rest)) (hpos : 0 < room)
    (hrest : rest ≠ []) : chunk.payload.length = 4 * room := by
  refine h.full hpos chunk ?_
  rw [List.dropLast_cons_of_ne_nil hrest]
  exact List.mem_cons_self

/-- Behind a full chunk the others carry the rest of the data. -/
theorem tail (h : Carries room address data (chunk :: rest)) (hpos : 0 < room) (hrest : rest ≠ []) :
    Carries room (address + UInt16.ofNat room) (data.drop (4 * room)) rest where
  payloads := by
    rw [← h.payloads, List.flatMap_cons, ← h.length_head hpos hrest, List.drop_left]
  nonempty := fun other hother => h.nonempty other (List.mem_cons_of_mem _ hother)
  whole := by omega
  fits := fun _ other hother => h.fits hpos other (List.mem_cons_of_mem _ hother)
  full := by
    intro _ other hother
    refine h.full hpos other ?_
    rw [List.dropLast_cons_of_ne_nil hrest]
    exact List.mem_cons_of_mem _ hother
  start := fun index other hother =>
    (h.start (index + 1) other hother).trans (step_start address room index)
  follows := fun index other next hother hnext => h.follows (index + 1) other next hother hnext

/-- A full chunk in front of others carries as much more data. -/
theorem cons (h : Carries room (address + UInt16.ofNat room) (data.drop (4 * room)) rest)
    (hpos : 0 < room) (hrest : rest ≠ []) (hle : 4 * room ≤ data.length) :
    Carries room address data (⟨address, data.take (4 * room)⟩ :: rest) := by
  have hlength : (data.take (4 * room)).length = 4 * room := List.length_take_of_le hle
  have hne : data.take (4 * room) ≠ [] := by
    rw [← List.length_pos_iff]
    omega
  refine ⟨?_, List.forall_mem_cons.mpr ⟨hne, h.nonempty⟩, by omega,
    fun _ => List.forall_mem_cons.mpr ⟨Nat.le_of_eq hlength, h.fits hpos⟩, ?_, ?_, ?_⟩
  · rw [List.flatMap_cons, h.payloads, List.take_append_drop]
  · intro _
    rw [List.dropLast_cons_of_ne_nil hrest]
    exact List.forall_mem_cons.mpr ⟨hlength, h.full hpos⟩
  · intro index other hother
    cases index with
    | zero =>
      obtain rfl := Option.some.inj hother
      exact (zero_start address room).symm
    | succ index => exact (h.start index other hother).trans (step_start address room index).symm
  · intro index other next hother hnext
    cases index with
    | zero =>
      obtain rfl := Option.some.inj hother
      rw [hlength, Nat.mul_div_cancel_left _ (by decide)]
      exact (h.start 0 next hnext).trans (zero_start _ room)
    | succ index => exact h.follows index other next hother hnext

/-- Data that is carried by more than one chunk is longer than the first of them. -/
theorem lt_length (h : Carries room address data (chunk :: rest)) (hpos : 0 < room)
    (hrest : rest ≠ []) : 4 * room < data.length := by
  have htail := h.tail hpos hrest
  refine Nat.lt_of_not_le fun hle => ?_
  rw [List.drop_eq_nil_iff.mpr hle] at htail
  exact hrest htail.eq_nil

/-- The first chunk has the first words of the data. -/
theorem head_eq (h : Carries room address data (chunk :: rest)) (hpos : 0 < room)
    (hrest : rest ≠ []) : chunk = ⟨address, data.take (4 * room)⟩ := by
  have hpayload : data.take (4 * room) = chunk.payload := by
    rw [← h.payloads, List.flatMap_cons, ← h.length_head hpos hrest, List.take_left]
  rw [hpayload, ← h.address_head]

end Carries

/-- Cutting data gives the chunks that carry it, and no others do. -/
theorem split_eq_iff :
    split words address data = chunks ↔ Carries (words + 1) address data chunks := by
  have hpos : 0 < words + 1 := Nat.succ_pos words
  revert chunks
  fun_induction split words address data with
  | case1 address data length hrest =>
    rename_i hempty
    intro chunks
    obtain rfl := List.isEmpty_iff.mp hempty
    constructor
    · rintro rfl
      exact Carries.nil_iff.mpr rfl
    · intro h
      exact h.eq_nil.symm
  | case2 address data length hrest =>
    rename_i hempty
    intro chunks
    have hne : data ≠ [] := fun h => hempty (List.isEmpty_iff.mpr h)
    rw [List.isEmpty_iff, List.drop_eq_nil_iff] at hrest
    constructor
    · rintro rfl
      exact Carries.singleton_iff.mpr ⟨rfl, hne, fun _ => hrest⟩
    · intro h
      match chunks, h with
      | [], h => exact absurd (Carries.nil_iff.mp h) hne
      | [chunk], h => rw [(Carries.singleton_iff.mp h).1]
      | chunk :: next :: rest, h =>
        exact absurd (h.lt_length hpos (List.cons_ne_nil _ _)) (Nat.not_lt.mpr hrest)
  | case3 address data length hrest =>
    rename_i ih
    intro chunks
    rw [List.isEmpty_iff] at hrest
    have hlong : length < data.length := by
      rwa [List.drop_eq_nil_iff, Nat.not_le] at hrest
    constructor
    · rintro rfl
      have htail := ih.mp rfl
      refine htail.cons hpos ?_ (Nat.le_of_lt hlong)
      intro hnil
      rw [hnil] at htail
      exact hrest (Carries.nil_iff.mp htail)
    · intro h
      match chunks, h with
      | [], h => exact absurd hlong (by simp [Carries.nil_iff.mp h])
      | [chunk], h => exact absurd ((Carries.singleton_iff.mp h).2.2 hpos) (Nat.not_le.mpr hlong)
      | chunk :: next :: rest, h =>
        have hrest : next :: rest ≠ [] := List.cons_ne_nil _ _
        rw [h.head_eq hpos hrest, ih.mpr (h.tail hpos hrest)]

/-- Data that is not cut is carried by one chunk, and no data by none. -/
private theorem uncut_eq_iff : (if data.isEmpty then [] else [⟨address, data⟩]) = chunks ↔
    Carries 0 address data chunks := by
  constructor
  · rintro rfl
    split
    · next hempty => exact Carries.nil_iff.mpr (List.isEmpty_iff.mp hempty)
    · next hempty =>
      have hne : data ≠ [] := fun h => hempty (List.isEmpty_iff.mpr h)
      exact Carries.singleton_iff.mpr ⟨rfl, hne, by omega⟩
  · intro h
    match chunks, h with
    | [], h =>
      rw [Carries.nil_iff.mp h]
      rfl
    | [chunk], h =>
      obtain ⟨rfl, hne, _⟩ := Carries.singleton_iff.mp h
      rw [if_neg (mt List.isEmpty_iff.mp hne)]
    | chunk :: next :: rest, h =>
      have hlength := (h.whole rfl).1
      simp at hlength

/-- The chunks of a write carry its data. -/
theorem carries_ofWrite (address : UInt16) (data : Bytes) (words : Nat) :
    Carries (min words maxWords) address data (ofWrite address data words) := by
  rw [ofWrite]
  split
  · next hzero =>
    rw [hzero]
    exact uncut_eq_iff.mp rfl
  · next count hcount =>
    rw [hcount]
    exact split_eq_iff.mp rfl

/-- The payloads of the chunks of a write are its data. -/
theorem flatMap_payload_ofWrite (address : UInt16) (data : Bytes) (words : Nat) :
    (ofWrite address data words).flatMap (·.payload) = data :=
  (carries_ofWrite address data words).payloads

/-- Data for which there is room in one chunk stays whole, as does any where there is no room at
all. -/
theorem ofWrite_of_le (hne : data ≠ []) (hle : words = 0 ∨ data.length ≤ 4 * min words maxWords) :
    ofWrite address data words = [⟨address, data⟩] := by
  rw [ofWrite]
  split
  · exact uncut_eq_iff.mpr (Carries.singleton_iff.mpr ⟨rfl, hne, by omega⟩)
  · exact split_eq_iff.mpr (Carries.singleton_iff.mpr ⟨rfl, hne, by omega⟩)

/-- A chunk has no more words than go into a frame. -/
theorem length_payload_le (hpos : 0 < words) (h : chunk ∈ ofWrite address data words) :
    chunk.payload.length ≤ 4 * words := by
  have hroom : 0 < min words maxWords := Nat.lt_min.mpr ⟨hpos, by decide⟩
  have hle := (carries_ofWrite address data words).fits hroom chunk h
  omega

/-- A write is cut into the chunks that carry its data, with room for as many words in each as a
frame has room for, but for no more than 65535; there are no others. -/
theorem ofWrite_eq_iff_carries (address : UInt16) (data : Bytes) (words : Nat)
    (chunks : List Chunk) :
    ofWrite address data words = chunks ↔ Carries (min words 65535) address data chunks := by
  rw [ofWrite, maxWords]
  split
  · next hzero =>
    rw [hzero]
    exact uncut_eq_iff
  · next count hcount =>
    rw [hcount]
    exact split_eq_iff

-- The second chunk starts where the addresses wrap around, and the last one has a part of a word.
example : ofWrite 0xFFFE [1, 2, 3, 4, 5, 6, 7, 8, 9, 10, 11, 12, 13, 14, 15, 16, 17, 18] 2 =
    [⟨0xFFFE, [1, 2, 3, 4, 5, 6, 7, 8]⟩, ⟨0x0000, [9, 10, 11, 12, 13, 14, 15, 16]⟩,
      ⟨0x0002, [17, 18]⟩] := by
  decide +kernel

end TuningBridge.Chunk
