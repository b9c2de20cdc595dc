import TuningBridge.RegisterMap

/-!
# Words and registers

The words of a byte string are as many as it occupies, none of them is empty or longer than four
bytes, and where the byte string consists of whole words all of them have four.  Storing a block
puts its words into consecutive registers; registers that are put once hold what was put there, and
all others what they held.
-/

namespace TuningBridge

namespace Bytes

variable {data word : Bytes}

/-- What is no word and a rest is shorter than a word. -/
private theorem length_of_not_word {short : Bytes}
    (h : ∀ a b c d rest, short = a :: b :: c :: d :: rest → False) : short.length ≤ 3 := by
  match short, h with
  | [], _ => simp
  | [a], _ => simp
  | [a, b], _ => simp
  | [a, b, c], _ => simp
  | a :: b :: c :: d :: rest, h => exact (h a b c d rest rfl).elim

theorem length_words (data : Bytes) : (words data).length = wordCount data := by
  fun_induction words data with
  | case1 a b c d rest ih =>
    simp only [List.length_cons, ih, wordCount]
    omega
  | case2 => rfl
  | case3 short hshort hne =>
    have hle := length_of_not_word hshort
    have hpos : short.length ≠ 0 := fun h => hne (List.length_eq_zero_iff.mp h)
    simp only [wordCount, List.length_singleton]
    omega

/-- No word is empty, and none has more than four bytes. -/
theorem length_of_mem_words (h : word ∈ words data) : 0 < word.length ∧ word.length ≤ 4 := by
  fun_induction words data with
  | case1 a b c d rest ih =>
    rcases List.mem_cons.mp h with rfl | h
    · simp
    · exact ih h
  | case2 => cases h
  | case3 short hshort hne =>
    obtain rfl := List.mem_singleton.mp h
    have hle := length_of_not_word hshort
    exact ⟨List.length_pos_iff.mpr hne, by omega⟩

/-- The words of a byte string of whole words have four bytes. -/
theorem length_of_mem_words_of_whole (hwhole : data.length % 4 = 0) (h : word ∈ words data) :
    word.length = 4 := by
  fun_induction words data with
  | case1 a b c d rest ih =>
    rcases List.mem_cons.mp h with rfl | h
    · rfl
    · refine ih ?_ h
      simp only [List.length_cons] at hwhole
      omega
  | case2 => cases h
  | case3 short hshort hne =>
    have hle := length_of_not_word hshort
    have hpos := List.length_pos_iff.mpr hne
    omega

/-- Whole words in front do not change where the words behind them are cut. -/
theorem words_append {first : Bytes} (hwhole : first.length % 4 = 0) (second : Bytes) :
    words (first ++ second) = words first ++ words second := by
  fun_induction words first with
  | case1 a b c d rest ih =>
    have hrest : rest.length % 4 = 0 := by
      simp only [List.length_cons] at hwhole
      omega
    simp only [List.cons_append, words, ih hrest]
  | case2 => rfl
  | case3 short hshort hne =>
    have hle := length_of_not_word hshort
    have hpos := List.length_pos_iff.mpr hne
    omega

/-- The words of a byte string by their numbers. -/
theorem getElem?_words {index : Nat} (h : 4 * index < data.length) :
    (words data)[index]? = some ((data.drop (4 * index)).take 4) := by
  fun_induction words data generalizing index with
  | case1 a b c d rest ih =>
    cases index with
    | zero => rfl
    | succ index =>
      simp only [List.length_cons] at h
      rw [List.getElem?_cons_succ, ih (by omega)]
      rfl
  | case2 => cases h
  | case3 short hshort hne =>
    have hle := length_of_not_word hshort
    obtain rfl : index = 0 := by omega
    rw [Nat.mul_zero, List.drop_zero, List.take_of_length_le (by omega)]
    rfl

/-- Neighbouring words of a byte string are a part of it. -/
theorem flatMap_words (data : Bytes) (start count : Nat) :
    ((List.range count).flatMap fun index => (data.drop (4 * (start + index))).take 4) =
      (data.drop (4 * start)).take (4 * count) := by
  induction count with
  | zero => rfl
  | succ count ih =>
    rw [List.range_succ, List.flatMap_append, ih, List.flatMap_singleton, Nat.mul_succ,
      List.take_add, List.drop_drop, Nat.mul_add]

/-- A byte string is as it is cut or padded just if it has that length. -/
theorem fit_eq_self_iff {length : Nat} : fit length data = data ↔ data.length = length := by
  constructor
  · intro h
    rw [← h, length_fit]
  · rintro rfl
    rw [fit, List.take_length, Nat.sub_self, List.replicate_zero, List.append_nil]

theorem wordCount_of_whole {count : Nat} (h : data.length = 4 * count) :
    wordCount data = count := by
  rw [wordCount]
  omega

end Bytes

namespace RegisterMap

/-- Replace the contents of registers, one after the other. -/
def puts (map : RegisterMap) (cells : List (UInt16 × Bytes)) : RegisterMap :=
  cells.foldl (fun map (register, data) => map.put register data) map

/-- The bytes that a register holds; a register that holds nothing has none. -/
def contents (map : RegisterMap) (register : UInt16) : Bytes := (map.get? register).getD []

/-- The registers that data written at an address goes to, each with its contents. -/
def spread (address : UInt16) (data : Bytes) : List (UInt16 × Bytes) :=
  if isBlock data.length then
    (Bytes.words data).zipIdx.map fun (word, index) => (address + UInt16.ofNat index, word)
  else [(address, data)]

/-- Of two contents of one register the later one stays. -/
theorem put_put (map : RegisterMap) (address : UInt16) (first second : Bytes) :
    (map.put address first).put address second = map.put address second := by
  refine ext_get? fun register => ?_
  rw [get?_put, get?_put, get?_put]
  split <;> rfl

@[simp] theorem puts_nil (map : RegisterMap) : map.puts [] = map := rfl

@[simp] theorem puts_cons (map : RegisterMap) (cell : UInt16 × Bytes)
    (rest : List (UInt16 × Bytes)) :
    map.puts (cell :: rest) = (map.put cell.1 cell.2).puts rest := rfl

theorem puts_append (map : RegisterMap) (first second : List (UInt16 × Bytes)) :
    map.puts (first ++ second) = (map.puts first).puts second :=
  List.foldl_append

/-- Registers hold what was last put into them, or else what they held. -/
theorem get?_puts (map : RegisterMap) (cells : List (UInt16 × Bytes)) (register : UInt16) :
    (map.puts cells).get? register = (cells.reverse.lookup register).or (map.get? register) := by
  induction cells generalizing map with
  | nil => rfl
  | cons cell rest ih =>
    rw [puts_cons, ih, get?_put, List.reverse_cons, List.lookup_append, Option.or_assoc]
    congr 1
    by_cases hcell : cell.1 = register
    · rw [if_pos hcell, ← hcell, List.lookup_cons_self, Option.some_or]
    · have hother : (register == cell.1) = false := beq_false_of_ne (Ne.symm hcell)
      rw [if_neg hcell, List.lookup_cons, hother]
      rfl

/-- Registers that are not put hold what they held. -/
theorem get?_puts_of_notMem {map : RegisterMap} {cells : List (UInt16 × Bytes)} {register : UInt16}
    (h : register ∉ cells.map Prod.fst) : (map.puts cells).get? register = map.get? register := by
  induction cells generalizing map with
  | nil => rfl
  | cons cell rest ih =>
    simp only [List.map_cons, List.mem_cons, not_or] at h
    obtain ⟨hne, hrest⟩ := h
    rw [puts_cons, ih hrest, get?_put, if_neg (Ne.symm hne)]

/-- Registers that are put once hold what was put there. -/
theorem get?_puts_of_mem {map : RegisterMap} {cells : List (UInt16 × Bytes)} {cell : UInt16 × Bytes}
    (hnodup : (cells.map Prod.fst).Nodup) (h : cell ∈ cells) :
    (map.puts cells).get? cell.1 = some cell.2 := by
  induction cells generalizing map with
  | nil => cases h
  | cons first rest ih =>
    obtain ⟨hfirst, hnodup⟩ := List.nodup_cons.mp hnodup
    rw [puts_cons]
    rcases List.mem_cons.mp h with rfl | h
    · rw [get?_puts_of_notMem hfirst, get?_put, if_pos rfl]
    · exact ih hnodup h

/-- Registers with the same contents have the same contents after the same was put. -/
theorem get?_puts_congr {map other : RegisterMap} {cells : List (UInt16 × Bytes)}
    {register : UInt16} (h : map.get? register = other.get? register) :
    (map.puts cells).get? register = (other.puts cells).get? register := by
  induction cells generalizing map other with
  | nil => exact h
  | cons cell rest ih =>
    refine ih ?_
    rw [get?_put, get?_put, h]

theorem contents_puts_of_mem {map : RegisterMap} {cells : List (UInt16 × Bytes)} {register : UInt16}
    {data : Bytes} (hnodup : (cells.map Prod.fst).Nodup) (h : (register, data) ∈ cells) :
    (map.puts cells).contents register = data := by
  rw [contents, get?_puts_of_mem hnodup h]
  rfl

/-- A block is put word by word. -/
private theorem storeWords_eq_puts (map : RegisterMap) (address : UInt16) (start : Nat)
    {data : Bytes} (hwhole : data.length % 4 = 0) :
    map.storeWords (address + UInt16.ofNat start) data =
      map.puts (((Bytes.words data).zipIdx start).map fun (word, index) =>
        (address + UInt16.ofNat index, word)) := by
  fun_induction Bytes.words data generalizing map start with
  | case1 a b c d rest ih =>
    have hrest : rest.length % 4 = 0 := by
      simp only [List.length_cons] at hwhole
      omega
    have hnext : address + UInt16.ofNat start + 1 = address + UInt16.ofNat (start + 1) := by
      rw [UInt16.ofNat_add, UInt16.add_assoc]
      rfl
    rw [storeWords, hnext, ih _ _ hrest, List.zipIdx_cons, List.map_cons, puts_cons]
  | case2 => rfl
  | case3 short hshort hne =>
    have hlength : short.length = 0 := by
      have : short.length ≤ 3 := Bytes.length_of_not_word hshort
      omega
    exact absurd (List.length_eq_zero_iff.mp hlength) hne

/-- Storing data puts it into the registers that it goes to. -/
theorem store_eq_puts (map : RegisterMap) (address : UInt16) (data : Bytes) :
    map.store address data = map.puts (spread address data) := by
  rw [store, spread]
  split
  · next hblock =>
    simp only [isBlock, Bool.and_eq_true, beq_iff_eq] at hblock
    have h := storeWords_eq_puts map address 0 hblock.2
    have hzero : address + UInt16.ofNat 0 = address := UInt16.add_zero address
    rwa [hzero] at h
  · rfl

/-- Data that is no block goes to one register. -/
theorem spread_of_not_block {data : Bytes} (h : isBlock data.length = false) (address : UInt16) :
    spread address data = [(address, data)] := by
  rw [spread, h, if_neg Bool.false_ne_true]

/-- Whole words go to consecutive registers. -/
theorem spread_of_whole {data : Bytes} {count : Nat} (hwhole : data.length = 4 * count)
    (hpos : 0 < count) (address : UInt16) :
    spread address data =
      (Bytes.words data).zipIdx.map fun (word, index) => (address + UInt16.ofNat index, word) := by
  rw [spread]
  split
  · rfl
  · next hblock =>
    have hone : data.length = 4 := by
      simp only [isBlock, Bool.and_eq_true, decide_eq_true_eq, beq_iff_eq] at hblock
      omega
    match data, hone with
    | [a, b, c, d], _ => simp [Bytes.words]

/-- Behind whole words the registers go on where these end. -/
theorem spread_append {first second : Bytes} {count : Nat} (hfirst : first.length = 4 * count)
    (hpos : 0 < count) (hwhole : second.length % 4 = 0) (hne : second ≠ []) (address : UInt16) :
    spread address (first ++ second) =
      spread address first ++ spread (address + UInt16.ofNat count) second := by
  have hsecond : second.length = 4 * (second.length / 4) := by omega
  have hpos' : 0 < second.length / 4 := by
    have := List.length_pos_iff.mpr hne
    omega
  have hlength : (first ++ second).length = 4 * (count + second.length / 4) := by
    rw [List.length_append]
    omega
  have hcount : (Bytes.words first).length = count := by
    rw [Bytes.length_words, Bytes.wordCount_of_whole hfirst]
  have hwords : Bytes.words (first ++ second) = Bytes.words first ++ Bytes.words second :=
    Bytes.words_append (by omega) second
  rw [spread_of_whole hlength (by omega), spread_of_whole hfirst hpos,
    spread_of_whole hsecond hpos', hwords, List.zipIdx_append, List.map_append,
    hcount, Nat.zero_add, List.zipIdx_eq_map_add (l := Bytes.words second) (i := count),
    List.map_map]
  congr 1
  refine List.map_congr_left fun cell _ => ?_
  simp only [Function.comp_apply, UInt16.ofNat_add, UInt16.add_assoc]

end RegisterMap

end TuningBridge
