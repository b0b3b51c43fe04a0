import ChipEight.Proofs.Transfer
import Mathlib.Order.Bounds.Defs

/-!
# Checked accesses to memory

A cell is read or written, a row of cells is read, and a word is read from two cells.  Each of these
checks its addresses in its own way.  They agree: what takes several cells succeeds if and only if
each of the cells can be read, yields what they hold, and names the first address outside of memory
where it fails.  Only a range of no cells has a check that none of its cells asks for: it may start
at the end of memory but not behind it.
-/

namespace ChipEight

namespace Memory

/-! ## One cell -/

theorem read_eq (m : Memory) (address : Nat) :
    m.read address = (m.cells[address]?).elim (.error ⟨address⟩) .ok := by
  unfold read
  split
  next hlt =>
    rw [Vector.getElem?_eq_getElem hlt]
    rfl
  next hout =>
    rw [Vector.getElem?_eq_none (Nat.le_of_not_lt hout)]
    rfl

theorem read_eq_ok_iff (m : Memory) (address : Nat) (byte : UInt8) :
    m.read address = .ok byte ↔ m.cells[address]? = some byte := by
  rw [read_eq]
  cases m.cells[address]? with
  | none => exact iff_of_false nofun nofun
  | some cell =>
      change Except.ok cell = Except.ok byte ↔ _
      rw [Except.ok.injEq, Option.some.injEq]

theorem isOk_read_iff (m : Memory) (address : Nat) :
    (m.read address).isOk = true ↔ address < size := by
  unfold read
  split
  next hlt => exact iff_of_true rfl hlt
  next hout => exact iff_of_false nofun hout

theorem isOk_write_iff (m : Memory) (address : Nat) (value : UInt8) :
    (m.write address value).isOk = true ↔ address < size := by
  unfold write
  split
  next hlt => exact iff_of_true rfl hlt
  next hout => exact iff_of_false nofun hout

theorem read_of_write {m after : Memory} {address : Nat} {value : UInt8}
    (hwrite : m.write address value = .ok after) :
    after.read address = .ok value ∧
      ∀ other, other ≠ address → after.read other = m.read other := by
  have hlt : address < size := (m.isOk_write_iff address value).mp (by rw [hwrite]; rfl)
  rw [m.write_of_lt value hlt] at hwrite
  cases hwrite
  constructor
  · rw [read_eq_ok_iff, Vector.getElem?_setIfInBounds, if_pos rfl, if_pos hlt]
  · intro other hother
    rw [read_eq, read_eq, Vector.getElem?_setIfInBounds, if_neg hother.symm]

/-! ## Several cells -/

theorem isOk_range_iff (m : Memory) (address count : Nat) :
    (m.range address count).isOk = true ↔ address + count ≤ size := by
  unfold range
  split
  next hend => exact iff_of_true rfl hend
  next hout => exact iff_of_false nofun hout

theorem isOk_word_iff (m : Memory) (address : Nat) :
    (m.word address).isOk = true ↔ address + 1 < size := by
  unfold word
  split
  next hlt => exact iff_of_true rfl hlt
  next hout => exact iff_of_false nofun hout

theorem isOk_range_iff_reads (m : Memory) (address count : Nat) :
    (m.range address count).isOk = true ↔
      (∀ k < count, (m.read (address + k)).isOk = true) ∧ (count = 0 → address ≤ size) := by
  rw [isOk_range_iff]
  simp only [isOk_read_iff]
  constructor
  · intro hend
    exact ⟨fun k hk => by omega, fun hempty => by omega⟩
  · rintro ⟨hreads, hempty⟩
    cases count with
    | zero => exact hempty rfl
    | succ count =>
        have hlast := hreads count (Nat.lt_succ_self count)
        omega

theorem read_of_range {m : Memory} {address count : Nat} {bytes : List UInt8}
    (hrange : m.range address count = .ok bytes) (k : Nat) (hk : k < bytes.length) :
    m.read (address + k) = .ok bytes[k] := by
  obtain ⟨-, hlength, hbytes⟩ := (m.range_eq_ok_iff address count bytes).mp hrange
  rw [read_eq_ok_iff, hbytes k (by omega), List.getElem?_eq_getElem hk]

theorem reads_of_word {m : Memory} {address : Nat} {word : UInt16}
    (hword : m.word address = .ok word) :
    ∃ high low, m.read address = .ok high ∧ m.read (address + 1) = .ok low ∧
      word.toNat = 256 * high.toNat + low.toNat := by
  obtain ⟨high, low, hhigh, hlow, hvalue⟩ := (m.word_eq_ok_iff address word).mp hword
  exact ⟨high, low, (m.read_eq_ok_iff _ _).mpr hhigh, (m.read_eq_ok_iff _ _).mpr hlow, hvalue⟩

/-- The first address outside of memory among some that do not all lie inside. -/
theorem isLeast_max_size {address count : Nat} (hcount : 0 < count)
    (hout : size < address + count) :
    IsLeast {outside | (∃ k < count, outside = address + k) ∧ 0xFFF < outside}
      (max address size) := by
  simp only [size] at hout ⊢
  constructor
  · refine ⟨⟨max address 4096 - address, ?_, ?_⟩, ?_⟩ <;> omega
  · rintro outside ⟨⟨k, hk, rfl⟩, houtside⟩
    omega

/-! ## The theorem -/

/-- A range of no cells behind the end of memory is refused, though there is no cell of it that
could not be read. -/
theorem emptyRange_is_refused :
    ¬ ∀ (m : Memory) (address count : Nat), (m.range address count).isOk = true ↔
      ∀ k < count, (m.read (address + k)).isOk = true := by
  intro hall
  have hempty := (hall blank 0x1001 0).mpr nofun
  rw [isOk_range_iff] at hempty
  exact absurd hempty (by decide)

/-- A range can be read if and only if each of its cells can, and starts no further than at the end
of memory if it has none.  It holds what the cells hold.  Where it cannot be read, the first of its
addresses that lies outside of memory is named, or its start if it has no cells.  A word is read
like the two cells it is made of, the high byte first.  A cell can be written if and only if it can
be read, and a write changes that cell alone. -/
theorem checked_accesses_agree (m : Memory) :
    (∀ address count,
      ((m.range address count).isOk = true ↔
        (∀ k < count, (m.read (address + k)).isOk = true) ∧ (count = 0 → address ≤ size)) ∧
      (∀ bytes, m.range address count = .ok bytes →
        bytes.length = count ∧
          ∀ k (hk : k < bytes.length), m.read (address + k) = .ok bytes[k]) ∧
      ∀ e, m.range address count = .error e →
        (count = 0 → e.address = address) ∧
          (0 < count → IsLeast
            {outside | (∃ k < count, outside = address + k) ∧ 0xFFF < outside} e.address)) ∧
    (∀ address,
      ((m.word address).isOk = true ↔
        (m.read address).isOk = true ∧ (m.read (address + 1)).isOk = true) ∧
      (∀ word, m.word address = .ok word →
        ∃ high low, m.read address = .ok high ∧ m.read (address + 1) = .ok low ∧
          word.toNat = 256 * high.toNat + low.toNat) ∧
      ∀ e, m.word address = .error e →
        IsLeast {outside | (∃ k < 2, outside = address + k) ∧ 0xFFF < outside} e.address) ∧
    ∀ address value,
      ((m.write address value).isOk = true ↔ (m.read address).isOk = true) ∧
      ∀ after, m.write address value = .ok after →
        after.read address = .ok value ∧
          ∀ other, other ≠ address → after.read other = m.read other := by
  refine ⟨?_, ?_, ?_⟩
  · intro address count
    refine ⟨m.isOk_range_iff_reads address count, ?_, ?_⟩
    · intro bytes hrange
      exact ⟨(length_of_range_eq_ok hrange).2, read_of_range hrange⟩
    · intro e hrange
      obtain ⟨hout, rfl⟩ := range_eq_error hrange
      constructor
      · rintro rfl
        exact Nat.max_eq_left (Nat.le_of_lt hout)
      · intro hcount
        exact isLeast_max_size hcount hout
  · intro address
    refine ⟨?_, fun word => reads_of_word, ?_⟩
    · rw [isOk_word_iff, isOk_read_iff, isOk_read_iff]
      omega
    · intro e hword
      obtain ⟨hout, rfl⟩ := (m.word_eq_error_iff address e).mp hword
      exact isLeast_max_size (by decide) hout
  · intro address value
    refine ⟨?_, fun after => read_of_write⟩
    rw [isOk_write_iff, isOk_read_iff]

/-- At the end of memory: three cells from the last but one on, the word of the last cell, and a
write to the last cell. -/
theorem checked_accesses_agree_atTheEnd :
    IsLeast {outside | (∃ k < 3, outside = 0xFFE + k) ∧ 0xFFF < outside} 0x1000 ∧
      IsLeast {outside | (∃ k < 2, outside = 0xFFF + k) ∧ 0xFFF < outside} 0x1000 ∧
      ∃ after, blank.write 0xFFF 7 = .ok after ∧ after.read 0xFFF = .ok 7 ∧
        after.read 0xFFE = blank.read 0xFFE := by
  obtain ⟨hranges, hwords, hwrites⟩ := checked_accesses_agree blank
  have hwrite := blank.write_of_lt 7 (show 0xFFF < size by decide)
  obtain ⟨hvalue, hothers⟩ := (hwrites 0xFFF 7).2 _ hwrite
  refine ⟨?_, ?_, _, hwrite, hvalue, hothers 0xFFE (by decide)⟩
  · exact ((hranges 0xFFE 3).2.2 ⟨0x1000⟩ (blank.range_of_lt (by decide))).2 (by decide)
  · exact (hwords 0xFFF).2.2 ⟨0x1000⟩ ((blank.word_eq_error_iff _ _).mpr ⟨by decide, rfl⟩)

end Memory

end ChipEight
