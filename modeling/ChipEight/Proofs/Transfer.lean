import ChipEight.Proofs.Execution

/-!
# Registers in memory

Two instructions move V0 to Vx between the registers and the cells at the index, one in each
direction.  Where there is room for all of them the one undoes the other, and where the index moves
with the registers a row of transfers runs through memory without a gap.  Where there is no room
nothing is moved at all.
-/

namespace ChipEight

namespace Memory

theorem range_eq_ok_iff (m : Memory) (address count : Nat) (bytes : List UInt8) :
    m.range address count = .ok bytes ↔
      address + count ≤ size ∧ bytes.length = count ∧
        ∀ i < count, m.cells[address + i]? = bytes[i]? := by
  have hcells : address + count ≤ size → ∀ i < count,
      (m.cells.toArray.extract address (address + count)).toList[i]? = m.cells[address + i]? := by
    intro hend i hi
    rw [Array.getElem?_toList, Array.getElem?_extract, Vector.size_toArray, if_pos (by omega),
      Vector.getElem?_toArray]
  constructor
  · intro hrange
    obtain ⟨hend, hlength⟩ := length_of_range_eq_ok hrange
    rw [range, if_pos hend] at hrange
    cases hrange
    exact ⟨hend, hlength, fun i hi => (hcells hend i hi).symm⟩
  · rintro ⟨hend, hlength, hbytes⟩
    rw [range, if_pos hend]
    congr 1
    apply List.ext_getElem?
    intro i
    by_cases hi : i < count
    · rw [hcells hend i hi, hbytes i hi]
    · rw [List.getElem?_eq_none (by simp; omega), List.getElem?_eq_none (by omega)]

theorem range_of_le (m : Memory) {address count : Nat} (hend : address + count ≤ size) :
    ∃ bytes, m.range address count = .ok bytes := by
  rw [range, if_pos hend]
  exact ⟨_, rfl⟩

/-- What was put into memory is found there. -/
theorem range_store (m : Memory) {address : Nat} {bytes : List UInt8}
    (hend : address + bytes.length ≤ size) :
    (m.store address bytes).range address bytes.length = .ok bytes := by
  refine (range_eq_ok_iff _ _ _ _).mpr ⟨hend, rfl, ?_⟩
  intro i hi
  rw [getElem?_store _ _ _ _ (by omega), if_pos (by omega), Nat.add_sub_cancel_left]

/-- Putting back what is there changes nothing. -/
theorem store_of_range_eq_ok {m : Memory} {address count : Nat} {bytes : List UInt8}
    (hrange : m.range address count = .ok bytes) :
    m.store address bytes = m := by
  obtain ⟨hend, hlength, hbytes⟩ := (range_eq_ok_iff _ _ _ _).mp hrange
  suffices hcells : (m.store address bytes).cells.toList = m.cells.toList from
    congrArg Memory.mk (Vector.toList_inj.mp hcells)
  apply List.ext_getElem?
  intro i
  rw [Vector.getElem?_toList, Vector.getElem?_toList]
  by_cases hinside : address ≤ i ∧ i < address + bytes.length
  · have hplace : address + (i - address) = i := by omega
    rw [getElem?_store _ _ _ _ (by omega), if_pos hinside, ← hbytes _ (by omega), hplace]
  · exact getElem?_store_outside _ (by omega)

theorem store_append (m : Memory) (address : Nat) (first later : List UInt8) :
    m.store address (first ++ later) =
      (m.store address first).store (address + first.length) later := by
  induction first generalizing m address with
  | nil => rfl
  | cons byte rest ih =>
      rw [List.cons_append, store, store, ih, List.length_cons, Nat.add_right_comm,
        Nat.add_assoc]

theorem range_of_append {m : Memory} {address count : Nat} {first later : List UInt8}
    (hrange : m.range address count = .ok (first ++ later)) :
    m.range address first.length = .ok first ∧
      m.range (address + first.length) later.length = .ok later := by
  obtain ⟨hend, hlength, hbytes⟩ := (range_eq_ok_iff _ _ _ _).mp hrange
  rw [List.length_append] at hlength
  refine ⟨(range_eq_ok_iff _ _ _ _).mpr ⟨by omega, rfl, ?_⟩,
    (range_eq_ok_iff _ _ _ _).mpr ⟨by omega, rfl, ?_⟩⟩
  · intro i hi
    rw [hbytes i (by omega), List.getElem?_append_left hi]
  · intro i hi
    rw [Nat.add_assoc, hbytes _ (by omega), List.getElem?_append_right (by omega),
      Nat.add_sub_cancel_left]

end Memory

theorem Registers.upTo_overlay (v : Registers) {bytes : List UInt8} {x : Register}
    (hlength : bytes.length = x.val + 1) :
    (v.overlay bytes).upTo x = bytes := by
  apply List.ext_getElem?
  intro i
  by_cases hi : i < x.val + 1
  · have hr : (⟨i, Nat.lt_of_lt_of_le hi x.isLt⟩ : Register) ≤ x := Nat.le_of_lt_succ hi
    have hbyte : i < bytes.length := by omega
    have hget := getElem?_upTo (v.overlay bytes) hr
    rw [get_overlay, List.getElem?_eq_getElem hbyte] at hget
    rw [List.getElem?_eq_getElem hbyte]
    exact hget
  · rw [List.getElem?_eq_none (by rw [length_upTo]; omega), List.getElem?_eq_none (by omega)]

theorem Processor.toNat_advanceIndex (p : Processor) {x : Register}
    (hfits : p.index.toNat + (x.val + 1) ≤ Memory.size) :
    (p.advanceIndex x).index.toNat =
      p.index.toNat + if p.dialect.advanceIndex then x.val + 1 else 0 := by
  unfold advanceIndex
  split
  next =>
    have hroom : p.index.toNat + (x.val + 1) < 65536 := Nat.lt_of_le_of_lt hfits (by decide)
    change (p.index + UInt16.ofNat (x.val + 1)).toNat = _
    rw [UInt16.toNat_add, UInt16.toNat_ofNat_of_lt' (Nat.lt_of_le_of_lt x.isLt (by decide))]
    exact Nat.mod_eq_of_lt hroom
  next => rfl

namespace Machine

/-- Carries out a word, wherever it was fetched from. -/
def carryOut (word : UInt16) : Action Flow :=
  execute (.decode word)

/-- The word `Fx55`. -/
def storeWord (x : Register) : UInt16 :=
  UInt16.ofNat (0xF055 + 0x100 * x.val)

/-- The word `Fx65`. -/
def loadWord (x : Register) : UInt16 :=
  UInt16.ofNat (0xF065 + 0x100 * x.val)

theorem decode_storeWord : ∀ x, Instruction.decode (storeWord x) = .storeRegisters x := by
  decide +kernel

theorem decode_loadWord : ∀ x, Instruction.decode (loadWord x) = .loadRegisters x := by
  decide +kernel

def withRegisters (m : Machine) (v : Registers) : Machine :=
  { m with processor := { m.processor with v } }

def withIndex (m : Machine) (index : UInt16) : Machine :=
  { m with processor := { m.processor with index } }

/-! ## One transfer -/

/-- What has happened to a machine when V0 to Vx were moved from or to the cells at the index. -/
structure Transferred (m after : Machine) (x : Register) : Prop where
  agree : ∀ r ≤ x, after.memory.cells[m.processor.index.toNat + r.val]? =
    some (after.processor.reg r)
  above : ∀ r, x < r → after.processor.reg r = m.processor.reg r
  outside : ∀ i, i < m.processor.index.toNat ∨ m.processor.index.toNat + x.val < i →
    after.memory.cells[i]? = m.memory.cells[i]?
  index : after.processor.index.toNat =
    m.processor.index.toNat + if m.processor.dialect.advanceIndex then x.val + 1 else 0
  rest : ∃ memory v index, after = { m with memory, processor := { m.processor with v, index } }

theorem run_storeWord {m : Machine} {x : Register} {bytes : List UInt8}
    (hrange : m.memory.range m.processor.index.toNat (x.val + 1) = .ok bytes) :
    (carryOut (storeWord x)).run m =
      .ok .next
        { m with
          memory := m.memory.store m.processor.index.toNat (m.processor.v.upTo x)
          processor := m.processor.advanceIndex x } := by
  rw [carryOut, decode_storeWord, run_execute_storeRegisters, hrange]

theorem run_loadWord {m : Machine} {x : Register} {bytes : List UInt8}
    (hrange : m.memory.range m.processor.index.toNat (x.val + 1) = .ok bytes) :
    (carryOut (loadWord x)).run m =
      .ok .next
        { m with
          processor := { m.processor with v := m.processor.v.overlay bytes }.advanceIndex x } := by
  rw [carryOut, decode_loadWord, run_execute_loadRegisters, hrange]

/-- Where there is room, a store moves the registers into memory. -/
theorem exists_stored (m : Machine) {x : Register}
    (hfits : m.processor.index.toNat + (x.val + 1) ≤ Memory.size) :
    ∃ stored, (carryOut (storeWord x)).run m = .ok .next stored ∧ Transferred m stored x ∧
      stored.processor.v = m.processor.v ∧
      stored.memory = m.memory.store m.processor.index.toNat (m.processor.v.upTo x) := by
  obtain ⟨bytes, hrange⟩ := m.memory.range_of_le hfits
  obtain ⟨index, hindex⟩ := advanceIndex_keeps m.processor x
  have hrun := run_storeWord hrange
  have hadvance := m.processor.toNat_advanceIndex hfits
  have hlength := m.processor.v.length_upTo x
  rw [hindex] at hrun hadvance
  refine ⟨_, hrun, ⟨?_, ?_, ?_, hadvance, ?_⟩, rfl, rfl⟩
  · intro r hr
    have hplace : r.val < x.val + 1 := Nat.lt_succ_of_le hr
    rw [Memory.getElem?_store _ _ _ _ (by omega), if_pos (by omega), Nat.add_sub_cancel_left]
    exact m.processor.v.getElem?_upTo hr
  · intro r _
    rfl
  · intro i hi
    exact m.memory.getElem?_store_outside (by omega)
  · exact ⟨_, m.processor.v, index, rfl⟩

/-- A load moves what is in memory into the registers. -/
theorem exists_loaded {m : Machine} {x : Register} {bytes : List UInt8}
    (hrange : m.memory.range m.processor.index.toNat (x.val + 1) = .ok bytes) :
    ∃ loaded, (carryOut (loadWord x)).run m = .ok .next loaded ∧ Transferred m loaded x ∧
      loaded.memory = m.memory ∧ loaded.processor.v.upTo x = bytes := by
  obtain ⟨hfits, hlength, hbytes⟩ := (Memory.range_eq_ok_iff _ _ _ _).mp hrange
  obtain ⟨index, hindex⟩ :=
    advanceIndex_keeps { m.processor with v := m.processor.v.overlay bytes } x
  have hrun := run_loadWord hrange
  have hadvance :=
    Processor.toNat_advanceIndex { m.processor with v := m.processor.v.overlay bytes } hfits
  have hupTo := m.processor.v.upTo_overlay hlength
  rw [hindex] at hrun hadvance
  refine ⟨_, hrun, ⟨?_, ?_, ?_, hadvance, ?_⟩, rfl, hupTo⟩
  · intro r hr
    have hbyte := (m.processor.v.overlay bytes).getElem?_upTo hr
    rw [hupTo] at hbyte
    exact (hbytes _ (Nat.lt_succ_of_le hr)).trans hbyte
  · intro r hr
    exact m.processor.v.get_overlay_of_length_le (Nat.le_trans (Nat.le_of_eq hlength) hr)
  · intro i _
    rfl
  · exact ⟨m.memory, _, index, rfl⟩

theorem Transferred.dialect {m after : Machine} {x : Register}
    (htransferred : Transferred m after x) :
    after.processor.dialect = m.processor.dialect := by
  obtain ⟨memory, v, index, rfl⟩ := htransferred.rest
  rfl

theorem Transferred.index_of_advance {m after : Machine} {x : Register}
    (htransferred : Transferred m after x) (hadvance : m.processor.dialect.advanceIndex = true) :
    after.processor.index.toNat = m.processor.index.toNat + (x.val + 1) := by
  rw [htransferred.index, if_pos hadvance]

theorem load_undoes_store (m : Machine) {x : Register} (v : Registers)
    (hfits : m.processor.index.toNat + (x.val + 1) ≤ Memory.size) {stored : Machine}
    (hmemory : stored.memory =
      m.memory.store m.processor.index.toNat (m.processor.v.upTo x)) :
    ∃ loaded,
      (carryOut (loadWord x)).run
        ((stored.withRegisters v).withIndex m.processor.index) = .ok .next loaded ∧
      ∀ r ≤ x, loaded.processor.reg r = m.processor.reg r := by
  have hlength := m.processor.v.length_upTo x
  have hrange : stored.memory.range m.processor.index.toNat (x.val + 1) =
      .ok (m.processor.v.upTo x) := by
    rw [hmemory, ← hlength]
    exact m.memory.range_store (by rw [hlength]; exact hfits)
  obtain ⟨loaded, hrun, -, -, hbytes⟩ :=
    exists_loaded (m := (stored.withRegisters v).withIndex m.processor.index) hrange
  refine ⟨loaded, hrun, ?_⟩
  intro r hr
  have hback := loaded.processor.v.getElem?_upTo hr
  rw [hbytes, m.processor.v.getElem?_upTo hr] at hback
  exact (Option.some.inj hback).symm

theorem store_undoes_load {m loaded : Machine} {x : Register} {bytes : List UInt8}
    (hrange : m.memory.range m.processor.index.toNat (x.val + 1) = .ok bytes)
    (hmemory : loaded.memory = m.memory) (hbytes : loaded.processor.v.upTo x = bytes) :
    ∃ stored,
      (carryOut (storeWord x)).run (loaded.withIndex m.processor.index) = .ok .next stored ∧
      stored.memory = m.memory := by
  obtain ⟨stored, hrun, -, -, hstored⟩ :=
    (loaded.withIndex m.processor.index).exists_stored
      (Memory.length_of_range_eq_ok hrange).1
  refine ⟨stored, hrun, hstored.trans ?_⟩
  change loaded.memory.store m.processor.index.toNat (loaded.processor.v.upTo x) = m.memory
  rw [hbytes, hmemory]
  exact Memory.store_of_range_eq_ok hrange

/-! ## Rows of transfers -/

/-- The registers that a store finds, and the last of them that it stores. -/
structure Block where
  v : Registers
  last : Register

def Block.bytes (block : Block) : List UInt8 :=
  block.v.upTo block.last

def storeAll : List Block → Action Unit
  | [] => return ()
  | block :: rest => do
      modify (·.withRegisters block.v)
      let _ ← carryOut (storeWord block.last)
      storeAll rest

/-- Loads registers again and again and tells what each load brought. -/
def loadAll : List Register → Action (List (List UInt8))
  | [] => return []
  | x :: rest => do
      let _ ← carryOut (loadWord x)
      let m ← get
      let later ← loadAll rest
      return m.processor.v.upTo x :: later

theorem exists_storedAll {m : Machine} {blocks : List Block}
    (hadvance : m.processor.dialect.advanceIndex = true)
    (hfits : m.processor.index.toNat + (blocks.flatMap Block.bytes).length ≤ Memory.size) :
    ∃ stored, (storeAll blocks).run m = .ok () stored ∧
      stored.memory = m.memory.store m.processor.index.toNat (blocks.flatMap Block.bytes) ∧
      stored.processor.index.toNat =
        m.processor.index.toNat + (blocks.flatMap Block.bytes).length ∧
      stored.processor.dialect = m.processor.dialect := by
  induction blocks generalizing m with
  | nil => exact ⟨m, rfl, rfl, rfl, rfl⟩
  | cons block rest ih =>
      have hlength : block.bytes.length = block.last.val + 1 := block.v.length_upTo block.last
      rw [List.flatMap_cons, List.length_append] at hfits ⊢
      obtain ⟨first, hrun, htransferred, -, hmemory⟩ :=
        (m.withRegisters block.v).exists_stored
          (show m.processor.index.toNat + (block.last.val + 1) ≤ Memory.size by omega)
      have hdialect : first.processor.dialect = m.processor.dialect := htransferred.dialect
      -- The first block ends where the index is now, and there the next one begins.
      have hindex : first.processor.index.toNat =
          m.processor.index.toNat + (block.last.val + 1) :=
        htransferred.index_of_advance hadvance
      obtain ⟨stored, hrest, hmemory', hindex', hdialect'⟩ :=
        ih (hdialect ▸ hadvance) (by omega)
      refine ⟨stored, ?_, ?_, by omega, hdialect'.trans hdialect⟩
      · simp only [storeAll, EStateM.run_bind, EStateM.run_modify, hrun, hrest]
      · rw [hmemory', hmemory, hindex, ← hlength, Memory.store_append]
        rfl

theorem exists_loadedAll {m : Machine} {blocks : List Block} {count : Nat}
    (hadvance : m.processor.dialect.advanceIndex = true)
    (hrange : m.memory.range m.processor.index.toNat count = .ok (blocks.flatMap Block.bytes)) :
    ∃ loaded, (loadAll (blocks.map Block.last)).run m = .ok (blocks.map Block.bytes) loaded ∧
      loaded.memory = m.memory ∧
      loaded.processor.index.toNat = m.processor.index.toNat + count := by
  obtain ⟨-, hcount⟩ := Memory.length_of_range_eq_ok hrange
  induction blocks generalizing m count with
  | nil =>
      obtain rfl : 0 = count := hcount
      exact ⟨m, rfl, rfl, rfl⟩
  | cons block rest ih =>
      have hlength : block.bytes.length = block.last.val + 1 := block.v.length_upTo block.last
      rw [List.flatMap_cons] at hrange hcount
      rw [List.length_append] at hcount
      obtain ⟨hfirst, hlater⟩ := Memory.range_of_append hrange
      rw [hlength] at hfirst hlater
      obtain ⟨first, hrun, htransferred, hmemory, hbytes⟩ := exists_loaded hfirst
      have hindex := htransferred.index_of_advance hadvance
      rw [← hindex, ← hmemory] at hlater
      obtain ⟨loaded, hrest, hmemory', hindex'⟩ :=
        ih (htransferred.dialect ▸ hadvance) hlater rfl
      refine ⟨loaded, ?_, hmemory'.trans hmemory, by omega⟩
      simp only [loadAll, List.map_cons, EStateM.run_bind, EStateM.run_get, hrun, hrest, hbytes]
      rfl

/-! ## The theorem -/

/-- Where there is room, a store and a load at one index undo each other, each touches only V0 to Vx
and their cells, and the index moves as the dialect says; where there is none, both are refused with
one address.  When the index moves, stores in a row fill memory block by block and loads in a row
bring the blocks back. -/
theorem transfers_round_trip (m : Machine) :
    (∀ x : Register, m.processor.index.toNat + (x.val + 1) ≤ Memory.size →
      (∃ stored, (carryOut (storeWord x)).run m = .ok .next stored ∧ Transferred m stored x ∧
        stored.processor.v = m.processor.v ∧
        ∀ v, ∃ loaded,
          (carryOut (loadWord x)).run
            ((stored.withRegisters v).withIndex m.processor.index) = .ok .next loaded ∧
          ∀ r ≤ x, loaded.processor.reg r = m.processor.reg r) ∧
      ∃ loaded, (carryOut (loadWord x)).run m = .ok .next loaded ∧ Transferred m loaded x ∧
        loaded.memory = m.memory ∧
        ∃ stored,
          (carryOut (storeWord x)).run (loaded.withIndex m.processor.index) = .ok .next stored ∧
          stored.memory = m.memory) ∧
    (∀ x : Register, Memory.size < m.processor.index.toNat + (x.val + 1) →
      ∃ fault, (carryOut (storeWord x)).run m = .error fault m ∧
        (carryOut (loadWord x)).run m = .error fault m ∧
        fault = .outOfBounds (max m.processor.index.toNat Memory.size) m.processor.lastAddress) ∧
    (m.processor.dialect.advanceIndex = true → ∀ blocks : List Block,
      m.processor.index.toNat + (blocks.flatMap Block.bytes).length ≤ Memory.size →
      ∃ stored, (storeAll blocks).run m = .ok () stored ∧
        (∀ i, stored.memory.cells[i]? =
          if m.processor.index.toNat ≤ i ∧
              i < m.processor.index.toNat + (blocks.flatMap Block.bytes).length then
            (blocks.flatMap Block.bytes)[i - m.processor.index.toNat]?
          else m.memory.cells[i]?) ∧
        stored.processor.index.toNat =
          m.processor.index.toNat + (blocks.flatMap Block.bytes).length ∧
        ∀ v, ∃ loaded,
          (loadAll (blocks.map Block.last)).run
            ((stored.withRegisters v).withIndex m.processor.index) =
              .ok (blocks.map Block.bytes) loaded ∧
          loaded.memory = stored.memory ∧
          loaded.processor.index = stored.processor.index) := by
  refine ⟨?_, ?_, ?_⟩
  · intro x hfits
    obtain ⟨bytes, hrange⟩ := m.memory.range_of_le hfits
    obtain ⟨stored, hstore, hstored, hregisters, hchanged⟩ := m.exists_stored hfits
    obtain ⟨loaded, hload, hloaded, hmemory, hbytes⟩ := exists_loaded hrange
    exact ⟨⟨stored, hstore, hstored, hregisters, fun v => m.load_undoes_store v hfits hchanged⟩,
      loaded, hload, hloaded, hmemory, store_undoes_load hrange hmemory hbytes⟩
  · intro x hout
    refine ⟨_, ?_, ?_, rfl⟩
    · rw [carryOut, decode_storeWord]
      exact run_execute_of_refuses (.reach rfl hout)
    · rw [carryOut, decode_loadWord]
      exact run_execute_of_refuses (.reach rfl hout)
  · intro hadvance blocks hfits
    obtain ⟨stored, hstore, hmemory, hindex, hdialect⟩ := exists_storedAll hadvance hfits
    refine ⟨stored, hstore, ?_, hindex, ?_⟩
    · intro i
      rw [hmemory]
      split
      next hinside =>
        rw [Memory.getElem?_store _ _ _ _ (by omega), if_pos hinside]
      next houtside => exact m.memory.getElem?_store_outside (by omega)
    · intro v
      have hrange := m.memory.range_store hfits
      rw [← hmemory] at hrange
      obtain ⟨loaded, hload, hmemory', hindex'⟩ :=
        exists_loadedAll (m := (stored.withRegisters v).withIndex m.processor.index)
          (hdialect ▸ hadvance) hrange
      exact ⟨loaded, hload, hmemory', UInt16.toNat_inj.mp (hindex'.trans hindex.symm)⟩

/-- A machine with three registers to store in the last three cells of memory. -/
def reachingTheEnd : Machine :=
  { new .standard .perStep [] 0 with
    processor :=
      { Processor.new .standard with
        v := (Processor.new .standard).v.overlay [7, 8, 9]
        index := 0xFFD } }

theorem transfers_round_trip_reachingTheEnd :
    (∃ stored, (carryOut (storeWord 2)).run reachingTheEnd = .ok .next stored ∧
      stored.memory.cells[0xFFF]? = some 9 ∧ stored.processor.index = 0x1000) ∧
    (∃ fault, (carryOut (storeWord 3)).run reachingTheEnd = .error fault reachingTheEnd ∧
      fault = .outOfBounds 0x1000 0) ∧
    ∃ stored, (storeAll [⟨Vector.replicate 16 3, 1⟩, ⟨Vector.replicate 16 4, 0⟩]).run
        reachingTheEnd = .ok () stored ∧
      stored.memory.cells[0xFFE]? = some 3 ∧ stored.memory.cells[0xFFF]? = some 4 := by
  have hindex : reachingTheEnd.processor.index.toNat = 0xFFD := by decide
  have hnine : reachingTheEnd.processor.reg 2 = 9 := by decide +kernel
  obtain ⟨hroom, hnoRoom, hrow⟩ := transfers_round_trip reachingTheEnd
  simp only [hindex] at hroom hnoRoom hrow
  obtain ⟨⟨stored, hstore, htransferred, hregisters, -⟩, -⟩ := hroom 2 (by decide)
  obtain ⟨fault, hrefused, -, hfault⟩ := hnoRoom 3 (by decide)
  obtain ⟨filled, hfill, hcells, -, -⟩ :=
    hrow rfl [⟨Vector.replicate 16 3, 1⟩, ⟨Vector.replicate 16 4, 0⟩] (by decide)
  refine ⟨⟨stored, hstore, ?_, ?_⟩, ⟨fault, hrefused, hfault⟩, filled, hfill, hcells 0xFFE,
    hcells 0xFFF⟩
  · have hlast := htransferred.agree 2 (Nat.le_refl 2)
    rw [hindex, Processor.reg, hregisters] at hlast
    exact hlast.trans (congrArg some hnine)
  · exact UInt16.toNat_inj.mp (htransferred.index.trans (by rw [hindex]; rfl))

end Machine

end ChipEight
