import ChipEight.Hex
import ChipEight.Attempt

/-!
# Memory

The machine has 4096 cells of one byte.  The font lies at the very beginning, programs start at
`0x200`, and everything else is zero on a machine that has not run yet.  Addresses are unbounded
numbers here; every access checks them and names the first address outside of memory when it fails.
-/

namespace ChipEight

abbrev Program := Array UInt8

structure AddressError where
  address : Nat
  deriving DecidableEq, Repr

inductive LoadError where
  | emptyProgram
  | programTooLarge (size limit : Nat)
  | alreadyLoaded
  deriving DecidableEq, Repr

def LoadError.message : LoadError → String
  | .emptyProgram => "the program is empty"
  | .programTooLarge size limit =>
      "a program of " ++ Hex.number size ++ " bytes exceeds the " ++ Hex.number limit ++
        " bytes available from 0x200"
  | .alreadyLoaded => "a program is already loaded, reset the machine before loading another"

namespace Memory

abbrev size : Nat := 4096

abbrev programStart : Nat := 0x200

abbrev programLimit : Nat := size - programStart

def glyphSize : Nat := 5

/-- The hexadecimal digits as sprites, four pixels wide and five rows high. -/
def font : List UInt8 :=
  [0xF0, 0x90, 0x90, 0x90, 0xF0,
   0x20, 0x60, 0x20, 0x20, 0x70,
   0xF0, 0x10, 0xF0, 0x80, 0xF0,
   0xF0, 0x10, 0xF0, 0x10, 0xF0,
   0x90, 0x90, 0xF0, 0x10, 0x10,
   0xF0, 0x80, 0xF0, 0x10, 0xF0,
   0xF0, 0x80, 0xF0, 0x90, 0xF0,
   0xF0, 0x10, 0x20, 0x40, 0x40,
   0xF0, 0x90, 0xF0, 0x90, 0xF0,
   0xF0, 0x90, 0xF0, 0x10, 0xF0,
   0xF0, 0x90, 0xF0, 0x90, 0x90,
   0xE0, 0x90, 0xE0, 0x90, 0xE0,
   0xF0, 0x80, 0x80, 0x80, 0xF0,
   0xE0, 0x90, 0x90, 0x90, 0xE0,
   0xF0, 0x80, 0xF0, 0x80, 0xF0,
   0xF0, 0x80, 0xF0, 0x80, 0x80]

end Memory

structure Memory where
  cells : Vector UInt8 Memory.size
  deriving DecidableEq

namespace Memory

/-- Puts bytes into consecutive cells.  Bytes that would lie past the end of memory are dropped, so
the callers check the range first. -/
def store (m : Memory) (address : Nat) : List UInt8 → Memory
  | [] => m
  | byte :: rest => store ⟨m.cells.setIfInBounds address byte⟩ (address + 1) rest

theorem getElem?_store (m : Memory) (address i : Nat) (bytes : List UInt8) (hi : i < size) :
    (m.store address bytes).cells[i]? =
      if address ≤ i ∧ i < address + bytes.length then bytes[i - address]? else m.cells[i]? := by
  induction bytes generalizing m address with
  | nil =>
      have hnone : ¬ (address ≤ i ∧ i < address + ([] : List UInt8).length) := by
        intro h
        exact absurd (Nat.lt_of_le_of_lt h.1 h.2) (Nat.lt_irrefl _)
      rw [store, if_neg hnone]
  | cons byte rest ih =>
      rw [store, ih, Vector.getElem?_setIfInBounds, List.length_cons]
      by_cases hfirst : address = i
      · subst hfirst
        rw [if_neg (by omega), if_pos rfl, if_pos hi, if_pos (by omega), Nat.sub_self]
        rfl
      · rw [if_neg hfirst]
        by_cases hrest : address + 1 ≤ i ∧ i < address + 1 + rest.length
        · have hplace : i - address = (i - (address + 1)) + 1 := by omega
          rw [if_pos hrest, if_pos (by omega), hplace, List.getElem?_cons_succ]
        · rw [if_neg hrest, if_neg (by omega)]

theorem getElem?_store_outside (m : Memory) {address i : Nat} {bytes : List UInt8}
    (hi : i < address ∨ address + bytes.length ≤ i) :
    (m.store address bytes).cells[i]? = m.cells[i]? := by
  by_cases hsize : i < size
  · rw [getElem?_store m address i bytes hsize, if_neg (by omega)]
  · rw [Vector.getElem?_eq_none (Nat.le_of_not_lt hsize),
      Vector.getElem?_eq_none (Nat.le_of_not_lt hsize)]

def blank : Memory :=
  store ⟨Vector.replicate size 0⟩ 0 font

def read (m : Memory) (address : Nat) : Except AddressError UInt8 :=
  if h : address < size then .ok m.cells[address] else .error ⟨address⟩

def write (m : Memory) (address : Nat) (value : UInt8) : Except AddressError Memory :=
  if h : address < size then .ok ⟨m.cells.set address value⟩ else .error ⟨address⟩

/-- The bytes of `count` consecutive cells.  A range that leaves memory is refused whole. -/
def range (m : Memory) (address count : Nat) : Except AddressError (List UInt8) :=
  if address + count ≤ size then
    .ok (m.cells.toArray.extract address (address + count)).toList
  else
    .error ⟨max address size⟩

def wordOf (high low : UInt8) : UInt16 :=
  high.toUInt16 <<< 8 ||| low.toUInt16

def word (m : Memory) (address : Nat) : Except AddressError UInt16 :=
  if h : address + 1 < size then
    .ok (wordOf m.cells[address] m.cells[address + 1])
  else
    .error ⟨max address size⟩

/-- Puts a program at its start, or says why it cannot.  What lies behind the program stays. -/
def load (m : Memory) (program : Program) : Attempt Memory LoadError :=
  if program.size = 0 then
    .failed m .emptyProgram #[]
  else if programLimit < program.size then
    .failed m (.programTooLarge program.size programLimit) #[]
  else
    .done (m.store programStart program.toList)
      #[⟨.debug, .memory,
        "Loaded " ++ toString program.size ++ " program bytes at " ++ Hex.number programStart⟩]

end Memory

end ChipEight
