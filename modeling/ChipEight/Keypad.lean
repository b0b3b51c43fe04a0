import ChipEight.Hex
import ChipEight.Log

/-!
# Keypad

Sixteen keys, each up or down.  A key is named by a code of one byte; codes above fifteen name no
key, are never down, and changing them is only reported.
-/

namespace ChipEight

namespace Keypad

abbrev keyCount : Nat := 16

end Keypad

structure Keypad where
  down : Vector Bool Keypad.keyCount
  deriving DecidableEq

namespace Keypad

def released : Keypad :=
  ⟨Vector.replicate keyCount false⟩

/-- Puts a key down or up.  A code that names no key changes nothing. -/
def set (k : Keypad) (code : UInt8) (pressed : Bool) : Keypad :=
  ⟨k.down.setIfInBounds code.toNat pressed⟩

/-- Lets all keys go. -/
def reset (_ : Keypad) : Keypad :=
  released

def setLog (code : UInt8) : Log :=
  if code.toNat < keyCount then #[]
  else #[⟨.debug, .keys, "Ignoring state change for unknown key " ++ Hex.number code.toNat⟩]

/-- A change that is reported was ignored. -/
theorem set_eq_self_of_setLog {code : UInt8} (hlog : setLog code ≠ #[]) (k : Keypad)
    (pressed : Bool) :
    k.set code pressed = k := by
  have hunknown : keyCount ≤ code.toNat :=
    Nat.le_of_not_lt fun hknown => hlog (if_pos hknown)
  unfold set
  rw [Vector.setIfInBounds_eq_of_size_le hunknown]

def isDown (k : Keypad) (code : UInt8) : Bool :=
  k.down[code.toNat]?.getD false

theorem isDown_set (k : Keypad) (code other : UInt8) (pressed : Bool) :
    (k.set code pressed).isDown other =
      if other = code ∧ code.toNat < keyCount then pressed else k.isDown other := by
  simp only [isDown, set, Vector.getElem?_setIfInBounds]
  by_cases h : other = code
  · subst h
    by_cases hk : other.toNat < keyCount
    · simp [hk]
    · simp [hk]
  · have hne : code.toNat ≠ other.toNat := fun he => h (UInt8.toNat_inj.mp he.symm)
    simp [h, hne]

theorem isDown_reset (k : Keypad) (code : UInt8) : k.reset.isDown code = false := by
  unfold reset released isDown
  rw [Vector.getElem?_replicate]
  split <;> rfl

def highest? (k : Keypad) : Option UInt8 :=
  ((List.range keyCount).reverse.map UInt8.ofNat).find? k.isDown

end Keypad

end ChipEight
