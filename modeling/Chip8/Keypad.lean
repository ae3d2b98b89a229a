/-
The keypad: sixteen keys, 0 to F, each up or down. A key number from sixteen on is not on it. `isPressed_set`
says that a key moves alone.
-/
import Chip8.Fault

namespace Chip8

structure Keypad where
  keys : Vector Bool 16
  deriving DecidableEq

namespace Keypad

def released : Keypad :=
  ⟨Vector.replicate 16 false⟩

def set (pad : Keypad) (key : UInt8) (pressed : Bool) : Except Fault Keypad :=
  if h : key.toNat < 16 then .ok ⟨pad.keys.set key.toNat pressed⟩ else .error (.noSuchKey key)

def isPressed (pad : Keypad) (key : UInt8) : Except Fault Bool :=
  if h : key.toNat < 16 then .ok pad.keys[key.toNat] else .error (.noSuchKey key)

/-- pressing or releasing a key changes this key alone -/
theorem isPressed_set {pad pad' : Keypad} {key : UInt8} {pressed : Bool} (h : pad.set key pressed = .ok pad')
    (k : UInt8) : pad'.isPressed k = if k = key then .ok pressed else pad.isPressed k := by
  unfold set at h
  split at h
  case isFalse => cases h
  case isTrue hk =>
    cases h
    unfold isPressed
    by_cases e : k = key
    · subst e
      rw [dif_pos hk, if_pos rfl, Vector.getElem_set_self]
    · have hne : key.toNat ≠ k.toNat := fun h' => e (UInt8.toNat_inj.mp h'.symm)
      rw [if_neg e]
      split
      case isTrue hk' => rw [Vector.getElem_set_ne _ _ hne]
      case isFalse => rfl

/-- the keypad with exactly these keys down; numbers that are not on it are passed over -/
def ofKeys (keys : List UInt8) : Keypad :=
  ⟨Vector.ofFn fun k : Fin 16 => keys.any fun key => key.toNat == k.val⟩

/-- the keys that are down, ascending -/
def pressed (pad : Keypad) : List (Fin 16) :=
  (List.finRange 16).filter fun k => pad.keys.get k

end Keypad

end Chip8
