/-
The call stack: sixteen return addresses in slots that fill from the last one down. `toList` is the view, most recent
address first. `toList_push` and `toList_pop` say that the stack is last in, first out; `push` on a full stack and `pop`
on an empty one give none.
-/

namespace Chip8

/-- sixteen slots, the last `depth` of them in use -/
structure CallStack where
  slots : Vector UInt16 16
  depth : Nat
  depth_le : depth ≤ 16
  deriving DecidableEq

namespace CallStack

def empty : CallStack :=
  ⟨Vector.replicate 16 0, 0, by omega⟩

/-- the next free slot; none when the stack is full -/
def pointer (s : CallStack) : Option (Fin 16) :=
  if h : s.depth < 16 then some ⟨15 - s.depth, by omega⟩ else none

def push (s : CallStack) (addr : UInt16) : Option CallStack :=
  if h : s.depth < 16 then some ⟨s.slots.set (15 - s.depth) addr, s.depth + 1, h⟩ else none

def pop (s : CallStack) : Option (UInt16 × CallStack) :=
  if h : 0 < s.depth then
    have := s.depth_le
    some (s.slots[16 - s.depth], ⟨s.slots, s.depth - 1, by omega⟩)
  else none

/-- the addresses on the stack, most recent first -/
def toList (s : CallStack) : List UInt16 :=
  s.slots.toList.drop (16 - s.depth)

/-! ## The view -/

@[simp] theorem length_toList (s : CallStack) : s.toList.length = s.depth := by
  have := s.depth_le
  simp only [toList, List.length_drop, Vector.length_toList]
  omega

@[simp] theorem toList_empty : empty.toList = [] := rfl

theorem toList_push {s t : CallStack} {addr : UInt16} (h : s.push addr = some t) :
    t.toList = addr :: s.toList := by
  unfold push at h
  split at h
  case isTrue hlt =>
    cases h
    simp only [toList, Vector.toList_set]
    have e : 16 - (s.depth + 1) = 15 - s.depth := by omega
    have e' : 16 - s.depth = 15 - s.depth + 1 := by omega
    rw [e, e', List.drop_eq_getElem_cons (by simp; omega)]
    simp [List.drop_set]
  case isFalse => cases h

theorem push_eq_none_iff (s : CallStack) (addr : UInt16) : s.push addr = none ↔ s.toList.length = 16 := by
  have := s.depth_le
  rw [length_toList]
  unfold push
  split
  case isTrue h => simp; omega
  case isFalse h => simp; omega

theorem toList_pop {s t : CallStack} {addr : UInt16} (h : s.pop = some (addr, t)) : s.toList = addr :: t.toList := by
  unfold pop at h
  split at h
  case isTrue hlt =>
    have := s.depth_le
    cases h
    simp only [toList]
    have e : 16 - (s.depth - 1) = 16 - s.depth + 1 := by omega
    rw [e, List.drop_eq_getElem_cons (by simp; omega)]
    simp
  case isFalse => cases h

theorem pop_eq_none_iff (s : CallStack) : s.pop = none ↔ s.toList = [] := by
  rw [← List.length_eq_zero_iff, length_toList]
  unfold pop
  split
  case isTrue h => simp; omega
  case isFalse h => simp; omega

end CallStack

end Chip8
