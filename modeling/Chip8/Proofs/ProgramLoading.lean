/-
Programs are loaded whole or not at all. `loading` is what loading does step by step: the pieces of the image are taken
one after the other, to their end or to the trouble that ends them, and only then, when the image is known to fit, its
bytes are put into memory, one after the other. What is done to memory on the way is not undone when a later step
fails, so that a fault leaves memory as it was only if no step before it has changed anything.

Results:
- `run_receive`, `run_store`, `run_store_of_lt`: taking the pieces, and storing an image that fits or does not;
- `run_loading`: step by step, loading comes to what `Memory.loadFrom` says, and leaves memory as a call of it does;
- `load_all_or_nothing`: which images are loaded, and what memory holds afterwards.
-/
import Chip8.Proofs.LastWriter

namespace Chip8.Memory

/-! ## Step by step -/

/-- something done to memory that can fail on the way; what was done until then stays done -/
abbrev Work (α : Type) : Type :=
  ExceptT Fault (StateM Memory) α

/-- take the pieces in order after what has arrived, and then meet the trouble, if there is any -/
def receive (trouble : Option String) (arrived : List UInt8) : List (List UInt8) → Work (List UInt8)
  | [] =>
    match trouble with
    | some text => throw (.io text)
    | none => pure arrived
  | piece :: pieces => receive trouble (arrived ++ piece) pieces

/-- put bytes at consecutive addresses, one after the other -/
def putBytes (addr : Nat) : List UInt8 → Work Unit
  | [] => pure ()
  | b :: bs => do
    modify fun m => ⟨m.bytes.setIfInBounds addr b⟩
    putBytes (addr + 1) bs

/-- put an image at `programStart`, if it fits there -/
def store (image : List UInt8) : Work Unit :=
  if image.length > maxProgram then throw (.programTooLarge image.length maxProgram)
  else
    match checkRange programStart image.length with
    | .error f => throw f
    | .ok () => putBytes programStart.toNat image

/-- take the image and store it -/
def loading (s : Source) : Work Unit := do
  let image ← receive s.trouble [] s.pieces
  store image

/-- the pieces come to their concatenation or to the trouble, and memory has no part in it -/
theorem run_receive (trouble : Option String) (arrived : List UInt8) (pieces : List (List UInt8)) (m : Memory) :
    (receive trouble arrived pieces).run.run m = (Source.image ⟨arrived :: pieces, trouble⟩, m) := by
  induction pieces generalizing arrived with
  | nil =>
    cases trouble with
    | none =>
      have hjoined : [arrived].flatten = arrived := List.append_nil arrived
      rw [Source.image, hjoined]
      rfl
    | some text => rfl
  | cons piece pieces ih =>
    have hjoined : Source.image ⟨(arrived ++ piece) :: pieces, trouble⟩ =
        Source.image ⟨arrived :: piece :: pieces, trouble⟩ := by
      simp only [Source.image, List.flatten_cons, List.append_assoc]
    rw [receive, ih, hjoined]

theorem run_putBytes (addr : Nat) (data : List UInt8) (m : Memory) :
    (putBytes addr data).run.run m = (.ok (), ⟨place m.bytes addr data⟩) := by
  induction data generalizing addr m with
  | nil => rfl
  | cons b bs ih => exact ih (addr + 1) ⟨m.bytes.setIfInBounds addr b⟩

theorem run_store {image : List UInt8} (h : image.length ≤ maxProgram) (m : Memory) :
    (store image).run.run m = (.ok (), ⟨place m.bytes programStart.toNat image⟩) := by
  have hs : programStart.toNat = 512 := rfl
  have hcheck : checkRange programStart image.length = .ok () := by
    rw [checkRange_eq_ok_iff, hs]
    unfold size
    unfold maxProgram at h
    omega
  rw [store, if_neg (Nat.not_lt.2 h), hcheck]
  exact run_putBytes programStart.toNat image m

theorem run_store_of_lt {image : List UInt8} (h : maxProgram < image.length) (m : Memory) :
    (store image).run.run m = (.error (.programTooLarge image.length maxProgram), m) := by
  rw [store, if_pos h]
  rfl

/-! ## What loading comes to -/

section

variable {m m' : Memory} {s : Source}

theorem load_of_lt {program : List UInt8} (h : maxProgram < program.length) :
    m.load program = .error (.programTooLarge program.length maxProgram) :=
  if_pos h

theorem loadFrom_of_none (h : s.trouble = none) : m.loadFrom s = m.load s.pieces.flatten := by
  rw [loadFrom, Source.image, h]
  rfl

theorem loadFrom_of_some {text : String} (h : s.trouble = some text) : m.loadFrom s = .error (.io text) := by
  rw [loadFrom, Source.image, h]
  rfl

theorem after_of_loaded (h : m.loadFrom s = .ok m') : m.after (.loadFrom s) = m' := by
  rw [after, result, h]

theorem after_of_fault {f : Fault} (h : m.loadFrom s = .error f) : m.after (.loadFrom s) = m := by
  rw [after, result, h]

end

/-- **Loading.** The steps come to what `loadFrom` says, and leave memory as a call of it does. -/
theorem run_loading (m : Memory) (s : Source) :
    (loading s).run.run m = ((m.loadFrom s).map fun _ => (), m.after (.loadFrom s)) := by
  have hreceive : (receive s.trouble [] s.pieces).run.run m = (s.image, m) := run_receive s.trouble [] s.pieces m
  unfold Source.image at hreceive
  cases htrouble : s.trouble with
  | some text =>
    have hload : m.loadFrom s = .error (.io text) := loadFrom_of_some htrouble
    rw [htrouble] at hreceive
    rw [loading, htrouble, run_bind_of_error hreceive, after_of_fault hload, hload]
    rfl
  | none =>
    rw [htrouble] at hreceive
    rw [loading, htrouble, run_bind_of_ok hreceive]
    by_cases hfits : s.pieces.flatten.length ≤ maxProgram
    · have hload : m.loadFrom s = .ok ⟨place m.bytes programStart.toNat s.pieces.flatten⟩ := by
        rw [loadFrom_of_none htrouble, load_of_length_le hfits]
      rw [run_store hfits, after_of_loaded hload, hload]
      rfl
    · have hload : m.loadFrom s = .error (.programTooLarge s.pieces.flatten.length maxProgram) := by
        rw [loadFrom_of_none htrouble, load_of_lt (Nat.lt_of_not_le hfits)]
      rw [run_store_of_lt (Nat.lt_of_not_le hfits), after_of_fault hload, hload]
      rfl

section

variable {m m' : Memory} {s : Source}

theorem run_of_loaded (h : m.loadFrom s = .ok m') : (loading s).run.run m = (.ok (), m') := by
  rw [run_loading, after_of_loaded h, h]
  rfl

theorem run_of_fault {f : Fault} (h : m.loadFrom s = .error f) : (loading s).run.run m = (.error f, m) := by
  rw [run_loading, after_of_fault h, h]
  rfl

theorem loaded_of_run (h : ((loading s).run.run m).1 = .ok ()) : m.loadFrom s = .ok ((loading s).run.run m).2 := by
  cases hload : m.loadFrom s with
  | ok m' => rw [run_of_loaded hload]
  | error f =>
    rw [run_of_fault hload] at h
    cases h

theorem fault_of_run {f : Fault} (h : ((loading s).run.run m).1 = .error f) : m.loadFrom s = .error f := by
  cases hload : m.loadFrom s with
  | ok m' =>
    rw [run_of_loaded hload] at h
    cases h
  | error f' =>
    rw [run_of_fault hload] at h
    cases h
    rfl

/-- an image that is too long does not go in -/
theorem length_le_of_load {program : List UInt8} (h : m.load program = .ok m') : program.length ≤ maxProgram := by
  refine Nat.le_of_not_lt fun hlong => ?_
  rw [load_of_lt hlong] at h
  cases h

/-- where the bytes of an image stand that went in -/
theorem byteAt_load {program : List UInt8} (h : m.load program = .ok m') (a : Nat) :
    m'.byteAt a =
      if 0x200 ≤ a ∧ a < 0x200 + program.length then program.getD (a - 0x200) 0 else m.byteAt a :=
  byteAt_write (load_eq_ok_iff.1 h) a

end

/-- **All or nothing.** Take any memory and any program that arrives in any pieces.
- It is loaded just when it arrives without trouble and is at most 3584 bytes long. Loading then comes to the same as
  loading the image in one piece: its bytes stand from 0x200 on, and all others are as they were.
- Otherwise memory is as it was. The fault is the trouble, however much has arrived before it, or that the image is too
  long, with its length.
How the image is cut into pieces does not matter. -/
theorem load_all_or_nothing (m : Memory) (s : Source) :
    let image := s.pieces.flatten
    let out := (loading s).run.run m
    (out.1 = .ok () ↔ s.trouble = none ∧ image.length ≤ 3584) ∧
    (out.1 = .ok () → m.loadFrom s = .ok out.2 ∧ m.load image = .ok out.2 ∧
      ∀ a, out.2.byteAt a =
        if 0x200 ≤ a ∧ a < 0x200 + image.length then image.getD (a - 0x200) 0 else m.byteAt a) ∧
    (∀ f, out.1 = .error f → m.loadFrom s = .error f ∧ out.2 = m) ∧
    (∀ text, s.trouble = some text → out.1 = .error (.io text)) ∧
    (s.trouble = none → 3584 < image.length → out.1 = .error (.programTooLarge image.length 3584)) ∧
    (∀ s' : Source, s'.pieces.flatten = image → s'.trouble = s.trouble → (loading s').run.run m = out) := by
  intro image out
  refine ⟨?_, ?_, ?_, ?_, ?_, ?_⟩
  · constructor
    · intro hok
      obtain ⟨htrouble, hwhole⟩ := loadFrom_eq_ok_iff.1 (loaded_of_run hok)
      exact ⟨htrouble, length_le_of_load hwhole⟩
    · rintro ⟨htrouble, hfits⟩
      have hload := (loadFrom_of_none htrouble).trans (load_of_length_le (m := m) hfits)
      exact congrArg Prod.fst (run_of_loaded hload)
  · intro hok
    have hload := loaded_of_run hok
    obtain ⟨-, hwhole⟩ := loadFrom_eq_ok_iff.1 hload
    exact ⟨hload, hwhole, byteAt_load hwhole⟩
  · intro f herror
    have hload := fault_of_run herror
    exact ⟨hload, congrArg Prod.snd (run_of_fault hload)⟩
  · intro text htrouble
    exact congrArg Prod.fst (run_of_fault (loadFrom_of_some htrouble))
  · intro htrouble hlong
    have hload := (loadFrom_of_none htrouble).trans (load_of_lt (m := m) hlong)
    exact congrArg Prod.fst (run_of_fault hload)
  · intro s' himage htrouble
    have hsame : m.loadFrom s' = m.loadFrom s := by
      rw [loadFrom, loadFrom, Source.image, Source.image, himage, htrouble]
    show (loading s').run.run m = (loading s).run.run m
    rw [run_loading, run_loading, hsame, after, after, result, result, hsame]

/-- A memory that holds a program of five bytes takes one of three bytes, in pieces of one and two: the last two bytes of
the old program stay. A reader that fails after two bytes leaves it as it is, and so does one byte too many. -/
theorem reloaded_in_pieces :
    let m := performAll [.load [9, 9, 9, 9, 9]] fresh
    let out := (loading ⟨[[1], [2, 3]], none⟩).run.run m
    let failed := (loading ⟨[[1, 2]], some "gone"⟩).run.run m
    let tooLong := (loading ⟨[List.replicate 3585 7], none⟩).run.run m
    out.1 = .ok () ∧ [0x200, 0x201, 0x202, 0x203, 0x204, 0x205].map out.2.byteAt = [1, 2, 3, 9, 9, 0] ∧
      failed = (.error (.io "gone"), m) ∧ tooLong = (.error (.programTooLarge 3585 3584), m) := by
  intro m out failed tooLong
  obtain ⟨hok, hloaded, -⟩ := load_all_or_nothing m ⟨[[1], [2, 3]], none⟩
  obtain ⟨-, -, hkept, htrouble, -⟩ := load_all_or_nothing m ⟨[[1, 2]], some "gone"⟩
  obtain ⟨-, -, hkept', -, hlong, -⟩ := load_all_or_nothing m ⟨[List.replicate 3585 7], none⟩
  have hout := hok.2 ⟨rfl, by decide⟩
  obtain ⟨-, -, hbytes⟩ := hloaded hout
  have hold : m.byteAt 0x203 = 9 ∧ m.byteAt 0x204 = 9 ∧ m.byteAt 0x205 = 0 := by
    refine ⟨?_, ?_, ?_⟩
    all_goals
      rw [byteAt_performAll, byteAt_fresh]
      decide
  have hfailed := htrouble "gone" rfl
  have hlength : ([List.replicate 3585 7] : List (List UInt8)).flatten.length = 3585 := by
    rw [List.flatten_singleton, List.length_replicate]
  have htooLong := hlong rfl (by rw [hlength]; decide)
  refine ⟨hout, ?_, ?_, ?_⟩
  · show [out.2.byteAt 0x200, out.2.byteAt 0x201, out.2.byteAt 0x202, out.2.byteAt 0x203, out.2.byteAt 0x204,
      out.2.byteAt 0x205] = _
    rw [hbytes, hbytes, hbytes, hbytes, hbytes, hbytes]
    simp [hold]
  · exact Prod.ext hfailed (hkept _ hfailed).2
  · have hfault := hkept' _ htooLong
    rw [hlength] at htooLong
    exact Prod.ext htooLong hfault.2

end Chip8.Memory
