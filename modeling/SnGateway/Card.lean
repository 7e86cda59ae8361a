import SnGateway.Lib.RecordFile
import SnGateway.Lib.CText

/-!
# The SD card

The store keeps its files through the Arduino `SD`/`File` interface, whose Linux implementation is a
submodule. What the code relies on is modelled directly: a file is a byte sequence, `FILE_READ`
opens at offset 0 (a missing file reads as empty and is not created), `FILE_WRITE` opens or creates
without truncating, a seek inside the file goes where it is told, a write overwrites in place or
extends the file and is seen by every later open, and `read` returns the number of bytes copied. The
interface does not say what a seek behind the end does: `Platform.seekBeyond` stands for it.

Every operation opens the file it works on, so the handle `_open_file` carries nothing from one
operation to the next and is not part of the state.
-/

namespace SnGateway
open RecordStore

abbrev FileName := List UInt8

/-- The directory: which files exist and what they hold. -/
abbrev Files := FileName → Option (List UInt8)

/-- What the submodules decide. `seekBeyond write size target` is the position a seek to
`target > size` leaves in a file of `size` bytes opened for reading or writing, and whether the seek
reports success; the rest are the enumerators of the core that the store uses. -/
structure Platform where
  seekBeyond : Bool → Nat → Nat → Nat × Bool
  EMPTY : UInt32
  ACTIVE : UInt32
  LOST : UInt32
  MQTTSN_PINGREQ : UInt32
  SUCCESS : UInt8

namespace Platform

/-- `File::seek` in a file of `size` bytes: the new position and the result. -/
def seek (p : Platform) (write : Bool) (size target : Nat) : Nat × Bool :=
  if target ≤ size then (target, true) else p.seekBeyond write size target

theorem seek_of_le (p : Platform) (write : Bool) {size target : Nat} (h : target ≤ size) :
    p.seek write size target = (target, true) := if_pos h

end Platform

/-- `i * sizeof(_)` of an `int` and a `size_t`. -/
def sizeMul (i : Int) (n : Nat) : Nat := ((i * n) % 2 ^ 64).toNat

theorem sizeMul_natCast {k n : Nat} (h : k * n < 2 ^ 64) : sizeMul k n = k * n := by
  have : ((k : Int) * n) % 2 ^ 64 = ((k * n : Nat) : Int) := by
    push_cast
    exact Int.emod_eq_of_lt (by positivity) (by exact_mod_cast h)
  rw [sizeMul, this, Int.toNat_natCast]

namespace Files

def contents (fs : Files) (name : FileName) : List UInt8 := (fs name).getD []

def set (fs : Files) (name : FileName) (c : List UInt8) : Files :=
  fun n => if n = name then some c else fs n

def existsFile (fs : Files) (name : FileName) : Bool := (fs name).isSome

/-- `SD.remove`. -/
def remove (fs : Files) (name : FileName) : Files := fun n => if n = name then none else fs n

/-- `SD.open(name, FILE_WRITE)`: the file is created when it is missing. -/
def openWrite (fs : Files) (name : FileName) : Files := fs.set name (fs.contents name)

def readAt (p : Platform) (fs : Files) (name : FileName) (target n : Nat) : List UInt8 :=
  let c := fs.contents name
  (c.drop (p.seek false c.length target).1).take n

def writeAt (p : Platform) (fs : Files) (name : FileName) (target : Nat) (v : List UInt8) : Files :=
  let c := fs.contents name
  fs.set name (overwrite c (p.seek true c.length target).1 v)

variable {fs : Files} {name other : FileName}

@[simp] theorem set_self (c : List UInt8) : fs.set name c name = some c := by simp [set]

theorem set_ne (c : List UInt8) (h : other ≠ name) : fs.set name c other = fs other := by
  simp [set, h]

theorem set_set (c c' : List UInt8) : (fs.set name c).set name c' = fs.set name c' := by
  funext n
  by_cases h : n = name
  · subst h; rw [set_self, set_self]
  · rw [set_ne _ h, set_ne _ h, set_ne _ h]

@[simp] theorem contents_set_self (c : List UInt8) : (fs.set name c).contents name = c := by
  simp [contents]

@[simp] theorem remove_self : fs.remove name name = none := by simp [remove]

theorem remove_ne (h : other ≠ name) : fs.remove name other = fs other := by simp [remove, h]

theorem remove_of_none {m : FileName} (h : fs m = none) : fs.remove m = fs := by
  funext n
  by_cases hn : n = m
  · subst hn; rw [remove_self, h]
  · exact remove_ne hn

theorem openWrite_ne (h : other ≠ name) : fs.openWrite name other = fs other := set_ne _ h

@[simp] theorem openWrite_self : fs.openWrite name name = some (fs.contents name) := set_self _

theorem writeAt_ne (p : Platform) (target : Nat) (v : List UInt8) (h : other ≠ name) :
    fs.writeAt p name target v other = fs other := set_ne _ h

theorem contents_congr {fs' : Files} (h : fs' name = fs name) :
    fs'.contents name = fs.contents name := by
  rw [contents, h, contents]

theorem contents_set_ne (c : List UInt8) (h : other ≠ name) :
    (fs.set name c).contents other = fs.contents other :=
  contents_congr (set_ne c h)

theorem contents_of_some {c : List UInt8} (h : fs name = some c) : fs.contents name = c := by
  rw [contents, h]
  rfl

theorem contents_of_none (h : fs name = none) : fs.contents name = [] := by
  rw [contents, h]
  rfl

theorem writeAt_eq_self_iff (p : Platform) (target : Nat) {v : List UInt8} (hv : v ≠ [])
    (hfile : fs.contents name ≠ []) :
    fs.writeAt p name target v = fs ↔
      ((fs.contents name).drop (p.seek true (fs.contents name).length target).1).take v.length =
        v := by
  obtain ⟨c, hc⟩ : ∃ c, fs name = some c := by
    cases h : fs name with
    | none => exact absurd (contents_of_none h) hfile
    | some c => exact ⟨c, rfl⟩
  rw [contents_of_some hc, ← overwrite_eq_self_iff hv, writeAt, contents_of_some hc]
  constructor
  · intro h
    have := congrFun h name
    rw [set_self, hc] at this
    exact Option.some.inj this
  · intro h
    funext n
    by_cases hn : n = name
    · subst hn; rw [set_self, hc, h]
    · exact set_ne _ hn

theorem writeAt_encode {n : Nat} (p : Platform) {rs : List (Record n)} (r : Record n) {i : Nat}
    (hc : fs.contents name = encode rs) (hi : i ≤ rs.length) :
    fs.writeAt p name (i * n) r.bytes = fs.set name (encode (SlotTable.place rs i r)) := by
  have hle : i * n ≤ (encode rs).length := by
    rw [length_encode]
    exact Nat.mul_le_mul_right n hi
  rw [writeAt, hc, p.seek_of_le true hle, overwrite_encode_place rs r hi]

theorem readAt_encode {n : Nat} (p : Platform) {rs : List (Record n)} {i : Nat}
    (hc : fs.contents name = encode rs) (hi : i ≤ rs.length) :
    fs.readAt p name (i * n) n = ((rs[i]?).map Record.bytes).getD [] := by
  have hle : i * n ≤ (encode rs).length := by
    rw [length_encode]
    exact Nat.mul_le_mul_right n hi
  rw [readAt, hc, p.seek_of_le false hle, slice_encode]

end Files

end SnGateway
