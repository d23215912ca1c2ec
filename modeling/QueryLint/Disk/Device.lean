/-
  QueryLint.Disk.Device

  Devices that stand among the files: they can be read and written by name, but keep
  nothing, and are neither files nor directories.
-/
import QueryLint.Disk.Error

namespace QueryLint

/-- A device that is read and written by name. -/
inductive Device where
  /-- Empty when read; takes all that is written. -/
  | null
  /-- Endless when read; takes all that is written. -/
  | zero
  /-- Endless when read; has no room for anything that is written. -/
  | full
  deriving DecidableEq, Repr

namespace Device

/-- What is read from a device; an endless one does not fit into memory. -/
def read : Device → Except SystemError ByteArray
  | null => .ok .empty
  | zero | full => .error .outOfMemory

/-- What comes of writing to a device. Nothing needs no room. -/
def write (content : ByteArray) : Device → Except SystemError Unit
  | null | zero => .ok ()
  | full => if content.isEmpty then .ok () else .error .noSpace

end Device

end QueryLint
