import Cabinet.Memory
import Cabinet.Rom.LoadError

/-! Loading an image into memory, whole or not at all.

Both checks come before the first byte is written: first that the image has the length
it should have, then that it ends inside the memory. -/
namespace Cabinet.Memory

/-- The memory with `bytes` from `base` on. -/
def loadImage (m : Memory) (name : String) (base : UInt16) (bytes : ByteArray)
    (expected : Nat) : Except LoadError Memory :=
  if bytes.size ≠ expected then .error (.wrongSize name expected bytes.size)
  else if 65536 < base.toNat + expected then .error (.outOfRange name base expected)
  else .ok (m.writeAll base bytes.data.toList)

end Cabinet.Memory
