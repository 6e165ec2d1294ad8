import Cabinet.Block
import Cabinet.Word

/-! The memory: 65536 cells, every address one of them.

A 16-bit address cannot miss, so reads and writes are total and addresses wrap at
the top. `read` is the view, `read_write` what a write does to it. Words are stored
low byte first. The picture is kept in 7168 of the cells, from 0x2400. -/
namespace Cabinet

abbrev Memory := Block 65536

/-- The bytes that hold the picture. -/
abbrev VideoRam := Block 7168

namespace Memory

def blank : Memory :=
  Block.replicate 65536 0

def read (m : Memory) (a : UInt16) : UInt8 :=
  m.get a.toNat a.toNat_lt

def write (m : Memory) (a : UInt16) (v : UInt8) : Memory :=
  m.set a.toNat v a.toNat_lt

@[simp] theorem read_blank (a : UInt16) : blank.read a = 0 :=
  Block.get_replicate ..

theorem read_write (m : Memory) (a b : UInt16) (v : UInt8) :
    (m.write a v).read b = if a = b then v else m.read b := by
  simp only [read, write, Block.get_set, UInt16.toNat_inj]

/-- Memories that read alike are equal. -/
theorem ext_read {m m' : Memory} (h : ∀ a, m.read a = m'.read a) : m = m' := by
  apply Block.ext
  intro i hi
  have := h (UInt16.ofNat i)
  simp only [read, UInt16.toNat_ofNat_of_lt' hi] at this
  exact this

/-! ### Words -/

def readWord (m : Memory) (a : UInt16) : UInt16 :=
  Word.join (m.read (a + 1)) (m.read a)

/-- The low byte at `a`, then the high byte at the address after it. -/
def writeWord (m : Memory) (a w : UInt16) : Memory :=
  (m.write a (Word.low w)).write (a + 1) (Word.high w)

/-! ### Runs of cells -/

/-- Write bytes from `a` on, one cell after the other, wrapping at the top. -/
def writeAll (m : Memory) (a : UInt16) : List UInt8 → Memory
  | [] => m
  | v :: rest => (m.write a v).writeAll (a + 1) rest

theorem writeAll_append (m : Memory) (a : UInt16) (xs ys : List UInt8) :
    m.writeAll a (xs ++ ys) = (m.writeAll a xs).writeAll (a + UInt16.ofNat xs.length) ys := by
  induction xs generalizing m a with
  | nil => simp [writeAll]
  | cons v rest ih =>
    have : a + UInt16.ofNat (rest.length + 1) = a + 1 + UInt16.ofNat rest.length := by
      rw [UInt16.ofNat_add, UInt16.add_comm (UInt16.ofNat rest.length), UInt16.add_assoc]
      rfl
    simp only [List.cons_append, writeAll, List.length_cons, this]
    exact ih ..

/-- The `count` bytes from `a` on, wrapping at the top. -/
def readAll (m : Memory) (a : UInt16) : Nat → List UInt8
  | 0 => []
  | count + 1 => m.read a :: m.readAll (a + 1) count

/-! ### Video RAM -/

/-- Where the picture begins. -/
def videoBase : Nat := 0x2400

def videoRam (m : Memory) : VideoRam :=
  m.slice videoBase 7168 (by decide)

theorem videoRam_get (m : Memory) {i : Nat} (h : i < 7168) :
    m.videoRam.get i h = m.read (UInt16.ofNat (0x2400 + i)) := by
  have inside : 0x2400 + i < 65536 := by omega
  have address : (UInt16.ofNat (0x2400 + i)).toNat = 0x2400 + i :=
    UInt16.toNat_ofNat_of_lt' inside
  simp only [videoRam, Block.get_slice, videoBase, read, address]

end Memory
end Cabinet
