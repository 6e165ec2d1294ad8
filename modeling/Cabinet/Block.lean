/-! Blocks: byte strings of a fixed length.

The memory, the video RAM, the screen and every ROM image is a block, so a length
is checked once, where bytes from outside become one (`ofBytes?`), and every later
access is to an index below it. `get` is the whole view of a block (`ext`); each
operation has one lemma that says what it does to that view. -/
namespace Cabinet

/-- Exactly `n` bytes. -/
structure Block (n : Nat) where
  bytes : ByteArray
  size_bytes : bytes.size = n

namespace Block
variable {n : Nat}

def get (b : Block n) (i : Nat) (h : i < n) : UInt8 :=
  b.bytes.get i (by rw [b.size_bytes]; exact h)

/-- Equal byte for byte is equal. -/
@[ext] theorem ext {a b : Block n} (h : ∀ i (hi : i < n), a.get i hi = b.get i hi) : a = b := by
  obtain ⟨⟨a⟩, ha⟩ := a
  obtain ⟨⟨b⟩, hb⟩ := b
  congr 2
  change a.size = n at ha
  change b.size = n at hb
  exact Array.ext (ha.trans hb.symm) fun i hi _ => h i (ha ▸ hi)

/-! ### Making blocks -/

/-- The block these bytes are, if they have its length. -/
def ofBytes? (n : Nat) (bytes : ByteArray) : Option (Block n) :=
  if h : bytes.size = n then some ⟨bytes, h⟩ else none

theorem ofBytes?_eq_some_iff {bytes : ByteArray} {b : Block n} :
    ofBytes? n bytes = some b ↔ b.bytes = bytes := by
  unfold ofBytes?
  split
  case isTrue h =>
    constructor
    · rintro h
      cases h
      rfl
    · rintro rfl
      rfl
  case isFalse h =>
    constructor
    · intro h
      cases h
    · rintro rfl
      exact absurd b.size_bytes h

/-- Every byte equal. -/
def replicate (n : Nat) (v : UInt8) : Block n :=
  ⟨⟨Array.replicate n v⟩, Array.size_replicate⟩

@[simp] theorem get_replicate (v : UInt8) (i : Nat) (h : i < n) : (replicate n v).get i h = v :=
  Array.getElem_replicate ..

/-- The block with the given byte at each index. -/
def ofFn (f : Fin n → UInt8) : Block n :=
  ⟨⟨Array.ofFn f⟩, Array.size_ofFn⟩

@[simp] theorem get_ofFn (f : Fin n → UInt8) (i : Nat) (h : i < n) :
    (ofFn f).get i h = f ⟨i, h⟩ :=
  Array.getElem_ofFn ..

/-! ### Writing and cutting -/

def set (b : Block n) (i : Nat) (v : UInt8) (h : i < n) : Block n :=
  ⟨b.bytes.set i v (by rw [b.size_bytes]; exact h), by
    obtain ⟨⟨b⟩, hb⟩ := b
    exact (Array.size_set ..).trans hb⟩

theorem get_set (b : Block n) (i j : Nat) (v : UInt8) (hi : i < n) (hj : j < n) :
    (b.set i v hi).get j hj = if i = j then v else b.get j hj := by
  obtain ⟨⟨b⟩, hb⟩ := b
  change b.size = n at hb
  exact Array.getElem_set (by omega) (by rw [Array.size_set]; omega)

/-- The `len` bytes from `start`. -/
def slice (b : Block n) (start len : Nat) (h : start + len ≤ n) : Block len :=
  ⟨b.bytes.extract start (start + len), by
    rw [ByteArray.size_extract, b.size_bytes]
    omega⟩

theorem get_slice (b : Block n) (start len : Nat) (h : start + len ≤ n) (i : Nat) (hi : i < len) :
    (b.slice start len h).get i hi = b.get (start + i) (by omega) :=
  ByteArray.getElem_extract _

/-! ### As a list -/

def toList (b : Block n) : List UInt8 :=
  b.bytes.data.toList

@[simp] theorem length_toList (b : Block n) : b.toList.length = n :=
  b.size_bytes

theorem getElem_toList (b : Block n) (i : Nat) (h : i < b.toList.length) :
    b.toList[i] = b.get i (b.length_toList ▸ h) :=
  rfl

end Block
end Cabinet
