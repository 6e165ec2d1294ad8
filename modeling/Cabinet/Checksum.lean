import Cabinet.Block

/-! The digest of a run of bytes: 64-bit FNV-1a.

Every byte is xored into the state, which is then multiplied by a prime. `ofList` says
what the digest is; `ofBytes` reads it off packed bytes, and `ofBytes_eq` says that the
two agree. -/
namespace Cabinet.Checksum

def basis : UInt64 := 0xcbf29ce484222325

def prime : UInt64 := 0x100000001b3

def absorb (state : UInt64) (v : UInt8) : UInt64 :=
  (state ^^^ v.toUInt64) * prime

def ofList (bytes : List UInt8) : UInt64 :=
  bytes.foldl absorb basis

/-- The state after the bytes from index `i` on. -/
def absorbFrom (bytes : ByteArray) (state : UInt64) (i : Nat) : UInt64 :=
  if h : i < bytes.size then absorbFrom bytes (absorb state bytes[i]) (i + 1) else state
termination_by bytes.size - i

def ofBytes (bytes : ByteArray) : UInt64 :=
  absorbFrom bytes basis 0

theorem absorbFrom_eq (bytes : ByteArray) (state : UInt64) (i : Nat) :
    absorbFrom bytes state i = (bytes.data.toList.drop i).foldl absorb state := by
  fun_induction absorbFrom bytes state i with
  | case1 state i h ih =>
    have hlen : i < bytes.data.toList.length := h
    rw [ih, List.drop_eq_getElem_cons hlen]
    rfl
  | case2 state i h =>
    rw [List.drop_eq_nil_of_le (Nat.le_of_not_lt h)]
    rfl

theorem ofBytes_eq (bytes : ByteArray) : ofBytes bytes = ofList bytes.data.toList :=
  absorbFrom_eq bytes basis 0

/-- The digest of a block. -/
def ofBlock {n : Nat} (b : Block n) : UInt64 :=
  ofBytes b.bytes

theorem ofBlock_eq {n : Nat} (b : Block n) : ofBlock b = ofList b.toList :=
  ofBytes_eq b.bytes

end Cabinet.Checksum
