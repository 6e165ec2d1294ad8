import Cabinet.Processor.Decode
import Cabinet.Word

/-! The opcode map, read the other way: the bytes an instruction is written with.

`opcodes` lists them as an assembler would, a base with the fields of the operands in
their places; where more than one byte is listed, those after the first are aliases.
Decoding is exactly the inverse (`mem_opcodes_iff`), so each of the 256 bytes is in the
list of one instruction and of no other. How many bytes the instruction at an opcode takes
and what it costs are tables of their own; `length_decode` and `cycles_decode` say that the
length and the cost of the decoded instruction are the entries of its byte. -/
namespace Cabinet

/-! ### Fields -/

def Operand.code : Operand → UInt8
  | .b => 0
  | .c => 1
  | .d => 2
  | .e => 3
  | .h => 4
  | .l => 5
  | .m => 6
  | .a => 7

def Pair.code : Pair → UInt8
  | .bc => 0
  | .de => 1
  | .hl => 2
  | .sp => 3

def IndexPair.code : IndexPair → UInt8
  | .bc => 0
  | .de => 1

def StackPair.code : StackPair → UInt8
  | .bc => 0
  | .de => 1
  | .hl => 2
  | .psw => 3

def AluOp.code : AluOp → UInt8
  | .add => 0
  | .adc => 1
  | .sub => 2
  | .sbb => 3
  | .ana => 4
  | .xra => 5
  | .ora => 6
  | .cmp => 7

def Condition.code : Condition → UInt8
  | .notZero => 0
  | .zero => 1
  | .noCarry => 2
  | .carry => 3
  | .parityOdd => 4
  | .parityEven => 5
  | .plus => 6
  | .minus => 7

namespace Instruction

/-! ### The map -/

/-- The bytes that stand for an instruction. A move from memory to memory has none, nor
has a restart past the eighth. -/
def opcodes : Instruction → List UInt8
  | .nop => [0x00, 0x08, 0x10, 0x18, 0x20, 0x28, 0x30, 0x38]
  | .hlt => [0x76]
  | .mov .m .m => []
  | .mov dst src => [0x40 + 8 * dst.code + src.code]
  | .mvi dst => [0x06 + 8 * dst.code]
  | .lxi p => [0x01 + 16 * p.code]
  | .lda => [0x3a]
  | .sta => [0x32]
  | .ldax p => [0x0a + 16 * p.code]
  | .stax p => [0x02 + 16 * p.code]
  | .lhld => [0x2a]
  | .shld => [0x22]
  | .xchg => [0xeb]
  | .alu op src => [0x80 + 8 * op.code + src.code]
  | .aluImm op => [0xc6 + 8 * op.code]
  | .inr dst => [0x04 + 8 * dst.code]
  | .dcr dst => [0x05 + 8 * dst.code]
  | .inx p => [0x03 + 16 * p.code]
  | .dcx p => [0x0b + 16 * p.code]
  | .dad p => [0x09 + 16 * p.code]
  | .daa => [0x27]
  | .rlc => [0x07]
  | .rrc => [0x0f]
  | .ral => [0x17]
  | .rar => [0x1f]
  | .cma => [0x2f]
  | .stc => [0x37]
  | .cmc => [0x3f]
  | .jmp => [0xc3, 0xcb]
  | .jcc cond => [0xc2 + 8 * cond.code]
  | .call => [0xcd, 0xdd, 0xed, 0xfd]
  | .ccc cond => [0xc4 + 8 * cond.code]
  | .ret => [0xc9, 0xd9]
  | .rcc cond => [0xc0 + 8 * cond.code]
  | .rst n => if n < 8 then [0xc7 + 8 * n] else []
  | .pchl => [0xe9]
  | .push p => [0xc5 + 16 * p.code]
  | .pop p => [0xc1 + 16 * p.code]
  | .xthl => [0xe3]
  | .sphl => [0xf9]
  | .input => [0xdb]
  | .output => [0xd3]
  | .ei => [0xfb]
  | .di => [0xf3]

theorem mem_opcodes_decode (opcode : UInt8) : opcode ∈ (decode opcode).opcodes :=
  Word.forall_byte (p := fun opcode => opcode ∈ (decode opcode).opcodes) (by decide +kernel) opcode

theorem mem_opcodes_rst {opcode n : UInt8} :
    opcode ∈ (rst n).opcodes ↔ n < 8 ∧ opcode = 0xc7 + 8 * n := by
  simp only [opcodes]
  split
  case isTrue hn => simp [hn]
  case isFalse hn => simp [hn]

theorem decode_restart (n : UInt8) : n < 8 → decode (0xc7 + 8 * n) = .rst n :=
  Word.forall_byte (p := fun n => n < 8 → decode (0xc7 + 8 * n) = .rst n) (by decide +kernel) n

/-- Every byte listed for an instruction decodes to it. -/
theorem decode_eq_of_mem_opcodes {opcode : UInt8} {i : Instruction} (h : opcode ∈ i.opcodes) :
    decode opcode = i := by
  cases i with
  | nop =>
    simp only [opcodes, List.mem_cons, List.not_mem_nil, or_false] at h
    rcases h with rfl | rfl | rfl | rfl | rfl | rfl | rfl | rfl <;> rfl
  | jmp | ret =>
    simp only [opcodes, List.mem_cons, List.not_mem_nil, or_false] at h
    rcases h with rfl | rfl <;> rfl
  | call =>
    simp only [opcodes, List.mem_cons, List.not_mem_nil, or_false] at h
    rcases h with rfl | rfl | rfl | rfl <;> rfl
  | rst n =>
    obtain ⟨hn, rfl⟩ := mem_opcodes_rst.mp h
    exact decode_restart n hn
  | mov dst src =>
    cases dst <;> cases src <;> first
      | (obtain rfl := List.mem_singleton.mp h; rfl)
      | cases h
  | alu op src =>
    obtain rfl := List.mem_singleton.mp h
    cases op <;> cases src <;> rfl
  | mvi o | inr o | dcr o | lxi o | ldax o | stax o | inx o | dcx o | dad o | aluImm o | jcc o | ccc o
  | rcc o | push o | pop o =>
    obtain rfl := List.mem_singleton.mp h
    cases o <;> rfl
  | _ =>
    obtain rfl := List.mem_singleton.mp h
    rfl

/-- **Decoding inverts the map**: an opcode is listed for the instruction it decodes to,
and for no other. -/
theorem mem_opcodes_iff {opcode : UInt8} {i : Instruction} :
    opcode ∈ i.opcodes ↔ i = decode opcode := by
  constructor
  · intro h
    exact (decode_eq_of_mem_opcodes h).symm
  · rintro rfl
    exact mem_opcodes_decode opcode

/-! ### Lengths -/

/-- Bytes in memory, a row for each upper and a column for each lower half of the opcode. -/
def sizes : List (List Nat) := [
  [1, 3, 1, 1, 1, 1, 2, 1, 1, 1, 1, 1, 1, 1, 2, 1],
  [1, 3, 1, 1, 1, 1, 2, 1, 1, 1, 1, 1, 1, 1, 2, 1],
  [1, 3, 3, 1, 1, 1, 2, 1, 1, 1, 3, 1, 1, 1, 2, 1],
  [1, 3, 3, 1, 1, 1, 2, 1, 1, 1, 3, 1, 1, 1, 2, 1],
  [1, 1, 1, 1, 1, 1, 1, 1, 1, 1, 1, 1, 1, 1, 1, 1],
  [1, 1, 1, 1, 1, 1, 1, 1, 1, 1, 1, 1, 1, 1, 1, 1],
  [1, 1, 1, 1, 1, 1, 1, 1, 1, 1, 1, 1, 1, 1, 1, 1],
  [1, 1, 1, 1, 1, 1, 1, 1, 1, 1, 1, 1, 1, 1, 1, 1],
  [1, 1, 1, 1, 1, 1, 1, 1, 1, 1, 1, 1, 1, 1, 1, 1],
  [1, 1, 1, 1, 1, 1, 1, 1, 1, 1, 1, 1, 1, 1, 1, 1],
  [1, 1, 1, 1, 1, 1, 1, 1, 1, 1, 1, 1, 1, 1, 1, 1],
  [1, 1, 1, 1, 1, 1, 1, 1, 1, 1, 1, 1, 1, 1, 1, 1],
  [1, 1, 3, 3, 3, 1, 2, 1, 1, 1, 3, 3, 3, 3, 2, 1],
  [1, 1, 3, 2, 3, 1, 2, 1, 1, 1, 3, 2, 3, 3, 2, 1],
  [1, 1, 3, 1, 3, 1, 2, 1, 1, 1, 3, 1, 3, 3, 2, 1],
  [1, 1, 3, 1, 3, 1, 2, 1, 1, 1, 3, 1, 3, 3, 2, 1]]

/-- How many bytes the instruction at an opcode takes. -/
def size (opcode : UInt8) : Nat :=
  (sizes.getD (opcode.toNat / 16) []).getD (opcode.toNat % 16) 0

theorem length_decode (opcode : UInt8) : (decode opcode).length.toNat = size opcode :=
  Word.forall_byte (p := fun opcode => (decode opcode).length.toNat = size opcode)
    (by decide +kernel) opcode

/-! ### Costs -/

/-- Clock cycles, a row for each upper and a column for each lower half of the opcode. -/
def costs : List (List Nat) := [
  [4, 10, 7, 5, 5, 5, 7, 4, 4, 10, 7, 5, 5, 5, 7, 4],
  [4, 10, 7, 5, 5, 5, 7, 4, 4, 10, 7, 5, 5, 5, 7, 4],
  [4, 10, 16, 5, 5, 5, 7, 4, 4, 10, 16, 5, 5, 5, 7, 4],
  [4, 10, 13, 5, 10, 10, 10, 4, 4, 10, 13, 5, 5, 5, 7, 4],
  [5, 5, 5, 5, 5, 5, 7, 5, 5, 5, 5, 5, 5, 5, 7, 5],
  [5, 5, 5, 5, 5, 5, 7, 5, 5, 5, 5, 5, 5, 5, 7, 5],
  [5, 5, 5, 5, 5, 5, 7, 5, 5, 5, 5, 5, 5, 5, 7, 5],
  [7, 7, 7, 7, 7, 7, 7, 7, 5, 5, 5, 5, 5, 5, 7, 5],
  [4, 4, 4, 4, 4, 4, 7, 4, 4, 4, 4, 4, 4, 4, 7, 4],
  [4, 4, 4, 4, 4, 4, 7, 4, 4, 4, 4, 4, 4, 4, 7, 4],
  [4, 4, 4, 4, 4, 4, 7, 4, 4, 4, 4, 4, 4, 4, 7, 4],
  [4, 4, 4, 4, 4, 4, 7, 4, 4, 4, 4, 4, 4, 4, 7, 4],
  [5, 10, 10, 10, 17, 11, 7, 11, 5, 10, 10, 10, 17, 17, 7, 11],
  [5, 10, 10, 10, 17, 11, 7, 11, 5, 10, 10, 10, 17, 17, 7, 11],
  [5, 10, 10, 18, 17, 11, 7, 11, 5, 5, 10, 4, 17, 17, 7, 11],
  [5, 10, 10, 4, 17, 11, 7, 11, 5, 5, 10, 4, 17, 17, 7, 11]]

/-- What the instruction at an opcode costs. -/
def cost (opcode : UInt8) : Nat :=
  (costs.getD (opcode.toNat / 16) []).getD (opcode.toNat % 16) 0

theorem cycles_decode (opcode : UInt8) : (decode opcode).cycles.toNat = cost opcode :=
  Word.forall_byte (p := fun opcode => (decode opcode).cycles.toNat = cost opcode)
    (by decide +kernel) opcode

end Instruction
end Cabinet
