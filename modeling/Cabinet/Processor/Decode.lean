import Cabinet.Processor.Instruction

/-! What each opcode means.

The instruction set is laid out in octal. The first digit of an opcode picks one of
four quarters; in the middle two, moves and accumulator operations, the other digits
are the operands. In the outer two the last digit picks a family and the middle digit
its member, a register pair and a choice of two where it is split. All 256 opcodes
mean something: those left over repeat their neighbours. -/
namespace Cabinet

def Operand.ofDigit : Nat → Operand
  | 0 => .b
  | 1 => .c
  | 2 => .d
  | 3 => .e
  | 4 => .h
  | 5 => .l
  | 6 => .m
  | _ => .a

/-- The pair named by the upper two bits of a digit. -/
def Pair.ofDigit (y : Nat) : Pair :=
  match y / 2 with
  | 0 => .bc
  | 1 => .de
  | 2 => .hl
  | _ => .sp

/-- The same for the stack: where the stack pointer would be, the accumulator and the
flags. -/
def StackPair.ofDigit (y : Nat) : StackPair :=
  match y / 2 with
  | 0 => .bc
  | 1 => .de
  | 2 => .hl
  | _ => .psw

def AluOp.ofDigit : Nat → AluOp
  | 0 => .add
  | 1 => .adc
  | 2 => .sub
  | 3 => .sbb
  | 4 => .ana
  | 5 => .xra
  | 6 => .ora
  | _ => .cmp

def Condition.ofDigit : Nat → Condition
  | 0 => .notZero
  | 1 => .zero
  | 2 => .noCarry
  | 3 => .carry
  | 4 => .parityOdd
  | 5 => .parityEven
  | 6 => .plus
  | _ => .minus

namespace Instruction

/-- Opcodes 0yz: loads, stores and the operations on one operand. -/
def ofLowDigits (y z : Nat) : Instruction :=
  match z with
  | 0 => .nop
  | 1 => if y % 2 = 0 then .lxi (Pair.ofDigit y) else .dad (Pair.ofDigit y)
  | 2 =>
    match y with
    | 0 => .stax .bc
    | 1 => .ldax .bc
    | 2 => .stax .de
    | 3 => .ldax .de
    | 4 => .shld
    | 5 => .lhld
    | 6 => .sta
    | _ => .lda
  | 3 => if y % 2 = 0 then .inx (Pair.ofDigit y) else .dcx (Pair.ofDigit y)
  | 4 => .inr (Operand.ofDigit y)
  | 5 => .dcr (Operand.ofDigit y)
  | 6 => .mvi (Operand.ofDigit y)
  | _ =>
    match y with
    | 0 => .rlc
    | 1 => .rrc
    | 2 => .ral
    | 3 => .rar
    | 4 => .daa
    | 5 => .cma
    | 6 => .stc
    | _ => .cmc

/-- Opcodes 3yz: control flow, the stack, ports and immediate operands. -/
def ofHighDigits (y z : Nat) : Instruction :=
  match z with
  | 0 => .rcc (Condition.ofDigit y)
  | 1 =>
    match y with
    | 1 | 3 => .ret
    | 5 => .pchl
    | 7 => .sphl
    | _ => .pop (StackPair.ofDigit y)
  | 2 => .jcc (Condition.ofDigit y)
  | 3 =>
    match y with
    | 0 | 1 => .jmp
    | 2 => .output
    | 3 => .input
    | 4 => .xthl
    | 5 => .xchg
    | 6 => .di
    | _ => .ei
  | 4 => .ccc (Condition.ofDigit y)
  | 5 => if y % 2 = 0 then .push (StackPair.ofDigit y) else .call
  | 6 => .aluImm (AluOp.ofDigit y)
  | _ => .rst (UInt8.ofNat y)

/-- The instruction an opcode stands for. A move from memory to memory would be
opcode 166 (octal); it is the halt. -/
def decode (opcode : UInt8) : Instruction :=
  let y := opcode.toNat / 8 % 8
  let z := opcode.toNat % 8
  match opcode.toNat / 64 with
  | 0 => ofLowDigits y z
  | 1 => if opcode = 0x76 then .hlt else .mov (Operand.ofDigit y) (Operand.ofDigit z)
  | 2 => .alu (AluOp.ofDigit y) (Operand.ofDigit z)
  | _ => ofHighDigits y z

end Instruction
end Cabinet
