/-! The instruction set of the 8080, each instruction without its immediate bytes.

An instruction says what it works on; the byte or word that follows some of them in
memory is fetched when it is executed. Length and cost depend on the instruction
alone: a conditional call or return costs the same whether it is taken or not. -/
namespace Cabinet

/-- A register, or the memory cell that HL points at (`m`). -/
inductive Operand where
  | b | c | d | e | h | l | m | a
  deriving Repr, DecidableEq, Inhabited

/-- What holds a word: three pairs of registers, and the stack pointer. -/
inductive Pair where
  | bc | de | hl | sp
  deriving Repr, DecidableEq, Inhabited

/-- The pairs that the accumulator is loaded and stored through. -/
inductive IndexPair where
  | bc | de
  deriving Repr, DecidableEq, Inhabited

/-- What goes to the stack: three pairs of registers, and the accumulator above the
flag byte. -/
inductive StackPair where
  | bc | de | hl | psw
  deriving Repr, DecidableEq, Inhabited

/-- The eight operations between the accumulator and a byte. -/
inductive AluOp where
  | add | adc | sub | sbb | ana | xra | ora | cmp
  deriving Repr, DecidableEq, Inhabited

/-- When a conditional jump, call or return is taken. -/
inductive Condition where
  | notZero | zero | noCarry | carry | parityOdd | parityEven | plus | minus
  deriving Repr, DecidableEq, Inhabited

inductive Instruction where
  | nop
  | hlt
  | mov (dst src : Operand)
  | mvi (dst : Operand)
  | lxi (pair : Pair)
  | lda
  | sta
  | ldax (pair : IndexPair)
  | stax (pair : IndexPair)
  | lhld
  | shld
  | xchg
  | alu (op : AluOp) (src : Operand)
  | aluImm (op : AluOp)
  | inr (dst : Operand)
  | dcr (dst : Operand)
  | inx (pair : Pair)
  | dcx (pair : Pair)
  | dad (pair : Pair)
  | daa
  | rlc
  | rrc
  | ral
  | rar
  | cma
  | stc
  | cmc
  | jmp
  | jcc (cond : Condition)
  | call
  | ccc (cond : Condition)
  | ret
  | rcc (cond : Condition)
  | rst (vector : UInt8)
  | pchl
  | push (pair : StackPair)
  | pop (pair : StackPair)
  | xthl
  | sphl
  | input
  | output
  | ei
  | di
  deriving Repr, DecidableEq, Inhabited

namespace Instruction

/-- How many bytes the instruction takes in memory, its opcode included. -/
def length : Instruction → UInt16
  | .lxi _ | .lda | .sta | .lhld | .shld | .jmp | .jcc _ | .call | .ccc _ => 3
  | .mvi _ | .aluImm _ | .input | .output => 2
  | _ => 1

/-- How many clock cycles the instruction takes. -/
def cycles : Instruction → UInt32
  | .nop | .daa | .rlc | .rrc | .ral | .rar | .cma | .stc | .cmc | .xchg | .ei | .di => 4
  | .mov .m _ | .mov _ .m => 7
  | .mov _ _ => 5
  | .mvi .m => 10
  | .mvi _ => 7
  | .alu _ .m => 7
  | .alu _ _ => 4
  | .inr .m | .dcr .m => 10
  | .inr _ | .dcr _ => 5
  | .inx _ | .dcx _ | .rcc _ | .pchl | .sphl => 5
  | .hlt | .ldax _ | .stax _ | .aluImm _ => 7
  | .lxi _ | .dad _ | .jmp | .jcc _ | .ret | .pop _ | .input | .output => 10
  | .rst _ | .push _ => 11
  | .lda | .sta => 13
  | .lhld | .shld => 16
  | .call | .ccc _ => 17
  | .xthl => 18

/-- No instruction is free. -/
theorem four_le_cycles (i : Instruction) : 4 ≤ i.cycles := by
  unfold cycles
  split <;> decide

theorem cycles_le_eighteen (i : Instruction) : i.cycles ≤ 18 := by
  unfold cycles
  split <;> decide

end Instruction
end Cabinet
