import Cabinet.System
import Cabinet.Processor.Alu
import Cabinet.Processor.Decode

/-! What an instruction does.

The program counter is first moved past the whole instruction; the immediate byte or
word is what lay behind the opcode before anything was written. So a call pushes the
address of the next instruction, and a store cannot change its own operand. -/
namespace Cabinet.System
variable {σ : Type}

/-- What the instruction does, given its immediate byte and word, once the program
counter is past it. -/
def perform (dev : Device σ) (byte : UInt8) (word : UInt16) (s : System σ) :
    Instruction → System σ
  | .nop => s
  | .hlt => { s with cpu := { s.cpu with halted := true } }
  | .mov dst src => s.setOperand dst (s.operand src)
  | .mvi dst => s.setOperand dst byte
  | .lxi p => s.setPair p word
  | .lda => s.setOperand .a (s.memory.read word)
  | .sta => { s with memory := s.memory.write word s.cpu.a }
  | .ldax p => s.setOperand .a (s.memory.read (s.cpu.indexPair p))
  | .stax p => { s with memory := s.memory.write (s.cpu.indexPair p) s.cpu.a }
  | .lhld => s.setPair .hl (s.memory.readWord word)
  | .shld => { s with memory := s.memory.writeWord word s.cpu.hl }
  | .xchg => (s.setPair .hl (s.cpu.pair .de)).setPair .de s.cpu.hl
  | .alu op src => s.accumulate (Alu.apply op s.cpu.a (s.operand src) s.cpu.flags)
  | .aluImm op => s.accumulate (Alu.apply op s.cpu.a byte s.cpu.flags)
  | .inr dst =>
    let r := Alu.increment (s.operand dst) s.cpu.flags
    (s.setOperand dst r.1).setFlags r.2
  | .dcr dst =>
    let r := Alu.decrement (s.operand dst) s.cpu.flags
    (s.setOperand dst r.1).setFlags r.2
  | .inx p => s.setPair p (s.cpu.pair p + 1)
  | .dcx p => s.setPair p (s.cpu.pair p - 1)
  | .dad p =>
    let r := Alu.addWord s.cpu.hl (s.cpu.pair p) s.cpu.flags
    (s.setPair .hl r.1).setFlags r.2
  | .daa => s.accumulate (Alu.decimalAdjust s.cpu.a s.cpu.flags)
  | .rlc => s.accumulate (Alu.rotateLeft s.cpu.a s.cpu.flags)
  | .rrc => s.accumulate (Alu.rotateRight s.cpu.a s.cpu.flags)
  | .ral => s.accumulate (Alu.rotateLeftCarry s.cpu.a s.cpu.flags)
  | .rar => s.accumulate (Alu.rotateRightCarry s.cpu.a s.cpu.flags)
  | .cma => s.setOperand .a (~~~s.cpu.a)
  | .stc => s.setFlags { s.cpu.flags with carry := true }
  | .cmc => s.setFlags { s.cpu.flags with carry := !s.cpu.flags.carry }
  | .jmp => s.jump word
  | .jcc cond => if cond.holds s.cpu.flags then s.jump word else s
  | .call => s.call word
  | .ccc cond => if cond.holds s.cpu.flags then s.call word else s
  | .ret => s.ret
  | .rcc cond => if cond.holds s.cpu.flags then s.ret else s
  | .rst vector => s.restart vector
  | .pchl => s.jump s.cpu.hl
  | .push p => s.push (s.cpu.stackPair p)
  | .pop p => s.drop.setStackPair p s.top
  | .xthl => { s.setPair .hl s.top with memory := s.memory.writeWord s.cpu.sp s.cpu.hl }
  | .sphl => s.setPair .sp s.cpu.hl
  | .input =>
    let r := dev.input byte s.device
    { s.setOperand .a r.1 with device := r.2 }
  | .output => { s with device := dev.output byte s.cpu.a s.device }
  | .ei => { s with cpu := { s.cpu with interruptsEnabled := true } }
  | .di => { s with cpu := { s.cpu with interruptsEnabled := false } }

/-- Execute `i`, whose opcode is at the program counter. -/
def execute (dev : Device σ) (s : System σ) (i : Instruction) : System σ :=
  let operands := s.cpu.pc + 1
  let byte := s.memory.read operands
  let word := s.memory.readWord operands
  perform dev byte word (s.jump (s.cpu.pc + i.length)) i

end Cabinet.System
