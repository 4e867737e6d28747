import LittleComputer.Opcode
import LittleComputer.Registers

/-! Instructions and the words that stand for them. Decoding is total: each word is exactly one
instruction, the reserved ones included, and bits that an instruction does not use are ignored.
Offsets and immediate operands keep the width they have in the word; `reach` and `value` extend
them. -/
namespace LittleComputer

inductive Operand where
  | register (r : Reg)
  | immediate (bits : BitVec 5)
  deriving DecidableEq, Repr

inductive Instruction where
  | br (mask : BitVec 3) (offset : BitVec 9)
  | add (target source : Reg) (operand : Operand)
  | ld (target : Reg) (offset : BitVec 9)
  | st (source : Reg) (offset : BitVec 9)
  | jsr (offset : BitVec 11)
  | jsrr (base : Reg)
  | and (target source : Reg) (operand : Operand)
  | ldr (target base : Reg) (offset : BitVec 6)
  | str (source base : Reg) (offset : BitVec 6)
  | not (target source : Reg)
  | ldi (target : Reg) (offset : BitVec 9)
  | sti (source : Reg) (offset : BitVec 9)
  | jmp (base : Reg)
  | lea (target : Reg) (offset : BitVec 9)
  | trap (vector : BitVec 8)
  | reserved (word : Word)
  deriving DecidableEq, Repr

/-- The address at a signed distance from `origin`, modulo the size of memory. -/
def reach (origin : Word) (offset : BitVec n) : Word := origin + offset.signExtend 16

namespace Instruction

def targetField (w : Word) : Reg := w.extractLsb' 9 3
def baseField (w : Word) : Reg := w.extractLsb' 6 3
def operandField (w : Word) : Operand :=
  if w.getLsbD 5 then .immediate (w.extractLsb' 0 5) else .register (w.extractLsb' 0 3)

/-- The instruction that the fields of a word make under an operation code, which need not be
the word's own. -/
def ofFields (op : Opcode) (w : Word) : Instruction :=
  match op with
  | .br => .br (w.extractLsb' 9 3) (w.extractLsb' 0 9)
  | .add => .add (targetField w) (baseField w) (operandField w)
  | .ld => .ld (targetField w) (w.extractLsb' 0 9)
  | .st => .st (targetField w) (w.extractLsb' 0 9)
  | .jsr => if w.getLsbD 11 then .jsr (w.extractLsb' 0 11) else .jsrr (baseField w)
  | .and => .and (targetField w) (baseField w) (operandField w)
  | .ldr => .ldr (targetField w) (baseField w) (w.extractLsb' 0 6)
  | .str => .str (targetField w) (baseField w) (w.extractLsb' 0 6)
  | .rti => .reserved w
  | .not => .not (targetField w) (baseField w)
  | .ldi => .ldi (targetField w) (w.extractLsb' 0 9)
  | .sti => .sti (targetField w) (w.extractLsb' 0 9)
  | .jmp => .jmp (baseField w)
  | .res => .reserved w
  | .lea => .lea (targetField w) (w.extractLsb' 0 9)
  | .trap => .trap (w.extractLsb' 0 8)

def decode (w : Word) : Instruction := ofFields (Opcode.ofWord w) w

end Instruction

end LittleComputer
