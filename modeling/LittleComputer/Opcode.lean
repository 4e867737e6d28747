import LittleComputer.Word

/-! The sixteen operation codes, held by the top four bits of an instruction word. -/
namespace LittleComputer

inductive Opcode where
  | br | add | ld | st | jsr | and | ldr | str | rti | not | ldi | sti | jmp | res | lea | trap
  deriving DecidableEq, Repr

namespace Opcode

def all : List Opcode :=
  [.br, .add, .ld, .st, .jsr, .and, .ldr, .str, .rti, .not, .ldi, .sti, .jmp, .res, .lea, .trap]

def ofWord (w : Word) : Opcode :=
  match (w.extractLsb' 12 4).toNat with
  | 0 => .br
  | 1 => .add
  | 2 => .ld
  | 3 => .st
  | 4 => .jsr
  | 5 => .and
  | 6 => .ldr
  | 7 => .str
  | 8 => .rti
  | 9 => .not
  | 10 => .ldi
  | 11 => .sti
  | 12 => .jmp
  | 13 => .res
  | 14 => .lea
  | _ => .trap

def number : Opcode → Nat
  | .br => 0
  | .add => 1
  | .ld => 2
  | .st => 3
  | .jsr => 4
  | .and => 5
  | .ldr => 6
  | .str => 7
  | .rti => 8
  | .not => 9
  | .ldi => 10
  | .sti => 11
  | .jmp => 12
  | .res => 13
  | .lea => 14
  | .trap => 15

def mnemonic : Opcode → String
  | .br => "BR"
  | .add => "ADD"
  | .ld => "LD"
  | .st => "ST"
  | .jsr => "JSR"
  | .and => "AND"
  | .ldr => "LDR"
  | .str => "STR"
  | .rti => "RTI"
  | .not => "NOT"
  | .ldi => "LDI"
  | .sti => "STI"
  | .jmp => "JMP"
  | .res => "RES"
  | .lea => "LEA"
  | .trap => "TRAP"

/-- The codes that no program may execute. -/
def reserved : Opcode → Bool
  | .rti | .res => true
  | _ => false

/-- The name under which an operation is carried out: all reserved codes share one. -/
def action (op : Opcode) : String := if op.reserved then "RESERVED" else op.mnemonic

theorem number_ofWord (w : Word) : (ofWord w).number = (w.extractLsb' 12 4).toNat := by
  unfold ofWord
  generalize w.extractLsb' 12 4 = code
  revert code
  decide

end Opcode

end LittleComputer
