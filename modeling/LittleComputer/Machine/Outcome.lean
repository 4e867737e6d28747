import LittleComputer.Opcode

/-! How an instruction, or a run of them, comes to its end. -/
namespace LittleComputer

inductive Fault where
  | reserved (word : Word)
  | badVector (vector : BitVec 8)
  deriving DecidableEq, Repr

def Fault.message : Fault → String
  | .reserved word =>
    "attempt to execute reserved instruction " ++ (Opcode.ofWord word).mnemonic ++
      " (" ++ word.hex ++ ")"
  | .badVector vector => "invalid TRAP vector: " ++ Word.hex (vector.setWidth 16)

inductive Outcome where
  | done
  | fault (f : Fault)
  /-- The user, or a limit on the number of steps, broke in. -/
  | interrupted
  /-- The instruction in progress would go on for ever. -/
  | unending
  deriving DecidableEq, Repr

end LittleComputer
