import LittleComputer.Proofs.Effect
import LittleComputer.Proofs.Exchange

/-! What a step can come to. It is at fault exactly if the word that it has fetched is refused, which
is told from the word alone; it goes on for ever only if it writes a text and no cell of memory holds
a zero; and a step that waits for a key comes to what the console answers. Every other step
completes. -/
namespace LittleComputer

namespace Memory

theorem get_ne_zero_of_zeroFrom {mem : Memory} {a : Word} {fuel distance : Nat}
    (absent : mem.zeroFrom a fuel distance = none) {i : Nat} (below : i < fuel) :
    mem.get (a + BitVec.ofNat 16 (distance + i)) ≠ 0 := by
  induction fuel generalizing distance i with
  | zero => omega
  | succ fuel ih =>
    unfold zeroFrom at absent
    split at absent
    · cases absent
    · next here =>
      cases i with
      | zero => exact here
      | succ i =>
        have later := ih absent (Nat.lt_of_succ_lt_succ below)
        rwa [Nat.add_assoc, Nat.add_comm 1 i] at later

/-- Going up from an address and round the top leads to every cell. -/
theorem add_distance (a b : Word) : a + BitVec.ofNat 16 (b - a).toNat = b := by
  rw [BitVec.ofNat_toNat, BitVec.setWidth_eq, BitVec.add_comm, BitVec.sub_add_cancel]

/-- A text goes on for ever only if no cell at all holds zero. -/
theorem get_ne_zero_of_textFrom? {mem : Memory} {a : Word} (endless : mem.textFrom? a = none)
    (b : Word) : mem.get b ≠ 0 := by
  have absent : mem.zeroFrom a 65536 0 = none := by simpa [textFrom?] using endless
  have apart := get_ne_zero_of_zeroFrom absent (b - a).isLt
  rwa [Nat.zero_add, add_distance] at apart

end Memory

/-- The fault of an instruction that cannot be executed: its word has a reserved operation code, or
it is a trap whose vector names no service. -/
def Instruction.fault? : Instruction → Option Fault
  | .trap vector => if (Service.ofVector? vector).isNone then some (.badVector vector) else none
  | .reserved word => some (.reserved word)
  | _ => none

/-- The fault of a word, told by its top four bits and, in a trap, by its low byte. -/
def Word.fault? (w : Word) : Option Fault :=
  if w.toNat / 4096 = 8 ∨ w.toNat / 4096 = 13 then some (.reserved w)
  else if w.toNat / 4096 = 15 ∧ ¬ (0x20 ≤ w.toNat % 256 ∧ w.toNat % 256 ≤ 0x25) then
    some (.badVector (w.extractLsb' 0 8))
  else none

/-- What is said of a word that cannot be executed. -/
def Word.refusal? (w : Word) : Option String :=
  if w.code = 8 then some ("attempt to execute reserved instruction RTI (" ++ w.hex ++ ")")
  else if w.code = 13 then some ("attempt to execute reserved instruction RES (" ++ w.hex ++ ")")
  else if w.code = 15 ∧ ¬ (0x20 ≤ w.toNat % 256 ∧ w.toNat % 256 ≤ 0x25) then
    some ("invalid TRAP vector: " ++ Word.hex (BitVec.ofNat 16 (w.toNat % 256)))
  else none

theorem Fault.message_reserved {w : Word} {op : Opcode} (reserved : Opcode.ofWord w = op) :
    message (.reserved w) =
      "attempt to execute reserved instruction " ++ op.mnemonic ++ " (" ++ w.hex ++ ")" := by
  subst reserved
  rfl

theorem Fault.message_badVector (w : Word) :
    message (.badVector (w.extractLsb' 0 8)) =
      "invalid TRAP vector: " ++ Word.hex (BitVec.ofNat 16 (w.toNat % 256)) := by
  have low : (w.extractLsb' 0 8).toNat = w.toNat % 256 := BitVec.extractLsb'_toNat ..
  rw [← low, BitVec.ofNat_toNat]
  rfl

theorem Word.refusal?_eq (w : Word) : w.refusal? = w.fault?.map Fault.message := by
  have number : (Opcode.ofWord w).number = w.toNat / 4096 := Opcode.number_ofWord_eq_code w
  unfold refusal? Word.fault? Word.code
  rw [← number, ← Fault.message_badVector]
  cases reserved : Opcode.ofWord w with
  | rti | res =>
    have message := Fault.message_reserved reserved
    simp only [Opcode.number, Opcode.mnemonic] at message ⊢
    simp [message]
  | _ => simp [Opcode.number]

theorem Service.ofVector?_isNone (vector : BitVec 8) :
    (ofVector? vector).isNone = true ↔ ¬ (0x20 ≤ vector.toNat ∧ vector.toNat ≤ 0x25) := by
  revert vector
  decide

theorem Instruction.fault?_decode (w : Word) : (decode w).fault? = w.fault? := by
  have number : (Opcode.ofWord w).number = w.toNat / 4096 := Opcode.number_ofWord_eq_code w
  unfold decode ofFields Word.fault?
  rw [← number]
  cases Opcode.ofWord w with
  | trap =>
    have low : (w.extractLsb' 0 8).toNat = w.toNat % 256 := BitVec.extractLsb'_toNat ..
    simp only [fault?, Service.ofVector?_isNone, low, Opcode.number]
    simp
  | jsr =>
    dsimp only
    split <;> rfl
  | _ => rfl

/-- What a fault leaves of the state after the fetch. A trap has made its link by then. -/
def Fault.leaves : Fault → State → State
  | .reserved _, s => s
  | .badVector _, s => s.setReg 7 s.pc

theorem Fault.leaves_eq (f : Fault) (s : State) :
    f.leaves s = { s with registers := (f.leaves s).registers } := by
  cases f <;> rfl

/-- What an instruction can come to that is not left waiting for a key. -/
inductive Comes (i : Instruction) (memory : Memory) : Outcome → Prop where
  | done : Comes i memory .done
  | fault {f : Fault} (refused : i.fault? = some f) : Comes i memory (.fault f)
  | unending (prints : i = .trap 0x22 ∨ i = .trap 0x24) (endless : ∀ a, memory.get a ≠ 0) :
      Comes i memory .unending

namespace Exchange

open Machine

variable {κ : Type} [Console κ]

/-- What the exchange comes to has the property, unless that is left to the answer of a console that
is waited for. -/
def Settles (P : Outcome → Prop) : Exchange → Prop
  | .quiet outcome _ _ => P outcome
  | .poll result => ∀ found, P (result found).1
  | .await _ _ => True

theorem settles_load (s : State) (a : Word) (next : Word → State → State) {i : Instruction}
    {memory : Memory} : (load s a next).Settles (Comes i memory) := by
  unfold load
  split
  · exact fun _ => Comes.done
  · exact Comes.done

theorem settles_putText (s : State) (bytesOf : Word → List UInt8) {i : Instruction}
    (prints : i = .trap 0x22 ∨ i = .trap 0x24) :
    (putText s bytesOf).Settles (Comes i s.memory) := by
  unfold putText
  cases found : s.memory.textFrom? (s.reg 0) with
  | some words => exact Comes.done
  | none => exact Comes.unending prints (Memory.get_ne_zero_of_textFrom? found)

theorem settles_ofInstruction (s : State) (i : Instruction) :
    (ofInstruction s i).Settles (Comes i s.memory) := by
  cases i with
  | ld target offset => exact settles_load s _ fun w s => s.assign target w
  | ldr target base offset => exact settles_load s _ fun w s => s.assign target w
  | sti source offset => exact settles_load s _ fun w s => s.store w (s.reg source)
  | ldi target offset =>
    simp only [ofInstruction]
    split
    · exact fun _ => Comes.done
    · exact settles_load ..
  | trap vector =>
    simp only [ofInstruction]
    cases found : Service.ofVector? vector with
    | none => exact Comes.fault (by rw [Instruction.fault?, found]; rfl)
    | some service =>
      rw [Service.ofVector?_eq_some_iff] at found
      subst found
      cases service with
      | getc => trivial
      | out => exact Comes.done
      | puts => exact settles_putText (s.setReg 7 s.pc) _ (.inl rfl)
      | prompt => trivial
      | putsp => exact settles_putText (s.setReg 7 s.pc) _ (.inr rfl)
      | halt => exact Comes.done
  | reserved word => exact Comes.fault rfl
  | _ => exact Comes.done

theorem outcomeOf_eq_iff {answer : Answer} (keyless : ∀ k, answer ≠ .key k) (given : Answer) :
    outcomeOf given = outcomeOf answer ↔ answer = given := by
  cases answer with
  | key k => exact absurd rfl (keyless k)
  | interrupted => cases given <;> simp [outcomeOf]
  | never => cases given <;> simp [outcomeOf]

theorem Settles.play {P : Outcome → Prop} {e : Exchange} (settles : e.Settles P) (console : κ) :
    P (e.play console).1 ∨ ∃ state prompted, e = .await state prompted := by
  cases e with
  | quiet outcome state said => exact .inl settles
  | poll result => exact .inl (settles _)
  | await state prompted => exact .inr ⟨state, prompted, rfl⟩

end Exchange

namespace Machine

variable {κ : Type} [Console κ] {m : Machine κ}

/-- A step comes to what its instruction does, unless it waits for a key. -/
theorem comes_step (m : Machine κ) :
    Comes m.instruction m.state.memory m.step.1 ∨
      ∃ state prompted, Exchange.ofState m.state = .await state prompted := by
  by_cases running : m.state.running = true
  · by_cases status : m.state.pc = keyboardStatus
    · left
      rw [step_eq_perform running]
      obtain idle | refused := instruction_of_status status
      · rw [idle]
        exact .done
      · rw [refused]
        exact .fault rfl
    · have exchange : Exchange.ofState m.state =
          Exchange.ofInstruction m.state.advance m.instruction := by
        rw [instruction_of_ne status, Exchange.ofState, if_pos running, if_neg status]
      have settles := Exchange.settles_ofInstruction m.state.advance m.instruction
      rw [← exchange] at settles
      have played := settles.play m.console
      rwa [Exchange.play_ofState] at played
  · left
    rw [step_of_halted m (Bool.eq_false_iff.mpr running)]
    exact .done

theorem perform_of_fault {i : Instruction} {f : Fault} (refused : i.fault? = some f) :
    m.perform i = (.fault f, m.map f.leaves) := by
  cases i with
  | trap vector =>
    simp only [perform, trap]
    cases found : Service.ofVector? vector with
    | none =>
      obtain rfl : .badVector vector = f := by simpa [Instruction.fault?, found] using refused
      rfl
    | some service => simp [Instruction.fault?, found] at refused
  | reserved word =>
    obtain rfl := Option.some.inj refused
    rfl
  | _ => cases refused

theorem step_of_refused (running : m.state.running = true) {f : Fault}
    (refused : (m.load m.state.pc).1.fault? = some f) :
    m.step = (.fault f, m.fetched.map f.leaves) := by
  rw [← Instruction.fault?_decode] at refused
  rw [step_eq_perform running]
  exact perform_of_fault refused

/-- A step is at fault exactly if the word that it has fetched is refused. -/
theorem step_eq_fault_iff (running : m.state.running = true) (f : Fault) :
    m.step.1 = .fault f ↔ (m.load m.state.pc).1.fault? = some f := by
  constructor
  · intro fault
    obtain comes | ⟨state, prompted, exchange⟩ := comes_step m
    · rw [fault] at comes
      cases comes with
      | fault refused => rwa [← Instruction.fault?_decode]
    · rw [← Exchange.play_ofState, exchange, Exchange.outcome_play_await] at fault
      cases answer : (Console.read (Exchange.say (Exchange.promptOf prompted) m.console)).1 with
      | _ => simp [answer, Exchange.outcomeOf] at fault
  · intro refused
    rw [step_of_refused running refused]

end Machine

end LittleComputer
