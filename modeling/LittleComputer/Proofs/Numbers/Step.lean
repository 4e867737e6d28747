import LittleComputer.Console.Tape
import LittleComputer.Machine.Step
import LittleComputer.Proofs.Numbers.Fields

/-! A step agrees with the reading on integers, one operation of the machine after the other.
As the numbers of a machine leave nothing of it out, they determine the machine after it. -/
namespace LittleComputer.Machine

open Numbers

variable {κ : Type}

theorem numbers_injective {m n : Machine κ} (h : m.numbers = n.numbers) : m = n := by
  rcases m with ⟨⟨registers, pc, cond, spare, memory, count, running, warn⟩, console⟩
  rcases n with ⟨⟨registers', pc', cond', spare', memory', count', running', warn'⟩, console'⟩
  simp only [numbers, Numbers.mk.injEq, Int.natCast_inj, BitVec.toNat_inj] at h
  obtain ⟨registersEq, rfl, rfl, memoryEq, rfl, rfl, rfl, rfl, rfl⟩ := h
  have files : registers = registers' :=
    Registers.ext_get (congrFun (table_injective registersEq))
  have memories : memory = memory' :=
    Memory.ext_get (congrFun (table_injective memoryEq))
  rw [files, memories]

theorem numbers_register (m : Machine κ) (r : Reg) :
    m.numbers.register r.toNat = (m.state.reg r).toNat := by
  rw [show m.numbers.register = table m.state.reg from rfl, table_toNat]

theorem numbers_cell (m : Machine κ) (a : Word) :
    m.numbers.cell a.toNat = (m.state.memory.get a).toNat := by
  rw [show m.numbers.cell = table m.state.memory.get from rfl, table_toNat]

theorem numbers_assign (m : Machine κ) (r : Reg) (w : Word) :
    (m.map (·.assign r w)).numbers = m.numbers.assign r.toNat w.toNat := by
  have registers : (m.state.assign r w).reg = Function.update m.state.reg r w := by
    funext t
    rw [Function.update_apply, State.reg_assign]
    simp only [eq_comm]
  simp only [numbers, map, Numbers.assign, registers, table_update, sign_toNat]
  rfl

theorem numbers_link (m : Machine κ) :
    (m.map fun s => s.setReg 7 s.pc).numbers = m.numbers.link := by
  have registers : (m.state.setReg 7 m.state.pc).reg =
      Function.update m.state.reg 7 m.state.pc := by
    funext t
    rw [Function.update_apply, State.reg_setReg]
    simp only [eq_comm]
  simp only [numbers, map, Numbers.link, registers, table_update]
  rfl

theorem numbers_store (m : Machine κ) (a w : Word) :
    (m.map (·.store a w)).numbers = m.numbers.store a.toNat w.toNat := by
  have cells : (m.state.store a w).memory.get = Function.update m.state.memory.get a w := by
    funext b
    rw [Function.update_apply, State.store, Memory.get_set]
    simp only [eq_comm]
  simp only [numbers, map, Numbers.store, cells, table_update]
  rfl

theorem numbers_advance (m : Machine κ) :
    (m.map (·.advance)).numbers =
      { m.numbers with count := m.numbers.count + 1, pc := (m.numbers.pc + 1) % 65536 } := by
  have next : ((m.state.pc + 1).toNat : Int) = (m.state.pc.toNat + 1) % 65536 := by
    rw [BitVec.toNat_add]
    rfl
  simp only [numbers, map, State.advance, next, Nat.cast_add, Nat.cast_one]
  rfl

theorem numbers_load [Console κ] (m : Machine κ) (a : Word) :
    m.numbers.read a.toNat = (((m.load a).1.toNat : Int), (m.load a).2.numbers) := by
  by_cases status : a = keyboardStatus
  · subst status
    have address : (keyboardStatus.toNat : Int) = 0xFE00 := rfl
    have code (key : Key) : (key.word.toNat : Int) = key.code % 65536 := by
      rw [← Key.ofInt_code, Integer.toNat_ofInt, Integer.truncate_eq]
    rw [Numbers.read, if_pos address, show m.numbers.console = m.console from rfl]
    rcases poll : Console.poll m.console with ⟨_ | key, console⟩
    · rw [load_of_poll_none m poll, numbers_store]
      rfl
    · rw [load_of_poll_some m poll, numbers_store, numbers_store, code]
      rfl
  · have apart : (a.toNat : Int) ≠ 0xFE00 := by
      intro h
      exact status (BitVec.eq_of_toNat_eq (by exact_mod_cast h))
    rw [load_of_ne m status, Numbers.read, if_neg apart, numbers_cell]

theorem numbers_near (m : Machine κ) (w : Word) :
    (m.numbers.pc + signedField w.toNat 9) % 65536 =
      (reach m.state.pc (w.extractLsb' 0 9)).toNat := by
  rw [signedField_toNat w (by decide), toNat_reach _ _ (by decide)]
  rfl

theorem numbers_beside (m : Machine κ) (w : Word) (r : Reg) :
    (m.numbers.register r.toNat + signedField w.toNat 6) % 65536 =
      (reach (m.state.reg r) (w.extractLsb' 0 6)).toNat := by
  rw [signedField_toNat w (by decide), toNat_reach _ _ (by decide), numbers_register]

theorem numbers_operand (m : Machine κ) (w : Word) :
    m.numbers.operand w.toNat = (m.operand (Instruction.operandField w)).toNat ∨
      m.numbers.operand w.toNat = (m.operand (Instruction.operandField w)).toInt := by
  unfold Numbers.operand Instruction.operandField
  rw [field_bit]
  cases w.getLsbD 5
  · left
    exact (congrArg _ (field_toNat w 2 0)).trans (numbers_register m _)
  · right
    rw [if_neg (by decide), if_pos rfl, operand, BitVec.toInt_signExtend_of_le (by decide),
      signedField_toNat w (by decide)]

theorem numbers_sum (m : Machine κ) (w a : Word) :
    (a.toNat + m.numbers.operand w.toNat) % 65536 =
      (a + m.operand (Instruction.operandField w)).toNat := by
  rw [BitVec.toNat_add]
  rcases numbers_operand m w with value | value
  · rw [value]
    omega
  · rw [value, BitVec.toInt_eq_toNat_cond]
    split <;> omega

theorem numbers_conjunction (m : Machine κ) (w a : Word) :
    (a.toNat : Int).land (m.numbers.operand w.toNat) =
      (a &&& m.operand (Instruction.operandField w)).toNat := by
  rcases numbers_operand m w with value | value
  · rw [value]
    rfl
  · rw [value, land_toInt]

theorem numbers_branch (m : Machine κ) (w : Word) (valid : m.state.WellFormed) :
    (if meets w.toNat m.numbers.cond then
        { m.numbers with pc := (m.numbers.pc + signedField w.toNat 9) % 65536 }
      else m.numbers) =
      (m.map fun s => if (w.extractLsb' 9 3).setWidth 16 &&& s.cond = 0 then s
        else s.jump (reach s.pc (w.extractLsb' 0 9))).numbers := by
  have taken := meets_iff w m.state.cond valid
  rw [numbers_near]
  by_cases zero : (w.extractLsb' 9 3).setWidth 16 &&& m.state.cond = 0
  · have untaken : ¬ meets w.toNat m.numbers.cond = true := fun h => taken.mp h zero
    rw [if_neg untaken]
    simp only [map, zero, if_true]
  · have meeting : meets w.toNat m.numbers.cond = true := taken.mpr zero
    rw [if_pos meeting]
    simp only [map, zero, if_false]
    rfl

theorem numbers_execute [Console κ] (m : Machine κ) (w : Word) (valid : m.state.WellFormed)
    (ordinary : Opcode.ofWord w ∉ [.rti, .res, .trap]) :
    (m.execute w).1 = .done ∧ m.numbers.execute w.toNat = some (m.execute w).2.numbers := by
  have code := field_opcode w
  have near := numbers_near m w
  have beside := numbers_beside m w (Instruction.baseField w)
  unfold Machine.execute Instruction.decode
  cases op : Opcode.ofWord w <;> rw [op] at code ordinary
  all_goals simp only [Opcode.number, Nat.cast_ofNat, Nat.cast_zero, Nat.cast_one] at code
  case rti | res | trap => simp at ordinary
  case jsr =>
    simp only [Numbers.execute, code, field_bit, ← numbers_link, Instruction.ofFields]
    cases w.getLsbD 11
    · refine ⟨rfl, congrArg some ?_⟩
      rw [field_base, numbers_register]
      rfl
    · refine ⟨rfl, congrArg some ?_⟩
      have distant := toNat_reach m.state.pc (w.extractLsb' 0 11) (by decide)
      rw [signedField_toNat w (by decide)]
      exact congrArg (fun pc => { (m.map fun s => s.setReg 7 s.pc).numbers with pc }) distant.symm
  all_goals refine ⟨rfl, ?_⟩
  all_goals simp only [Numbers.execute, code, field_target, field_base, numbers_register]
  case br => exact congrArg some (numbers_branch m w valid)
  case add =>
    rw [numbers_sum, ← numbers_assign]
    rfl
  case and =>
    rw [numbers_conjunction, ← numbers_assign]
    rfl
  case not =>
    rw [← toNat_complement, ← numbers_assign]
    rfl
  case lea =>
    rw [near, ← numbers_assign]
    rfl
  case st =>
    rw [near, ← numbers_store]
    rfl
  case str =>
    rw [← numbers_register, beside, ← numbers_store]
    rfl
  case jmp => rfl
  case ld =>
    rw [near, numbers_load, ← numbers_assign]
    rfl
  case ldr =>
    rw [← numbers_register, beside, numbers_load, ← numbers_assign]
    rfl
  case ldi =>
    rw [near, numbers_load]
    dsimp only
    rw [numbers_load, ← numbers_assign]
    rfl
  case sti =>
    rw [near, numbers_load]
    dsimp only
    rw [numbers_register, ← numbers_store]
    rfl

theorem step_of_running [Console κ] (m : Machine κ) (running : m.state.running = true)
    (apart : m.state.pc ≠ keyboardStatus) :
    m.step = (m.map (·.advance)).execute (m.state.memory.get m.state.pc) := by
  simp [step, running, apart]

/-- The step of an instruction that is neither reserved nor a trap completes and leaves exactly
the machine that the reading on integers gives. -/
theorem step_reads_as_numbers [Console κ] (m : Machine κ) (running : m.state.running = true)
    (valid : m.state.WellFormed) (apart : m.state.pc ≠ keyboardStatus)
    (ordinary : Opcode.ofWord (m.state.memory.get m.state.pc) ∉ [.rti, .res, .trap]) :
    m.step.1 = .done ∧ m.numbers.step = some m.step.2.numbers ∧
      ∀ after : Machine κ, m.numbers.step = some after.numbers → after = m.step.2 := by
  obtain ⟨completed, reading⟩ :=
    numbers_execute (m.map (·.advance)) (m.state.memory.get m.state.pc) valid ordinary
  rw [← step_of_running m running apart] at completed reading
  have agreement : m.numbers.step = some m.step.2.numbers := by
    rw [Numbers.step, show m.numbers.pc = m.state.pc.toNat from rfl, numbers_cell, ← reading,
      numbers_advance]
    rfl
  refine ⟨completed, agreement, ?_⟩
  intro after same
  exact numbers_injective (Option.some.inj (same.symm.trans agreement))

/-- An indirect load whose pointer leads to the keyboard's status, with a key waiting. -/
theorem step_reads_as_numbers_polling :
    let m : Machine Tape :=
      ⟨(State.initial.store 0x3000 0xA200).store 0x3001 keyboardStatus, { keys := [65] }⟩
    (m.state.running = true ∧ m.state.WellFormed ∧ m.state.pc ≠ keyboardStatus ∧
      Opcode.ofWord (m.state.memory.get m.state.pc) ∉ [.rti, .res, .trap]) ∧
    m.step.1 = .done ∧ m.numbers.step = some m.step.2.numbers ∧
      ∀ after : Machine Tape, m.numbers.step = some after.numbers → after = m.step.2 := by
  intro m
  have fetched : m.state.memory.get m.state.pc = 0xA200 := by
    simp [m, State.store, State.initial, Memory.get_set]
  have ordinary : Opcode.ofWord (m.state.memory.get m.state.pc) ∉ [.rti, .res, .trap] := by
    rw [fetched]
    decide
  have hypotheses : m.state.running = true ∧ m.state.WellFormed ∧ m.state.pc ≠ keyboardStatus :=
    ⟨rfl, .inr (.inl rfl), by decide⟩
  exact ⟨⟨hypotheses.1, hypotheses.2.1, hypotheses.2.2, ordinary⟩,
    step_reads_as_numbers m hypotheses.1 hypotheses.2.1 hypotheses.2.2 ordinary⟩

end LittleComputer.Machine
