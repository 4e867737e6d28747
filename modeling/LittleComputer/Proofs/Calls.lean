import LittleComputer.Console.Tape
import LittleComputer.Proofs.LastWrite
import LittleComputer.Proofs.Outcomes

/-! Calls and returns. A call leaves the address behind it in register 7, and the register keeps
that address until an instruction writes it, which is told from the instruction's word alone:
whatever else a subroutine does, and wherever it is left, a return from it goes to the instruction
after the call. -/
namespace LittleComputer

namespace Instruction

def links : Instruction → Bool
  | .jsr _ | .jsrr _ | .trap _ => true
  | _ => false

def WritesLink (i : Instruction) : Prop := i.links = true ∨ i.target? = some 7

end Instruction

/-- The word is that of an instruction that writes register 7: a call or a trap, or an operation
with a result whose target is that register. -/
def Word.WritesLink (w : Word) : Prop :=
  w.toNat / 4096 ∈ [4, 15] ∨
    w.toNat / 4096 ∈ [1, 2, 5, 6, 9, 10, 14] ∧ w.toNat / 512 % 8 = 7

namespace Instruction

theorem targetField_eq_iff (w : Word) (r : Reg) :
    targetField w = r ↔ w.toNat / 512 % 8 = r.toNat := by
  rw [targetField_eq_reg9, Word.reg9, ← BitVec.toNat_inj, BitVec.toNat_ofNat]

theorem writesLink_decode_iff (w : Word) : (decode w).WritesLink ↔ w.WritesLink := by
  have code : (Opcode.ofWord w).number = w.toNat / 4096 := Opcode.number_ofWord_eq_code w
  have target := targetField_eq_iff w 7
  have number : (7 : Reg).toNat = 7 := rfl
  rw [number] at target
  unfold decode ofFields WritesLink Word.WritesLink
  rw [← code, ← target]
  cases Opcode.ofWord w with
  | jsr =>
    dsimp only
    split <;> simp [links, Opcode.number]
  | _ => simp [links, target?, Opcode.number]

end Instruction

namespace Machine

variable {κ : Type} [Console κ] {m : Machine κ}

theorem reg_load_assign (m : Machine κ) (a w : Word) {r s : Reg} (other : some r ≠ some s) :
    ((m.load a).2.state.assign r w).reg s = m.state.reg s := by
  rw [State.reg_assign, if_neg (mt (congrArg some) other), reg_load]

theorem reg_perform (m : Machine κ) {i : Instruction} {r : Reg} (unlinked : i.links = false)
    (other : i.target? ≠ some r) : (m.perform i).2.state.reg r = m.state.reg r := by
  have kept (target : Reg) (w : Word) (apart : some target ≠ some r) :
      (m.state.assign target w).reg r = m.state.reg r := by
    rw [State.reg_assign, if_neg (mt (congrArg some) apart)]
  cases i with
  | add target source second => exact kept target _ other
  | and target source second => exact kept target _ other
  | not target source => exact kept target _ other
  | lea target offset => exact kept target _ other
  | ld target offset =>
    simp only [perform, map]
    rw [reg_load_assign _ _ _ other]
  | ldr target base offset =>
    simp only [perform, map]
    rw [reg_load_assign _ _ _ other]
  | ldi target offset =>
    simp only [perform, map]
    rw [reg_load_assign _ _ _ other, reg_load]
  | sti source offset =>
    simp only [perform, map]
    rw [State.reg_store, reg_load]
  | br mask offset =>
    rw [perform_br]
    dsimp only
    split <;> rfl
  | st source offset => rfl
  | str source base offset => rfl
  | jmp base => rfl
  | jsr offset => cases unlinked
  | jsrr base => cases unlinked
  | trap vector => cases unlinked
  | reserved word => rfl

/-- What a step leaves alone whose instruction does not write register 7. The machine goes on, as
only a trap stops it. -/
theorem step_of_not_writesLink (running : m.state.running = true)
    (other : ¬ m.instruction.WritesLink) :
    m.step.2.state.running = true ∧ m.step.2.state.reg 7 = m.state.reg 7 := by
  obtain ⟨unlinked, targetless⟩ := not_or.mp other
  constructor
  · rw [running_step running]
    intro halts
    rw [halts] at unlinked
    exact unlinked rfl
  · rw [step_eq_perform running,
      reg_perform m.fetched (Bool.eq_false_iff.mpr unlinked) targetless]
    exact reg_load m m.state.pc 7

theorem after_of_not_writesLink (running : m.state.running = true) {n : Nat}
    (others : ∀ k < n, ¬ (m.after k).instruction.WritesLink) :
    (m.after n).state.running = true ∧ (m.after n).state.reg 7 = m.state.reg 7 := by
  induction n with
  | zero => exact ⟨running, rfl⟩
  | succ n ih =>
    obtain ⟨alive, kept⟩ := ih fun k below => others k (Nat.lt_succ_of_lt below)
    obtain ⟨goes_on, same⟩ := step_of_not_writesLink alive (others n (Nat.lt_succ_self n))
    rw [← step_after]
    exact ⟨goes_on, same.trans kept⟩

theorem exists_call_of_number {w : Word} (calls : w.toNat / 4096 = 4) :
    (∃ offset, Instruction.decode w = .jsr offset) ∨ ∃ base, Instruction.decode w = .jsrr base := by
  have code : (Opcode.ofWord w).number = w.toNat / 4096 := Opcode.number_ofWord_eq_code w
  rw [calls] at code
  unfold Instruction.decode Instruction.ofFields
  cases op : Opcode.ofWord w with
  | jsr =>
    dsimp only
    split
    · exact .inl ⟨_, rfl⟩
    · exact .inr ⟨_, rfl⟩
  | _ =>
    rw [op] at code
    cases code

/-- The base of a call is read after the link is made, so that the link is the same whatever the
base. -/
theorem step_of_call (running : m.state.running = true) (elsewhere : m.state.pc ≠ keyboardStatus)
    (calls : (m.state.memory.get m.state.pc).toNat / 4096 = 4) :
    m.step.1 = .done ∧ m.step.2.state.running = true ∧
      m.step.2.state.reg 7 = m.state.pc + 1 := by
  have linked (s : State) : (s.setReg 7 s.pc).reg 7 = s.pc := Registers.get_set_self ..
  obtain ⟨offset, decodes⟩ | ⟨base, decodes⟩ := exists_call_of_number calls
  · rw [step_of_get running rfl elsewhere rfl decodes]
    exact ⟨rfl, running, linked m.state.advance⟩
  · rw [step_of_get running rfl elsewhere rfl decodes]
    exact ⟨rfl, running, linked m.state.advance⟩

theorem step_of_return (running : m.state.running = true) (elsewhere : m.state.pc ≠ keyboardStatus)
    (returns : m.state.memory.get m.state.pc = 0xC1C0) :
    m.step = (.done, m.map fun s => { s with pc := s.reg 7, count := s.count + 1 }) := by
  have decoded : Instruction.decode 0xC1C0 = .jmp 7 := by decide
  rw [step_of_get running rfl elsewhere returns decoded]
  rfl

/-- However long a subroutine runs, and whatever its steps come to, register 7 keeps the address
behind its call if none of its instructions writes it, and a return leads there. -/
theorem call_returns_to_caller (m : Machine κ) (running : m.state.running = true)
    (elsewhere : m.state.pc ≠ 0xFE00)
    (calls : (m.state.memory.get m.state.pc).toNat / 4096 = 4) (n : Nat)
    (others : ∀ k < n,
      ¬ Word.WritesLink ((m.after (k + 1)).load (m.after (k + 1)).state.pc).1) :
    let now := m.after (n + 1)
    m.step.1 = .done ∧ now.state.running = true ∧ now.state.reg 7 = m.state.pc + 1 ∧
      (now.state.pc ≠ 0xFE00 → now.state.memory.get now.state.pc = 0xC1C0 →
        now.step = (.done, { now with
          state := { now.state with pc := m.state.pc + 1, count := now.state.count + 1 } })) := by
  intro now
  obtain ⟨completed, alive, linked⟩ := step_of_call running elsewhere calls
  obtain ⟨goes_on, kept⟩ := after_of_not_writesLink alive fun k below =>
    mt (Instruction.writesLink_decode_iff _).mp (others k below)
  rw [linked] at kept
  refine ⟨completed, goes_on, kept, ?_⟩
  intro apart returns
  have returned := step_of_return goes_on apart returns
  simp only [map] at returned
  rw [kept] at returned
  exact returned

/-- A call in the last cell of memory, whose link is the address of the first, and a subroutine of
one addition and a return. -/
theorem call_returns_to_caller_at_top :
    let s := (((State.initial.jump 0xFFFF).store 0xFFFF 0x4801).store 1 0x1261).store 2 0xC1C0
    let m : Machine Tape := ⟨s, {}⟩
    m.state.running = true ∧ m.state.pc ≠ 0xFE00 ∧
      (m.state.memory.get m.state.pc).toNat / 4096 = 4 ∧
      (∀ k < 1, ¬ Word.WritesLink ((m.after (k + 1)).load (m.after (k + 1)).state.pc).1) ∧
      (m.after 2).state.reg 7 = 0 ∧ (m.after 3).state.pc = 0 ∧ (m.after 3).state.count = 3 := by
  intro s m
  have held (a : Word) : s.memory.get a =
      if 2 = a then 0xC1C0 else if 1 = a then 0x1261 else if 0xFFFF = a then 0x4801 else 0 := by
    simp [s, State.store, State.jump, State.initial, Memory.get_set]
  have first : m.state.memory.get 0xFFFF = 0x4801 := (held 0xFFFF).trans (by decide)
  have calls : (m.state.memory.get m.state.pc).toNat / 4096 = 4 := by
    rw [show m.state.pc = 0xFFFF from rfl, first]
    rfl
  let t := (s.advance.setReg 7 s.advance.pc).jump (reach s.advance.pc (1 : BitVec 11))
  have called : m.after 1 = ⟨t, {}⟩ := by
    rw [after_succ, step_of_get rfl rfl (by decide) first (i := .jsr 1) (by decide)]
    rfl
  have at_one : t.pc = 1 := by decide
  have second : t.memory.get 1 = 0x1261 := (held 1).trans (by decide)
  have others : ∀ k < 1,
      ¬ Word.WritesLink ((m.after (k + 1)).load (m.after (k + 1)).state.pc).1 := by
    intro k below
    obtain rfl := Nat.lt_one_iff.mp below
    rw [called, load_of_ne _ (by decide), at_one, second]
    unfold Word.WritesLink
    decide
  obtain ⟨_, _, linked, returns⟩ := call_returns_to_caller m rfl (by decide) calls 1 others
  let u := t.advance.assign 1 (t.advance.reg 1 + (1 : BitVec 5).signExtend 16)
  have added : m.after 2 = ⟨u, {}⟩ := by
    have stepped := step_of_get (m := ⟨t, ({} : Tape)⟩) rfl at_one (by decide) second
      (i := .add 1 1 (.immediate 1)) (by decide)
    rw [← step_after, called, stepped]
    rfl
  have at_two : u.pc = 2 := congrArg (· + 1) at_one
  have third : u.memory.get u.pc = 0xC1C0 := by
    rw [at_two]
    exact (held 2).trans (by decide)
  have wrapped : m.state.pc + 1 = 0 := by decide
  rw [added, wrapped] at linked returns
  have returned := returns (by rw [at_two]; decide) third
  refine ⟨rfl, by decide, calls, others, by rw [added]; exact linked, ?_, ?_⟩
  · rw [← step_after, added, returned]
  · rw [← step_after, added, returned]
    rfl

end Machine

end LittleComputer
