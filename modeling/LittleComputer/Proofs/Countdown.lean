import LittleComputer.Console.Tape
import LittleComputer.Proofs.LastResult
import LittleComputer.Proofs.Printing

/-! Counting down. A loop of three instructions adds a number to one register and takes one from
another, and starts again as long as what is left there is positive. One round of it is a function
of the state, so the loop as a whole is an induction on the rounds to come, wherever in memory it
stands. -/
namespace LittleComputer

namespace Word

def adding (target source : Reg) (bits : BitVec 5) : Word := 1#4 ++ target ++ source ++ 1#1 ++ bits

def branching (marks : BitVec 3) (offset : BitVec 9) : Word := 0#4 ++ marks ++ offset

open BitVec

theorem fields_adding (target source : Reg) (bits : BitVec 5) :
    (adding target source bits).extractLsb' 12 4 = 1 ∧
      (adding target source bits).extractLsb' 9 3 = target ∧
      (adding target source bits).extractLsb' 6 3 = source ∧
      (adding target source bits).getLsbD 5 = true ∧
      (adding target source bits).extractLsb' 0 5 = bits := by
  unfold adding
  refine ⟨?_, ?_, ?_, ?_, ?_⟩
  · rw [extractLsb'_append_eq_of_le (by decide), extractLsb'_append_eq_of_le (by decide),
      extractLsb'_append_eq_of_le (by decide)]
    exact extractLsb'_append_eq_left
  · rw [extractLsb'_append_eq_of_le (by decide), extractLsb'_append_eq_of_le (by decide),
      extractLsb'_append_eq_of_le (by decide)]
    exact extractLsb'_append_eq_right
  · rw [extractLsb'_append_eq_of_le (by decide), extractLsb'_append_eq_of_le (by decide)]
    exact extractLsb'_append_eq_right
  · rw [getLsbD_append, if_neg (by decide), getLsbD_append]
    rfl
  · exact extractLsb'_append_eq_right

theorem fields_branching (marks : BitVec 3) (offset : BitVec 9) :
    (branching marks offset).extractLsb' 12 4 = 0 ∧
      (branching marks offset).extractLsb' 9 3 = marks ∧
      (branching marks offset).extractLsb' 0 9 = offset := by
  unfold branching
  refine ⟨?_, ?_, ?_⟩
  · rw [extractLsb'_append_eq_of_le (by decide)]
    exact extractLsb'_append_eq_left
  · rw [extractLsb'_append_eq_of_le (by decide)]
    exact extractLsb'_append_eq_right
  · exact extractLsb'_append_eq_right

end Word

namespace Instruction

theorem decode_adding (target source : Reg) (bits : BitVec 5) :
    decode (Word.adding target source bits) = .add target source (.immediate bits) := by
  obtain ⟨code, first, second, immediate, operand⟩ := Word.fields_adding target source bits
  have op : Opcode.ofWord (Word.adding target source bits) = .add := by
    rw [Opcode.ofWord, code]
    rfl
  simp only [decode, op, ofFields, targetField, first, baseField, second, operandField, immediate,
    operand, if_true]

theorem decode_branching (marks : BitVec 3) (offset : BitVec 9) :
    decode (Word.branching marks offset) = .br marks offset := by
  obtain ⟨code, field, distance⟩ := Word.fields_branching marks offset
  have op : Opcode.ofWord (Word.branching marks offset) = .br := by
    rw [Opcode.ofWord, code]
    rfl
  simp only [decode, op, ofFields, field, distance]

end Instruction

/-- Once two registers have been set, what they were set to before makes no difference. -/
theorem Registers.set_pair_twice (rs : Registers) (i j : Reg) (v w x y : Word) :
    (((rs.set i v).set j w).set i x).set j y = (rs.set i x).set j y := by
  apply Registers.ext_get
  intro r
  simp only [Registers.get_set]
  split <;> try rfl
  split <;> rfl

theorem Word.pred_pos_iff (w : Word) : 0 < (w - 1).toInt ↔ 2 ≤ w.toNat ∧ w.toNat ≤ 0x8000 := by
  have size := w.isLt
  rw [BitVec.toInt_eq_toNat_cond, BitVec.toNat_sub]
  have one : (1 : Word).toNat = 1 := rfl
  split <;> omega

namespace State

/-- One round of the loop, which adds to register `i` and counts down in register `j`. -/
def round (i j : Reg) (number : BitVec 5) (s : State) : State :=
  let s' := (s.assign i (s.reg i + number.signExtend 16)).assign j (s.reg j - 1)
  { s' with pc := if 0 < (s.reg j - 1).toInt then s.pc else s.pc + 3, count := s.count + 3 }

/-- The state behind the loop when it has been left after so many rounds with this word in its
counter. -/
def leave (i j : Reg) (number : BitVec 5) (rounds : Nat) (counter : Word) (s : State) : State :=
  { s with
    registers := (s.registers.set i (s.reg i + Word.ofInt (number.toInt * rounds))).set j counter
    pc := s.pc + 3
    cond := Condition.ofWord counter
    count := s.count + 3 * rounds }

variable {i j : Reg} {number : BitVec 5} {s : State}

theorem round_of_not_pos (last : ¬ 0 < (s.reg j - 1).toInt) :
    s.round i j number = s.leave i j number 1 (s.reg j - 1) := by
  have once : number.signExtend 16 = Word.ofInt (number.toInt * (1 : Nat)) := by
    rw [Int.natCast_one, Int.mul_one]
    rfl
  simp only [round, leave, if_neg last, once]
  rfl

theorem leave_round (apart : i ≠ j) (goes_on : 0 < (s.reg j - 1).toInt) (rounds : Nat)
    (counter : Word) :
    (s.round i j number).leave i j number rounds counter =
      s.leave i j number (rounds + 1) counter := by
  have grown : s.reg i + number.signExtend 16 + Word.ofInt (number.toInt * rounds) =
      s.reg i + Word.ofInt (number.toInt * (rounds + 1 : Nat)) := by
    have total : number.toInt * (rounds + 1 : Nat) = number.toInt + number.toInt * rounds := by
      rw [Int.natCast_succ, Int.mul_add, Int.mul_one, Int.add_comm]
    rw [BitVec.add_assoc, total, Word.ofInt, Word.ofInt, BitVec.ofInt_add]
    rfl
  have held : (s.round i j number).reg i = s.reg i + number.signExtend 16 := by
    simp only [round]
    exact (Registers.get_set_of_ne _ _ apart.symm).trans (Registers.get_set_self ..)
  have counted : s.count + 3 + 3 * rounds = s.count + 3 * (rounds + 1) := by omega
  simp only [leave, held, grown]
  simp only [round, if_pos goes_on, counted]
  simp only [assign, Registers.set_pair_twice]

end State

namespace Machine

variable {κ : Type} {m : Machine κ} {i j : Reg} {number : BitVec 5}

/-- The machine runs at the start of the loop: an addition to register `i`, one of -1 to register
`j`, and a branch back to the first if the result was positive. None of the three words is fetched
from the keyboard's status. -/
structure CountsDown (m : Machine κ) (i j : Reg) (number : BitVec 5) : Prop where
  running : m.state.running = true
  program : m.state.memory.words m.state.pc 3 =
    [Word.adding i i number, Word.adding j j (-1), Word.branching 1 (-3)]
  elsewhere : ∀ d < 3, m.state.pc + BitVec.ofNat 16 d ≠ 0xFE00

theorem CountsDown.round (loop : m.CountsDown i j number)
    (goes_on : 0 < (m.state.reg j - 1).toInt) :
    (m.map (·.round i j number)).CountsDown i j number := by
  have here : (m.map (·.round i j number)).state.pc = m.state.pc := if_pos goes_on
  constructor
  · exact loop.running
  · rw [here]
    exact loop.program
  · rw [here]
    exact loop.elsewhere

variable [Console κ]

theorem step_of_adding (running : m.state.running = true) (elsewhere : m.state.pc ≠ keyboardStatus)
    {target source : Reg} {bits : BitVec 5}
    (held : m.state.memory.get m.state.pc = Word.adding target source bits) :
    m.step = (.done,
      m.map (·.advance.assign target (m.state.reg source + bits.signExtend 16))) := by
  rw [step_of_get running rfl elsewhere held (Instruction.decode_adding ..)]
  rfl

theorem meets_positive_iff {s : State} {w : Word} (described : s.cond = Condition.ofWord w) :
    s.meets 1 = true ↔ 0 < w.toInt := by
  rw [Condition.ofWord_eq_ofSign] at described
  rw [State.meets_of_sign described]
  unfold Condition.selects
  split
  · next below => exact iff_of_false nofun (by omega)
  · next above =>
    split
    · next nothing => exact iff_of_false nofun (by omega)
    · next something => exact iff_of_true rfl (by omega)

theorem step_of_branching (running : m.state.running = true)
    (elsewhere : m.state.pc ≠ keyboardStatus) {offset : BitVec 9}
    (held : m.state.memory.get m.state.pc = Word.branching 1 offset) {w : Word}
    (described : m.state.cond = Condition.ofWord w) :
    m.step = (.done, m.map fun s =>
      if 0 < w.toInt then s.advance.jump (reach (s.pc + 1) offset) else s.advance) := by
  have positive : (m.map (·.advance)).state.meets 1 = true ↔ 0 < w.toInt :=
    meets_positive_iff described
  rw [step_of_get running rfl elsewhere held (Instruction.decode_branching ..), perform_br]
  by_cases goes_on : 0 < w.toInt
  · rw [if_pos (positive.mpr goes_on)]
    simp only [map, if_pos goes_on]
    rfl
  · rw [if_neg (mt positive.mp goes_on)]
    simp only [map, if_neg goes_on]

theorem reach_back (a : Word) : reach (a + 3) (-3 : BitVec 9) = a := by
  rw [reach, BitVec.add_assoc]
  exact BitVec.add_zero _

/-- The machines between the instructions of a round. -/
theorem steps_of_round (apart : i ≠ j) (loop : m.CountsDown i j number) :
    ∃ m₁ m₂, m.step = (.done, m₁) ∧ m₁.step = (.done, m₂) ∧
      m₂.step = (.done, m.map (·.round i j number)) ∧
      m₁.state.running = true ∧ m₂.state.running = true ∧
      m₁.state.pc = m.state.pc + 1 ∧ m₂.state.pc = m.state.pc + 1 + 1 := by
  obtain ⟨running, program, elsewhere⟩ := loop
  simp only [Memory.words_succ, List.cons.injEq] at program
  obtain ⟨adds, counts, branches, _⟩ := program
  have at_first : m.state.pc ≠ keyboardStatus := by
    have start := elsewhere 0 (by omega)
    rwa [BitVec.add_zero] at start
  have at_second : m.state.pc + 1 ≠ keyboardStatus := elsewhere 1 (by omega)
  have at_third : m.state.pc + 1 + 1 ≠ keyboardStatus := by
    rw [BitVec.add_assoc]
    exact elsewhere 2 (by omega)
  have added := step_of_adding running at_first adds
  let m₁ := m.map (·.advance.assign i (m.state.reg i + number.signExtend 16))
  let m₂ := m₁.map (·.advance.assign j (m.state.reg j - 1))
  have counted : m₁.step = (.done, m₂) := by
    have untouched : m₁.state.reg j = m.state.reg j := Registers.get_set_of_ne _ _ apart
    have less : m.state.reg j + (-1 : BitVec 5).signExtend 16 = m.state.reg j - 1 := by
      rw [BitVec.sub_eq_add_neg]
      rfl
    rw [step_of_adding (m := m₁) running at_second counts, untouched, less]
  have past : m.state.pc + 1 + 1 + 1 = m.state.pc + 3 := by
    rw [BitVec.add_assoc, BitVec.add_assoc]
    rfl
  have branched : m₂.step = (.done, m.map (·.round i j number)) := by
    rw [step_of_branching (m := m₂) running at_third branches (w := m.state.reg j - 1) rfl]
    by_cases goes_on : 0 < (m.state.reg j - 1).toInt
    · simp only [m₂, m₁, map, State.advance, State.assign, State.jump, past, reach_back,
        State.round, if_pos goes_on]
    · simp only [m₂, m₁, map, State.advance, State.assign, past, State.round, if_neg goes_on]
  exact ⟨m₁, m₂, added, counted, branched, running, running, rfl, rfl⟩

theorem leads_round (apart : i ≠ j) (loop : m.CountsDown i j number) :
    m.Leads 3 (m.map (·.round i j number)) ∧
      ∀ n < 3, (m.after n).state.pc ≠ m.state.pc + 3 := by
  obtain ⟨m₁, m₂, added, counted, branched, running₁, running₂, second, third⟩ :=
    steps_of_round apart loop
  refine ⟨(Leads.of_step loop.running added).trans
    ((Leads.of_step running₁ counted).trans (Leads.of_step running₂ branched)), ?_⟩
  intro n below
  have ahead : (m.after n).state.pc = m.state.pc + BitVec.ofNat 16 n := by
    obtain rfl | rfl | rfl : n = 0 ∨ n = 1 ∨ n = 2 := by omega
    · exact (BitVec.add_zero _).symm
    · rw [after_succ, added]
      exact second
    · rw [after_succ, added, after_succ, counted]
      exact third.trans (BitVec.add_assoc ..)
  rw [ahead, Ne, BitVec.add_right_inj, ← BitVec.toNat_inj, BitVec.toNat_ofNat]
  change n % 65536 ≠ 3
  omega

/-- Each round but the last leaves a smaller positive number behind it, and the loop as it was. The
greatest number of rounds is that of a counter which is negative before the first of them. -/
theorem leads_leave (apart : i ≠ j) (loop : m.CountsDown i j number) {k : Nat}
    (counter : (m.state.reg j).toNat = k) (pos : 1 ≤ k) (bound : k ≤ 0x8000) :
    m.Leads (3 * k) (m.map (·.leave i j number k 0)) ∧
      ∀ n < 3 * k, (m.after n).state.pc ≠ m.state.pc + 3 := by
  induction k, pos using Nat.le_induction generalizing m with
  | base =>
    obtain ⟨leads, inside⟩ := leads_round apart loop
    have one : m.state.reg j = 1 := BitVec.eq_of_toNat_eq counter
    have stops : ¬ 0 < (m.state.reg j - 1).toInt := by
      rw [one]
      decide
    rw [map, State.round_of_not_pos stops, one] at leads
    exact ⟨leads, inside⟩
  | succ k pos ih =>
    obtain ⟨leads, inside⟩ := leads_round apart loop
    have positive : 0 < (m.state.reg j - 1).toInt := by
      rw [Word.pred_pos_iff, counter]
      exact ⟨Nat.succ_le_succ pos, bound⟩
    let next := m.map (·.round i j number)
    have fewer : (next.state.reg j).toNat = k := by
      have held : next.state.reg j = m.state.reg j - 1 := Registers.get_set_self ..
      have one : (1 : Word).toNat = 1 := rfl
      rw [held, BitVec.toNat_sub]
      omega
    have here : next.state.pc = m.state.pc := if_pos positive
    obtain ⟨remaining, outside⟩ := ih (loop.round positive) fewer (Nat.le_of_succ_le bound)
    have total : 3 * (k + 1) = 3 + 3 * k := by omega
    rw [total]
    constructor
    · have joined := leads.trans remaining
      simp only [map, State.leave_round apart positive] at joined
      exact joined
    · apply forall_after_add (P := fun n => n.state.pc ≠ m.state.pc + 3) inside
      rw [leads.after_eq]
      rw [here] at outside
      exact outside

/-- The loop goes round as often as its counter says, up to half the number of words; with any other
counter, which is zero or stays negative, it goes round once. Nothing but the two registers, the
condition code, the program counter and the instruction count is changed by it. -/
theorem countdown_leaves (m : Machine κ) (i j : Reg) (number : BitVec 5) (apart : i ≠ j)
    (loop : m.CountsDown i j number) :
    let k := (m.state.reg j).toNat
    (1 ≤ k ∧ k ≤ 0x8000 →
      m.Leads (3 * k) (m.map (·.leave i j number k 0)) ∧
        ∀ n < 3 * k, (m.after n).state.pc ≠ m.state.pc + 3) ∧
    (k = 0 ∨ 0x8000 < k →
      m.Leads 3 (m.map (·.leave i j number 1 (m.state.reg j - 1))) ∧
        ∀ n < 3, (m.after n).state.pc ≠ m.state.pc + 3) := by
  intro k
  constructor
  · rintro ⟨pos, bound⟩
    exact leads_leave apart loop rfl pos bound
  · intro outside
    have stops : ¬ 0 < (m.state.reg j - 1).toInt := by
      rw [Word.pred_pos_iff]
      omega
    obtain ⟨leads, inside⟩ := leads_round apart loop
    rw [map, State.round_of_not_pos stops] at leads
    exact ⟨leads, inside⟩

/-- A loop that lies across the top of memory, with the counter for the most rounds there can be. -/
theorem countdown_leaves_across_top :
    let s := ((State.initial.jump 0xFFFE).setReg 5 0x8000).store 0xFFFE 0x16F1
    let m : Machine Tape := ⟨(s.store 0xFFFF 0x1B7F).store 0 0x03FD, {}⟩
    let last := m.after 98304
    m.CountsDown 3 5 (-15) ∧ last.state.pc = 1 ∧ last.state.reg 3 = 0x8000 ∧
      last.state.reg 5 = 0 ∧ last.state.count = 98304 ∧ ∀ n < 98304, (m.after n).state.pc ≠ 1 := by
  intro s m last
  have held (a : Word) : m.state.memory.get a =
      if 0 = a then 0x03FD else if 0xFFFF = a then 0x1B7F else if 0xFFFE = a then 0x16F1
      else 0 := by
    simp [m, s, State.store, State.jump, State.setReg, State.initial, Memory.get_set]
  have loop : m.CountsDown 3 5 (-15) := by
    constructor
    · rfl
    · simp only [Memory.words_succ, held]
      decide
    · decide
  have counter : (m.state.reg 5).toNat = 0x8000 := by decide
  obtain ⟨often, _⟩ := countdown_leaves m 3 5 (-15) (by decide) loop
  rw [counter] at often
  obtain ⟨leads, inside⟩ := often (by decide)
  have behind : m.state.pc + 3 = 1 := by decide
  rw [behind] at inside
  have reached : last = m.map (·.leave 3 5 (-15) 0x8000 0) := leads.after_eq
  rw [reached]
  refine ⟨loop, ?_, ?_, ?_, ?_, inside⟩
  · decide
  · decide
  · decide
  · decide

end Machine

end LittleComputer
