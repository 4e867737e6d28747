import LittleComputer.Console.Tape
import LittleComputer.Proofs.Effect
import LittleComputer.Proofs.Loading

/-! The condition code over a whole run. It is a memory of one number, the last result: whatever
happened since that result was written, the code is still that of its sign, and a branch goes by
it. -/
namespace LittleComputer

namespace Condition

def ofSign (v : Int) : Word := if v < 0 then negative else if v = 0 then zero else positive

/-- Whether a branch with these marks, for negative, zero and positive from the left, goes by the
sign of a number. -/
def selects (mask : BitVec 3) (v : Int) : Bool :=
  if v < 0 then mask.getLsbD 2 else if v = 0 then mask.getLsbD 1 else mask.getLsbD 0

theorem ofWord_eq_ofSign (w : Word) : ofWord w = ofSign w.toInt := by
  unfold ofSign
  by_cases nothing : w = 0
  · subst nothing
    exact (ofWord_eq_zero_iff 0).mpr rfl
  · have other : w.toInt ≠ 0 := fun zero => nothing (BitVec.eq_of_toInt_eq zero)
    by_cases below : w.toInt < 0
    · rw [if_pos below, ofWord_eq_negative_iff]
      exact below
    · rw [if_neg below, if_neg other]
      obtain positive | zero | negative := ofWord_cases w
      · exact positive
      · exact absurd ((ofWord_eq_zero_iff w).mp zero) nothing
      · exact absurd ((ofWord_eq_negative_iff w).mp negative) below

end Condition

theorem State.meets_of_sign {s : State} {v : Int} (described : s.cond = Condition.ofSign v)
    (mask : BitVec 3) : s.meets mask = Condition.selects mask v := by
  unfold meets Condition.selects
  rw [described, Condition.ofSign]
  by_cases below : v < 0
  · rw [if_pos below, if_pos below]
    revert mask
    decide
  · rw [if_neg below, if_neg below]
    by_cases nothing : v = 0
    · rw [if_pos nothing, if_pos nothing]
      revert mask
      decide
    · rw [if_neg nothing, if_neg nothing]
      revert mask
      decide

namespace Word

/-- The register that a word gives its result to when it is executed, told by its operation code and,
in a trap, by its low byte: nine operations have one, two of them traps that wait for a key. -/
def target? (w : Word) : Option Reg :=
  if w.code ∈ [1, 2, 5, 6, 9, 10, 14] then some w.reg9
  else if w.code = 15 ∧ w.toNat % 256 ∈ [0x20, 0x23] then some 0
  else none

/-- Whether the word of a branch has a mark for the sign of a number, of which those for negative,
zero and positive stand in bits 11, 10 and 9. -/
def selects (w : Word) (v : Int) : Bool :=
  if v < 0 then w.getLsbD 11 else if v = 0 then w.getLsbD 10 else w.getLsbD 9

theorem selects_marks (w : Word) (v : Int) :
    Condition.selects (w.extractLsb' 9 3) v = w.selects v := by
  simp [Condition.selects, selects]

end Word

namespace Instruction

theorem target?_decode (w : Word) : (decode w).target? = w.target? := by
  have low (vector : BitVec 8) : w.extractLsb' 0 8 = vector ↔ w.toNat % 256 = vector.toNat := by
    rw [← BitVec.toNat_inj, BitVec.extractLsb'_toNat, Nat.shiftRight_zero]
  unfold decode ofFields Word.target?
  rw [← Opcode.number_ofWord_eq_code, ← targetField_eq_reg9]
  cases Opcode.ofWord w with
  | trap =>
    simp only [target?, low, Opcode.number]
    simp [Service.vector]
  | jsr => cases w.getLsbD 11 <;> rfl
  | _ => rfl

theorem decode_of_code_zero {w : Word} (code : w.code = 0) :
    decode w = .br (w.extractLsb' 9 3) (w.extractLsb' 0 9) := by
  rw [← Opcode.number_ofWord_eq_code] at code
  cases op : Opcode.ofWord w with
  | br => rw [decode, op, ofFields]
  | _ => simp [op, Opcode.number] at code

end Instruction

namespace Machine

variable {κ : Type} [Console κ]

/-- The result of the next step: what the target of its word holds once the step has completed. -/
def result? (m : Machine κ) : Option Word :=
  if m.state.running = true ∧ m.step.1 = .done then
    m.word.target?.map m.step.2.state.reg
  else none

def results : Nat → Machine κ → List Word
  | 0, _ => []
  | n + 1, m => m.result?.toList ++ results n m.step.2

theorem cond_step (m : Machine κ) :
    m.step.2.state.cond = m.result?.elim m.state.cond Condition.ofWord := by
  by_cases running : m.state.running = true
  · have described := (effect_step running).cond
    rw [show m.instruction.target? = m.word.target? from Instruction.target?_decode _] at described
    rw [described]
    unfold result?
    by_cases completed : m.step.1 = .done
    · rw [if_pos completed, if_pos ⟨running, completed⟩]
      cases m.word.target? <;> rfl
    · rw [if_neg completed, if_neg fun h => completed h.2]
      rfl
  · have halted : m.state.running = false := Bool.eq_false_iff.mpr running
    simp [result?, halted, step_of_halted m halted]

/-- Only a word with a target that has completed can change the condition code. -/
theorem cond_step_of_no_result {m : Machine κ}
    (idle : m.word.target? = none ∨ m.step.1 ≠ .done) : m.step.2.state.cond = m.state.cond := by
  have nothing : m.result? = none := by
    unfold result?
    obtain targetless | incomplete := idle
    · simp [targetless]
    · simp [incomplete]
  rw [cond_step, nothing, Option.elim_none]

theorem cond_after (n : Nat) (m : Machine κ) :
    (m.after n).state.cond = (m.results n).getLast?.elim m.state.cond Condition.ofWord := by
  induction n generalizing m with
  | zero => rfl
  | succ n ih =>
    rw [after_succ, ih, cond_step, results, List.getLast?_append]
    cases (m.step.2.results n).getLast? with
    | some w => rfl
    | none => cases m.result? <;> rfl

theorem pc_step_of_branch {m : Machine κ} (running : m.state.running = true)
    (branches : m.word.code = 0) {v : Int} (described : m.state.cond = Condition.ofSign v) :
    m.step.2.state.pc =
      if m.word.selects v then m.state.pc + 1 + m.word.offset9 else m.state.pc + 1 := by
  have fetches : m.instruction = .br (m.word.extractLsb' 9 3) (m.word.extractLsb' 0 9) :=
    Instruction.decode_of_code_zero branches
  have advanced := state_fetched m
  have pc : m.fetched.state.pc = m.state.pc + 1 := by rw [advanced]; rfl
  have marks (mask : BitVec 3) : m.fetched.state.meets mask = m.state.meets mask := by
    rw [advanced]
    rfl
  rw [step_eq_perform running, fetches, perform_br, marks, State.meets_of_sign described,
    Word.selects_marks, ← Instruction.reach_offset9]
  dsimp only
  split
  · rw [← pc]
    rfl
  · exact pc

/-- However long a program has run, the condition code is that of the last result, or that of zero
if there was none, and a branch goes by the sign of that result. -/
theorem cond_describes_last_result (console : κ) (files : Files) (names : List String) (n : Nat) :
    let m := ((start console).loadImages files names).2
    let last := (m.results n).getLast?.map BitVec.toInt
    let now := m.after n
    now.state.cond = last.elim Condition.zero Condition.ofSign ∧
    (now.word.target? = none ∨ now.step.1 ≠ .done →
      (m.after (n + 1)).state.cond = now.state.cond) ∧
    (now.state.running = true → now.word.code = 0 →
      (m.after (n + 1)).state.pc =
        if now.word.selects (last.getD 0) then now.state.pc + 1 + now.word.offset9
        else now.state.pc + 1) ∧
    ∀ limit, ∃ steps ≤ limit, (m.run limit).2 = m.after steps := by
  intro m last now
  have fresh : m.state.cond = Condition.zero := by
    rw [show m.state = _ from state_loadImages ..]
    rfl
  have sign : now.state.cond = Condition.ofSign (last.getD 0) := by
    rw [cond_after, fresh]
    cases found : (m.results n).getLast? with
    | none => simp [last, found, Condition.ofSign]
    | some w => simp [last, found, Condition.ofWord_eq_ofSign]
  refine ⟨?_, ?_, ?_, ?_⟩
  · rw [sign]
    cases last with
    | none => rfl
    | some v => rfl
  · intro idle
    rw [← step_after]
    exact cond_step_of_no_result idle
  · intro running branches
    rw [← step_after]
    exact pc_step_of_branch running branches sign
  · intro limit
    obtain ⟨steps, bound, ran, _⟩ := run_eq_after limit m
    exact ⟨steps, bound, ran⟩

/-- A difference below zero, and a branch that goes by it. -/
theorem cond_describes_last_result_of_difference :
    let files : Files := fun _ => .ok #[0x30, 0x00, 0x10, 0x3F, 0x08, 0x01]
    let m := ((start ({} : Tape)).loadImages files ["down.obj"]).2
    m.results 1 = [0xFFFF] ∧ (m.after 1).state.cond = 4 ∧ (m.after 2).state.pc = 0x3003 := by
  intro files
  have read : Image.ofFile files "down.obj" = .ok ⟨0x3000, #[0x103F, 0x0801]⟩ :=
    Image.ofFile_eq_ok_iff.mpr ⟨_, rfl, by decide⟩
  have loaded : ((start ({} : Tape)).loadImages files ["down.obj"]).2.state =
      { State.initial with memory := Memory.blank.place 0x3000 #[0x103F, 0x0801] } := by
    rw [loadImages_of_ok _ read, loadImages, state_place]
    rfl
  have first (m : Machine Tape) (begun : m.state =
      { State.initial with memory := Memory.blank.place 0x3000 #[0x103F, 0x0801] }) :
      m.results 1 = [0xFFFF] ∧ (m.after 1).state.running = true ∧
        (m.after 1).state.pc = 0x3001 ∧ (m.after 1).word = 0x0801 := by
    have running : m.state.running = true := by rw [begun]; rfl
    have pc : m.state.pc = 0x3000 := by rw [begun]; rfl
    have cleared : m.state.reg 0 = 0 := by
      rw [State.reg, begun]
      exact Registers.get_cleared 0
    have held : m.state.memory.get 0x3000 = 0x103F := by
      rw [begun, Memory.get_place]
      rfl
    have next : m.state.memory.get 0x3001 = 0x0801 := by
      rw [begun, Memory.get_place]
      rfl
    have word : m.word = 0x103F := (word_of_ne (by rw [pc]; decide)).trans (by rw [pc, held])
    have target : Word.target? 0x103F = some 0 := by decide
    have decodes : Instruction.decode 0x103F = .add 0 0 (.immediate (-1)) := by decide
    have step : m.step = (.done, m.map fun s => s.advance.assign 0 0xFFFF) := by
      have sum : m.state.advance.reg 0 + (-1 : BitVec 5).signExtend 16 = 0xFFFF := by
        rw [State.reg_advance, cleared]
        decide
      rw [step_of_get running pc (by decide) held decodes]
      exact congrArg (fun w => (Outcome.done, m.map fun s => s.advance.assign 0 w)) sum
    have moved : (m.after 1).state.pc = 0x3001 := by
      rw [after_succ, step]
      exact congrArg (· + 1) pc
    refine ⟨?_, ?_, moved, ?_⟩
    · rw [Machine.results, result?, step, if_pos ⟨running, rfl⟩, word, target]
      simp [map, Machine.results]
    · rw [after_succ, step]
      exact running
    · rw [word_of_ne (by rw [moved]; decide), moved, after_succ, step]
      exact next
  obtain ⟨results, running, pc, word⟩ := first _ loaded
  obtain ⟨cond, _, branch, _⟩ := cond_describes_last_result ({} : Tape) files ["down.obj"] 1
  rw [results] at cond branch
  refine ⟨results, cond, ?_⟩
  rw [branch running (by rw [word]; decide), word, pc]
  decide

end Machine

end LittleComputer
