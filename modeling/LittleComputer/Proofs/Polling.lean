import LittleComputer.Proofs.Feeding
import LittleComputer.Proofs.LastResult
import LittleComputer.Proofs.Printing
import LittleComputer.Proofs.Resuming

/-! Waiting for a key in a loop. The program polls the keyboard until there is a key, takes it and
halts. It may wait for any number of steps, and a key that comes between two of them is found by the
next poll, wherever in the loop the program was. -/
namespace LittleComputer

/-- A byte is no negative number. -/
theorem Condition.ofWord_ofByte (c : UInt8) :
    ofWord (Word.ofByte c) = if c = 0 then zero else positive := by
  have zero_iff : Word.ofByte c = 0 ↔ c = 0 := by
    constructor
    · intro nothing
      rw [← Word.low_ofByte c, nothing]
      rfl
    · rintro rfl
      rfl
  have unsigned : (Word.ofByte c).msb = false := by simp [Word.ofByte, BitVec.msb_setWidth]
  simp only [ofWord, zero_iff, unsigned, Bool.false_eq_true, if_false]

namespace State

/-- The six words that wait for a key, take it and halt. -/
def pollingLoop : List Word := [0xA203, 0x07FE, 0xA002, 0xF025, 0xFE00, 0xFE02]

/-- The machine runs, and the program that waits for a key is in its place. -/
structure Polling (s : State) : Prop where
  running : s.running = true
  program : s.memory.words 0x3000 6 = pollingLoop

namespace Polling

variable {s t : State}

theorem gets (polling : s.Polling) :
    s.memory.get 0x3000 = 0xA203 ∧ s.memory.get 0x3001 = 0x07FE ∧ s.memory.get 0x3002 = 0xA002 ∧
      s.memory.get 0x3003 = 0xF025 ∧ s.memory.get 0x3004 = Machine.keyboardStatus ∧
      s.memory.get 0x3005 = Machine.keyboardData := by
  have program := polling.program
  simp only [Memory.words_succ, pollingLoop, List.cons.injEq] at program
  obtain ⟨first, second, third, fourth, status, data, _⟩ := program
  exact ⟨first, second, third, fourth, status, data⟩

theorem store (polling : s.Polling) {a : Word}
    (keyboard : a = Machine.keyboardStatus ∨ a = Machine.keyboardData) (w : Word) :
    (s.store a w).Polling where
  running := polling.running
  program := by
    rw [← polling.program]
    apply Memory.words_set_of_ne
    obtain rfl | rfl := keyboard
    · decide
    · decide

theorem of_same (polling : s.Polling) (running : t.running = s.running)
    (memory : t.memory = s.memory) : t.Polling where
  running := running.trans polling.running
  program := memory ▸ polling.program

theorem latch (polling : s.Polling) (found : Option Key) : (Machine.latch found s).Polling := by
  cases found with
  | none => exact polling.store (.inl rfl) 0
  | some key => exact (polling.store (.inl rfl) Machine.keyReady).store (.inr rfl) key.word

end Polling

end State

namespace Machine

theorem step_of_ldi {κ : Type} [Console κ] {m : Machine κ} (running : m.state.running = true)
    {a w pointer : Word} (here : m.state.pc = a) (elsewhere : a ≠ keyboardStatus)
    (held : m.state.memory.get a = w) {target : Reg} {offset : BitVec 9}
    (decodes : Instruction.decode w = .ldi target offset)
    (apart : reach (a + 1) offset ≠ keyboardStatus)
    (points : m.state.memory.get (reach (a + 1) offset) = pointer) :
    let loaded := (m.map (·.advance)).load pointer
    m.step = (.done, loaded.2.map (·.assign target loaded.1)) := by
  intro loaded
  subst here
  have found : (m.map (·.advance)).load (reach (m.map (·.advance)).state.pc offset) =
      (pointer, m.map (·.advance)) := by
    rw [← points]
    exact load_of_ne _ apart
  rw [step_of_get running rfl elsewhere held decodes]
  simp only [perform, found]
  rfl

variable {m : Machine Tape} {k : Nat}

theorem step_of_nil (polling : m.state.Polling) (here : m.state.pc = 0x3000)
    (nothing : m.console.keys = []) :
    m.step = (.done, m.map fun s => (s.advance.store keyboardStatus 0).assign 1 0) := by
  obtain ⟨first, _, _, _, status, _⟩ := polling.gets
  have decoded : Instruction.decode 0xA203 = .ldi 1 3 := by decide
  rw [step_of_ldi polling.running here (by decide) first decoded (by decide) status,
    load_of_poll_none (m.map (·.advance)) (Tape.poll_of_nil nothing)]
  rfl

theorem step_of_cons (polling : m.state.Polling) (here : m.state.pc = 0x3000) {c : UInt8}
    {cs : List UInt8} (more : m.console.keys = c :: cs) :
    m.step = (.done, ⟨((m.state.advance.store keyboardStatus keyReady).store keyboardData
      (Word.ofByte c)).assign 1 keyReady, { m.console with keys := cs }⟩) := by
  obtain ⟨first, _, _, _, status, _⟩ := polling.gets
  have decoded : Instruction.decode 0xA203 = .ldi 1 3 := by decide
  rw [step_of_ldi polling.running here (by decide) first decoded (by decide) status,
    load_of_poll_some (m.map (·.advance)) (Tape.poll_of_cons more)]
  rfl

/-- The branch back to the poll, which is taken unless the status was negative. -/
theorem step_of_branch (polling : m.state.Polling) (here : m.state.pc = 0x3001) :
    m.step = (.done,
      if m.state.meets 3 then m.map (·.advance.jump 0x3000) else m.map (·.advance)) := by
  obtain ⟨_, second, _⟩ := polling.gets
  have marks : (m.map (·.advance)).state.meets 3 = m.state.meets 3 := rfl
  have back : reach m.state.advance.pc (-2 : BitVec 9) = 0x3000 := by
    rw [show m.state.advance.pc = m.state.pc + 1 from rfl, here]
    decide
  rw [step_of_get polling.running here (by decide) second (i := .br 3 (-2)) (by decide), perform_br,
    marks]
  simp only [map, back]

theorem step_of_data (polling : m.state.Polling) (here : m.state.pc = 0x3002) :
    m.step = (.done, m.map fun s => s.advance.assign 0 (s.memory.get keyboardData)) := by
  obtain ⟨_, _, third, _, _, data⟩ := polling.gets
  have decoded : Instruction.decode 0xA002 = .ldi 0 2 := by decide
  rw [step_of_ldi polling.running here (by decide) third decoded (by decide) data,
    load_of_ne _ (by decide)]
  rfl

/-- Still without a key after so many steps, the machine is about to poll, or to go back to the
poll. -/
structure Waiting (k : Nat) (m : Machine Tape) : Prop where
  polling : m.state.Polling
  nothing : m.console.keys = []
  place : m.state.pc = 0x3000 ∧ k % 2 = 0 ∨
    (m.state.pc = 0x3001 ∧ m.state.cond = Condition.zero) ∧ k % 2 = 1

theorem step_of_vain (polling : m.state.Polling) (here : m.state.pc = 0x3001)
    (vain : m.state.cond = Condition.zero) : m.step = (.done, m.map (·.advance.jump 0x3000)) := by
  have taken : m.state.meets 3 = true := by
    rw [State.meets, vain]
    decide
  rw [step_of_branch polling here, if_pos taken]

theorem Waiting.step (waiting : m.Waiting k) :
    ∃ next, m.step = (.done, next) ∧ next.Waiting (k + 1) ∧ next.console = m.console := by
  obtain ⟨polling, nothing, ⟨here, even⟩ | ⟨⟨here, vain⟩, odd⟩⟩ := waiting
  · refine ⟨_, step_of_nil polling here nothing, ⟨?_, nothing, .inr ⟨⟨?_, rfl⟩, ?_⟩⟩, rfl⟩
    · have advanced : m.state.advance.Polling := polling.of_same rfl rfl
      exact (advanced.latch none).of_same rfl rfl
    · exact congrArg (· + 1) here
    · omega
  · refine ⟨_, step_of_vain polling here vain, ⟨?_, nothing, .inl ⟨rfl, ?_⟩⟩, rfl⟩
    · exact polling.of_same rfl rfl
    · omega

theorem Waiting.after (waiting : m.Waiting 0) (k : Nat) :
    ∃ last, m.Leads k last ∧ last.Waiting k ∧ last.console = m.console := by
  induction k with
  | zero => exact ⟨m, ⟨executes_zero m, rfl⟩, waiting, rfl⟩
  | succ k ih =>
    obtain ⟨middle, leads, still, untouched⟩ := ih
    obtain ⟨next, stepped, waits_on, same⟩ := still.step
    exact ⟨next, leads.trans (.of_step still.polling.running stepped), waits_on,
      same.trans untouched⟩

/-- The machine has taken the first of these keys and halted, and nothing else has come of its
console. -/
structure Received (console : Tape) (c : UInt8) (cs : List UInt8) (last : Machine Tape) :
    Prop where
  halted : last.state.running = false
  key : last.state.reg 0 = Word.ofByte c
  status : last.state.reg 1 = 0x8000
  sign : last.state.cond = if c = 0 then Condition.zero else Condition.positive
  status_cell : last.state.memory.get 0xFE00 = 0x8000
  data_cell : last.state.memory.get 0xFE02 = Word.ofByte c
  console : last.console =
    { console with
      keys := cs
      display := (console.display.write (Latin.lowBytes "HALT\n")).flush }

theorem leads_out (polling : m.state.Polling) (here : m.state.pc = 0x3001)
    (ready : m.state.cond = Condition.negative) :
    ∃ s, m.Leads 3 ⟨s, Console.flush (Console.write (Latin.lowBytes haltMessage) m.console)⟩ ∧
      s.running = false ∧ s.reg 0 = m.state.memory.get keyboardData ∧
      s.reg 1 = m.state.reg 1 ∧ s.cond = Condition.ofWord (m.state.memory.get keyboardData) ∧
      s.memory = m.state.memory := by
  have passed : m.step = (.done, m.map (·.advance)) := by
    have refused : ¬ m.state.meets 3 = true := by
      rw [State.meets, ready]
      decide
    rw [step_of_branch polling here, if_neg refused]
  let m₁ := m.map (·.advance)
  have polling₁ : m₁.state.Polling := polling.of_same rfl rfl
  have at_data : m₁.state.pc = 0x3002 := congrArg (· + 1) here
  have taken := step_of_data polling₁ at_data
  let m₂ := m₁.map fun s => s.advance.assign 0 (s.memory.get keyboardData)
  have polling₂ : m₂.state.Polling := polling₁.of_same rfl rfl
  have at_halt : m₂.state.pc = 0x3003 := congrArg (· + 1) at_data
  obtain ⟨_, _, _, fourth, _, _⟩ := polling₂.gets
  have halted := step_of_get_halt polling₂.running at_halt (by decide) fourth
  refine ⟨_, (Leads.of_step polling.running passed).trans
    ((Leads.of_step polling₁.running taken).trans (Leads.of_step polling₂.running halted)),
    rfl, ?_, ?_, rfl, rfl⟩
  · exact (Registers.get_set_of_ne _ _ (by decide)).trans (Registers.get_set_self ..)
  · exact (Registers.get_set_of_ne _ _ (by decide)).trans
      (Registers.get_set_of_ne _ _ (by decide))

theorem leads_received (polling : m.state.Polling) (here : m.state.pc = 0x3000) {c : UInt8}
    {cs : List UInt8} (more : m.console.keys = c :: cs) :
    ∃ last, m.Leads 4 last ∧ last.Received m.console c cs := by
  let s := ((m.state.advance.store keyboardStatus keyReady).store keyboardData
    (Word.ofByte c)).assign 1 keyReady
  let next : Machine Tape := ⟨s, { m.console with keys := cs }⟩
  have polled : m.step = (.done, next) := step_of_cons polling here more
  have goes_on : next.state.Polling := by
    have advanced : m.state.advance.Polling := polling.of_same rfl rfl
    exact (advanced.latch (some (.byte c))).of_same rfl rfl
  obtain ⟨t, leads, halted, key, status, sign, memory⟩ :=
    leads_out goes_on (congrArg (· + 1) here) rfl
  have data : next.state.memory.get keyboardData = Word.ofByte c := Memory.get_set_self ..
  rw [data] at key sign
  refine ⟨_, (Leads.of_step polling.running polled).trans leads, halted, key, ?_, ?_, ?_, ?_, rfl⟩
  · exact status.trans (Registers.get_set_self ..)
  · rw [sign, Condition.ofWord_ofByte]
  · rw [memory]
    exact (Memory.get_set_of_ne _ _ (by decide)).trans (Memory.get_set_self ..)
  · rw [memory]
    exact data

/-- A key that is fed between the poll and the branch is found by the next poll, a step later. -/
theorem Waiting.receives (waiting : m.Waiting k) (c : UInt8) (cs : List UInt8) :
    ∃ last, (m.feed (c :: cs)).Leads (if k % 2 = 0 then 4 else 5) last ∧
      last.Received m.console c cs := by
  let fed := m.feed (c :: cs)
  have polling : fed.state.Polling := waiting.polling
  have keys : fed.console.keys = c :: cs := congrArg (· ++ c :: cs) waiting.nothing
  obtain ⟨here, even⟩ | ⟨⟨here, vain⟩, odd⟩ := waiting.place
  · obtain ⟨last, leads, received⟩ := leads_received (m := fed) polling here keys
    rw [if_pos even]
    exact ⟨last, leads, { received with console := received.console }⟩
  · have back : fed.step = (.done, fed.map (·.advance.jump 0x3000)) :=
      step_of_vain polling here vain
    obtain ⟨last, leads, received⟩ := leads_received (m := fed.map (·.advance.jump 0x3000))
      (polling.of_same rfl rfl) rfl keys
    rw [if_neg (by omega)]
    exact ⟨last, (Leads.of_step polling.running back).trans leads,
      { received with console := received.console }⟩

/-- However many steps the program has waited, a key that is fed to it then is the one it takes,
once it has gone back to the poll. -/
theorem polling_takes_key (console : Tape) (k : Nat) (c : UInt8) (cs : List UInt8) :
    let memory := Memory.blank.place 0x3000 State.pollingLoop.toArray
    let m : Machine Tape := ⟨{ State.initial with memory }, { console with keys := [] }⟩
    let fed := (m.after k).feed (c :: cs)
    let more := if k % 2 = 0 then 4 else 5
    m.Executes k ∧ (m.after k).state.running = true ∧ (m.after k).console = m.console ∧
      ∃ last, fed.Leads more last ∧ last.Received console c cs ∧
        ∀ limit ≥ more, fed.run limit = (.done, last) := by
  intro memory m fed more
  have placed : m.state.Polling := by
    constructor
    · rfl
    · simp only [m, memory, Memory.words_succ, Memory.get_place, Memory.get_blank]
      decide
  have start : m.Waiting 0 := ⟨placed, rfl, .inl ⟨rfl, rfl⟩⟩
  obtain ⟨now, ⟨executed, rfl⟩, waiting, untouched⟩ := start.after k
  obtain ⟨last, leads, received⟩ := waiting.receives c cs
  rw [untouched] at received
  exact ⟨executed, waiting.polling.running, untouched, last, leads,
    { received with console := received.console },
    fun limit within => leads.run received.halted within⟩

end Machine

end LittleComputer
