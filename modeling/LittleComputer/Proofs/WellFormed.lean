import LittleComputer.Machine.Load
import LittleComputer.Machine.Panel
import LittleComputer.Machine.Step

/-! The condition code is always that of some word. Only an assignment and `State.describe`
write it, so all else keeps it because it leaves it alone. -/
namespace LittleComputer

namespace State

def meets (s : State) (mask : BitVec 3) : Bool := mask.setWidth 16 &&& s.cond ≠ 0

/-- Of the three branches with a single mark, exactly one is taken. -/
theorem WellFormed.meets_one {s : State} (valid : s.WellFormed) :
    ([4, 2, 1].filter s.meets).length = 1 := by
  unfold meets
  rcases valid with code | code | code <;> rw [code] <;> decide

theorem WellFormed.of_cond {s t : State} (valid : s.WellFormed) (same : t.cond = s.cond) :
    t.WellFormed := by
  unfold WellFormed
  rw [same]
  exact valid

theorem wellFormed_describe {s t : State} {number : Int} (described : s.describe number = .ok t) :
    t.WellFormed := by
  unfold describe at described
  cases examined : s.examineRegister number with
  | error e => simp [examined, Except.map] at described
  | ok w =>
    have : { s with cond := Condition.ofWord w } = t := by
      simpa [examined, Except.map] using described
    subst this
    exact Condition.ofWord_cases w

theorem wellFormed_setRegister {s : State} (valid : s.WellFormed) {number : Int} (value : Int)
    (apart : number ≠ condNumber) : (s.setRegister number value).WellFormed := by
  unfold setRegister
  by_cases general : 0 ≤ number ∧ number < 8
  · rw [if_pos general]
    exact valid
  · by_cases counter : number = pcNumber
    · rw [if_neg general, if_pos counter]
      exact valid
    · rw [if_neg general, if_neg counter, if_neg apart]
      exact valid

theorem wellFormed_deposit {s : State} (valid : s.WellFormed) (number value : Int) :
    (s.deposit number value).2.WellFormed := by
  unfold deposit
  split <;> exact valid

end State

namespace Machine

variable {κ : Type} [Console κ]

theorem state_pollKeyboard (m : Machine κ) :
    m.pollKeyboard.state = { m.state with memory := m.pollKeyboard.state.memory } := by
  unfold pollKeyboard
  rcases Console.poll m.console with ⟨_ | key, console⟩ <;> rfl

theorem state_load (m : Machine κ) (a : Word) :
    (m.load a).2.state = { m.state with memory := (m.load a).2.state.memory } := by
  by_cases status : a = keyboardStatus
  · subst status
    exact state_pollKeyboard m
  · rw [load_of_ne m status]

theorem wellFormed_load {m : Machine κ} (valid : m.state.WellFormed) (a : Word) :
    (m.load a).2.state.WellFormed := by
  rw [state_load]
  exact valid

theorem perform_br (m : Machine κ) (mask : BitVec 3) (offset : BitVec 9) :
    m.perform (.br mask offset) =
      (.done, if m.state.meets mask then m.map fun s => s.jump (reach s.pc offset) else m) := by
  by_cases zero : mask.setWidth 16 &&& m.state.cond = 0
  · simp [perform, map, State.meets, zero]
  · have taken : m.state.meets mask = true := decide_eq_true zero
    rw [if_pos taken]
    simp only [perform, map, if_neg zero]

theorem wellFormed_awaitKey {m : Machine κ} (valid : m.state.WellFormed)
    {next : Key → Machine κ → Machine κ}
    (assigns : ∀ key m, (next key m).state.WellFormed) :
    (m.awaitKey next).2.state.WellFormed := by
  unfold awaitKey
  split
  · exact assigns _ _
  · exact valid
  · exact valid

theorem wellFormed_putText {m : Machine κ} (valid : m.state.WellFormed)
    (bytesOf : Word → List UInt8) : (m.putText bytesOf).2.state.WellFormed := by
  unfold putText
  split <;> exact valid

theorem wellFormed_serve {m : Machine κ} (valid : m.state.WellFormed) (service : Service) :
    (m.serve service).2.state.WellFormed := by
  cases service with
  | getc => exact wellFormed_awaitKey valid fun key m => State.wellFormed_assign m.state 0 key.word
  | out => exact valid
  | puts => exact wellFormed_putText valid _
  | prompt =>
    apply wellFormed_awaitKey
    · exact valid
    · exact fun key m => State.wellFormed_assign m.state 0 key.word
  | putsp => exact wellFormed_putText valid _
  | halt => exact valid

theorem wellFormed_perform {m : Machine κ} (valid : m.state.WellFormed) (i : Instruction) :
    (m.perform i).2.state.WellFormed := by
  cases i with
  | br mask offset =>
    rw [perform_br]
    dsimp only
    split <;> exact valid
  | add target source operand => exact State.wellFormed_assign ..
  | ld target offset => exact State.wellFormed_assign ..
  | st source offset => exact valid
  | jsr offset => exact valid
  | jsrr base => exact valid
  | and target source operand => exact State.wellFormed_assign ..
  | ldr target base offset => exact State.wellFormed_assign ..
  | str source base offset => exact valid
  | not target source => exact State.wellFormed_assign ..
  | ldi target offset => exact State.wellFormed_assign ..
  | sti source offset => exact wellFormed_load valid (reach m.state.pc offset)
  | jmp base => exact valid
  | lea target offset => exact State.wellFormed_assign ..
  | trap vector =>
    have linked : (m.map fun s => s.setReg 7 s.pc).state.WellFormed := valid
    simp only [perform, trap]
    split
    · exact wellFormed_serve linked _
    · exact linked
  | reserved word => exact valid

theorem wellFormed_step {m : Machine κ} (valid : m.state.WellFormed) :
    m.step.2.state.WellFormed := by
  unfold step
  split
  · have fetched : ((m.load m.state.pc).2.map (·.advance)).state.WellFormed :=
      wellFormed_load valid m.state.pc
    exact wellFormed_perform fetched _
  · exact valid

theorem wellFormed_run {m : Machine κ} (valid : m.state.WellFormed) (limit : Nat) :
    (m.run limit).2.state.WellFormed := by
  induction limit generalizing m with
  | zero => exact valid
  | succ limit ih =>
    have stepped := wellFormed_step valid
    unfold run
    split
    · split
      · next m' result =>
        rw [result] at stepped
        exact ih stepped
      · exact stepped
    · exact valid

theorem wellFormed_examine {m : Machine κ} (valid : m.state.WellFormed) (number : Int) :
    (m.examine number).2.state.WellFormed := by
  have polled : m.pollKeyboard.state.WellFormed := by
    rw [state_pollKeyboard]
    exact valid
  unfold examine
  by_cases status : number = keyboardStatus.toNat
  · rw [if_pos status]
    split <;> exact polled
  · rw [if_neg status]
    split <;> exact valid

theorem state_place (m : Machine κ) (name : String) (image : Image) :
    (m.place name image).state =
      { m.state with memory := m.state.memory.place image.origin image.words } := by
  unfold place
  split <;> rfl

theorem console_place (m : Machine κ) (name : String) (image : Image) :
    (m.place name image).console =
      if image.dropped > 0 ∧ m.state.warn then
        Console.report (.error (image.truncationWarning name)) m.console
      else m.console := by
  unfold place
  by_cases dropped : image.dropped > 0 ∧ m.state.warn
  · simp only [if_pos dropped, map, report]
  · simp only [if_neg dropped, map]

theorem wellFormed_loadImage {m : Machine κ} (valid : m.state.WellFormed) (files : Files)
    (name : String) : (m.loadImage files name).2.state.WellFormed := by
  unfold loadImage
  split
  · rw [state_place]
    exact valid.of_cond rfl
  · exact valid

end Machine

end LittleComputer
