import LittleComputer.Proofs.WellFormed

/-! A machine handled from outside in any way and for any length of time: by its own operations,
by instructions carried out without being fetched, by the front panel, by the loader, and by
whatever happens to its console. An operation that fails counts for what it did before. -/
namespace LittleComputer

inductive Operation (κ : Type) where
  | reset
  | step
  | run (limit : Nat)
  /-- Carries out an operation code on the fields of a word that need not have that code. -/
  | handle (op : Opcode) (word : Int)
  | setPc (value : Int)
  | movePc (distance : Int)
  | setRegister (number value : Int) (apart : number ≠ State.condNumber)
  | describe (number : Int)
  | examine (number : Int)
  | deposit (number value : Int)
  | loadImage (name : String) (contents : Except FileError (Array UInt8))
  | console (change : κ → κ)

/-- What can be relied on about the numbers that a machine holds. -/
structure Sound (s : State) : Prop where
  size : s.memory.cells.toList.length = 65536
  cells : ∀ w ∈ s.memory.cells.toList, w.toNat < 65536
  registers : ∀ number : Int, 0 ≤ number → number ≤ 9 →
    ∃ w, s.examineRegister number = .ok w ∧ w.toNat < 65536
  condition : s.cond.toNat = 1 ∨ s.cond.toNat = 2 ∨ s.cond.toNat = 4
  branches : ([4, 2, 1].filter s.meets).length = 1

theorem State.examineRegister_exists (s : State) {number : Int} (first : 0 ≤ number)
    (last : number ≤ 9) : ∃ w, s.examineRegister number = .ok w := by
  have cases : 0 ≤ number ∧ number < 8 ∨ number = pcNumber ∨ number = condNumber := by
    unfold pcNumber condNumber
    omega
  unfold examineRegister register?
  rcases cases with general | rfl | rfl
  · exact ⟨_, by rw [if_pos general]⟩
  · exact ⟨s.pc, rfl⟩
  · exact ⟨s.cond, rfl⟩

theorem State.WellFormed.sound {s : State} (valid : s.WellFormed) : Sound s where
  size := s.memory.cells.size_toArray
  cells w _ := w.isLt
  registers number first last := by
    obtain ⟨w, examined⟩ := s.examineRegister_exists first last
    exact ⟨w, examined, w.isLt⟩
  condition := by rcases valid with code | code | code <;> rw [code] <;> decide
  branches := valid.meets_one

namespace Machine

variable {κ : Type} [Console κ]

def apply (m : Machine κ) : Operation κ → Machine κ
  | .reset => m.reset
  | .step => m.step.2
  | .run limit => (m.run limit).2
  | .handle op word => (m.perform (.ofFields op (Word.ofInt word))).2
  | .setPc value => m.map (·.setPc value)
  | .movePc distance => m.map (·.movePc distance)
  | .setRegister number value _ => m.map (·.setRegister number value)
  | .describe number =>
    match m.state.describe number with
    | .ok s => { m with state := s }
    | .error _ => m
  | .examine number => (m.examine number).2
  | .deposit number value => { m with state := (m.state.deposit number value).2 }
  | .loadImage name contents => (m.loadImage (fun _ => contents) name).2
  | .console change => { m with console := change m.console }

def applyAll (m : Machine κ) (operations : List (Operation κ)) : Machine κ :=
  operations.foldl apply m

theorem wellFormed_apply {m : Machine κ} (valid : m.state.WellFormed) (operation : Operation κ) :
    (m.apply operation).state.WellFormed := by
  cases operation with
  | reset => exact State.wellFormed_initial
  | step => exact wellFormed_step valid
  | run limit => exact wellFormed_run valid limit
  | handle op word => exact wellFormed_perform valid _
  | setPc value => exact valid
  | movePc distance => exact valid
  | setRegister number value apart => exact State.wellFormed_setRegister valid value apart
  | describe number =>
    simp only [apply]
    split
    · next described => exact State.wellFormed_describe described
    · exact valid
  | examine number => exact wellFormed_examine valid number
  | deposit number value => exact State.wellFormed_deposit valid number value
  | loadImage name contents => exact wellFormed_loadImage valid _ name
  | console change => exact valid

theorem wellFormed_applyAll {m : Machine κ} (valid : m.state.WellFormed)
    (operations : List (Operation κ)) : (m.applyAll operations).state.WellFormed := by
  induction operations generalizing m with
  | nil => exact valid
  | cons operation rest ih => exact ih (wellFormed_apply valid operation)

/-- However a new machine is handled, its registers and cells hold words and its condition code
is that of a result. -/
theorem sound_applyAll_start (console : κ) (operations : List (Operation κ)) :
    Sound ((start console).applyAll operations).state :=
  (wellFormed_applyAll State.wellFormed_initial operations).sound

end Machine

end LittleComputer
