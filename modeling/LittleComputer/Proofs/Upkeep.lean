import LittleComputer.Proofs.Recorder

/-! What the steps of a machine keep up of its console. A property that outlasts whatever a step can
ask of a console holds after each step of a machine that starts with it, and also in the middle of a
step, when the machine waits for a key. -/
namespace LittleComputer

variable {κ : Type} [Console κ]

/-- A property of a console that no poll, no wait for a key and nothing that is said takes away. -/
structure Upkeep (A : κ → Prop) : Prop where
  poll {c} : A c → A (Console.poll c).2
  read {c} : A c → A (Console.read c).2
  say {c} (bytes : List UInt8) : A c → A (Console.flush (Console.write bytes c))

namespace Upkeep

open Machine

variable {A : κ → Prop} (upkeep : Upkeep A)

include upkeep

theorem optionally_say {c : κ} (holds : A c) (said : Option (List UInt8)) :
    A (Exchange.say said c) := by
  cases said with
  | none => exact holds
  | some bytes => exact upkeep.say bytes holds

theorem play {c : κ} (holds : A c) (e : Exchange) : A (e.play c).2.console := by
  cases e with
  | quiet outcome state said => exact upkeep.optionally_say holds said
  | poll result => exact upkeep.poll holds
  | await state prompted =>
    have answered := upkeep.read (upkeep.optionally_say holds (Exchange.promptOf prompted))
    simp only [Exchange.play]
    generalize Console.read (Exchange.say (Exchange.promptOf prompted) c) = reply at answered
    rcases reply with ⟨k | _ | _, console⟩
    · exact upkeep.optionally_say answered _
    · exact answered
    · exact answered

theorem step {m : Machine κ} (holds : A m.console) : A m.step.2.console := by
  rw [← Exchange.play_ofState]
  exact upkeep.play holds _

theorem after {m : Machine κ} (holds : A m.console) (n : Nat) : A (m.after n).console := by
  induction n generalizing m with
  | zero => exact holds
  | succ n ih => exact ih (upkeep.step holds)

end Upkeep

/-- A console that keeps how it stood whenever a key was waited for. -/
structure Watcher (κ : Type) where
  console : κ
  waits : List κ := []

instance : Console (Watcher κ) where
  poll w :=
    let (found, console) := Console.poll w.console
    (found, { w with console })
  read w :=
    let (answer, console) := Console.read w.console
    (answer, ⟨console, w.waits ++ [w.console]⟩)
  write bytes w := { w with console := Console.write bytes w.console }
  flush w := { w with console := Console.flush w.console }
  report notice w := { w with console := Console.report notice w.console }

theorem Exchange.say_watcher (said : Option (List UInt8)) (console : κ) (waits : List κ) :
    say said (Watcher.mk console waits) = ⟨say said console, waits⟩ := by
  cases said <;> rfl

namespace Machine

/-- The console as it stands whenever the next step waits for a key. -/
def waits (m : Machine κ) : List κ :=
  (step ⟨m.state, (⟨m.console, []⟩ : Watcher κ)⟩).2.console.waits

theorem waits_eq (m : Machine κ) :
    m.waits =
      match Exchange.ofState m.state with
      | .await _ prompted => [Exchange.say (Exchange.promptOf prompted) m.console]
      | _ => [] := by
  unfold waits
  rw [← Exchange.play_ofState]
  dsimp only
  cases Exchange.ofState m.state with
  | quiet outcome state said => exact congrArg Watcher.waits (Exchange.say_watcher said m.console [])
  | poll result => rfl
  | await state prompted =>
    simp only [Exchange.play, Exchange.say_watcher]
    generalize Exchange.say (Exchange.promptOf prompted) m.console = console
    have kept : Console.read (Watcher.mk console []) =
        ((Console.read console).1, ⟨(Console.read console).2, [console]⟩) := rfl
    rw [kept]
    cases (Console.read console).1 with
    | key k => exact congrArg Watcher.waits (Exchange.say_watcher ..)
    | interrupted => rfl
    | never => rfl

/-- A wait is seen whenever a key is requested by one. -/
theorem waits_ne_nil_iff (m : Machine κ) :
    m.waits ≠ [] ↔ ∃ answer, .awaited answer ∈ m.requests := by
  rw [waits_eq, requests_eq]
  cases Exchange.ofState m.state <;> simp

end Machine

theorem Upkeep.waits {A : κ → Prop} (upkeep : Upkeep A) {m : Machine κ} (holds : A m.console) {c : κ}
    (waiting : c ∈ m.waits) : A c := by
  rw [Machine.waits_eq] at waiting
  cases exchange : Exchange.ofState m.state with
  | quiet outcome state said =>
    rw [exchange] at waiting
    cases waiting
  | poll result =>
    rw [exchange] at waiting
    cases waiting
  | await state prompted =>
    rw [exchange] at waiting
    obtain rfl := List.mem_singleton.mp waiting
    exact upkeep.optionally_say holds _

end LittleComputer
