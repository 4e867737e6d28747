import LittleComputer.Machine.Program
import LittleComputer.Proofs.Exchange
import LittleComputer.Proofs.Runs
import LittleComputer.Proofs.WellFormed

/-! Machines of one program on two consoles. As long as the consoles answer alike, the machines
go through equal states, because a step knows of its console only what it is answered. -/
namespace LittleComputer

theorem paired {S : β → γ → Prop} {x : α × β} {y : α × γ} (same : x.1 = y.1)
    (related : S x.2 y.2) : ∃ result b c, x = (result, b) ∧ y = (result, c) ∧ S b c :=
  ⟨x.1, x.2, y.2, rfl, Prod.ext same.symm rfl, related⟩

variable {κ κ' : Type} [Console κ] [Console κ']

/-- Related consoles answer alike what they may be asked, and stay related. -/
structure Simulation (R : κ → κ' → Prop) (allowed : Ask → κ → Prop) : Prop where
  poll {c d} : R c d → allowed .poll c →
    (Console.poll c).1 = (Console.poll d).1 ∧ R (Console.poll c).2 (Console.poll d).2
  read {c d} : R c d → allowed .key c →
    (Console.read c).1 = (Console.read d).1 ∧ R (Console.read c).2 (Console.read d).2
  say {c d} (bytes : List UInt8) : R c d →
    R (Console.flush (Console.write bytes c)) (Console.flush (Console.write bytes d))
  allowed_say {c} (bytes : List UInt8) : allowed .key c →
    allowed .key (Console.flush (Console.write bytes c))

structure Machine.Related (R : κ → κ' → Prop) (m : Machine κ) (n : Machine κ') : Prop where
  state : m.state = n.state
  console : R m.console n.console

namespace Machine

/-- What the next step asks of the keyboard, if anything, is allowed. -/
def Obeys (allowed : Ask → κ → Prop) (m : Machine κ) : Prop :=
  ∀ ask, (Exchange.ofState m.state).ask = some ask → allowed ask m.console

/-- Whatever a run with this limit asks of the keyboard is allowed. -/
def RunObeys (allowed : Ask → κ → Prop) (limit : Nat) (m : Machine κ) : Prop :=
  ∀ k < limit, m.Executes k → (m.after k).Obeys allowed

theorem RunObeys.head {allowed : Ask → κ → Prop} {limit : Nat} {m : Machine κ}
    (obeys : m.RunObeys allowed (limit + 1)) : m.Obeys allowed :=
  obeys 0 (Nat.succ_pos limit) (executes_zero m)

theorem RunObeys.tail {allowed : Ask → κ → Prop} {limit : Nat} {m : Machine κ}
    (obeys : m.RunObeys allowed (limit + 1)) (running : m.state.running = true)
    (completed : m.step.1 = .done) : m.step.2.RunObeys allowed limit :=
  fun k below executed =>
    obeys (k + 1) (Nat.succ_lt_succ below) (executes_succ running completed executed)

theorem runObeys_true (limit : Nat) (m : Machine κ) : m.RunObeys (fun _ _ => True) limit :=
  fun _ _ _ _ _ => trivial

end Machine

namespace Simulation

open Machine

variable {R : κ → κ' → Prop} {allowed : Ask → κ → Prop}

theorem optionally_say (sim : Simulation R allowed) {c : κ} {d : κ'} (related : R c d)
    (said : Option (List UInt8)) : R (Exchange.say said c) (Exchange.say said d) := by
  cases said with
  | none => exact related
  | some bytes => exact sim.say bytes related

theorem play (sim : Simulation R allowed) {c : κ} {d : κ'} (related : R c d) (e : Exchange)
    (asked : ∀ ask, e.ask = some ask → allowed ask c) :
    (e.play c).1 = (e.play d).1 ∧ Related R (e.play c).2 (e.play d).2 := by
  cases e with
  | quiet outcome state said => exact ⟨rfl, rfl, sim.optionally_say related said⟩
  | poll result =>
    obtain ⟨same, polled⟩ := sim.poll related (asked .poll rfl)
    refine ⟨?_, ?_, polled⟩
    · exact congrArg (fun found => (result found).1) same
    · exact congrArg (fun found => (result found).2) same
  | await state prompted =>
    have prompted_related := sim.optionally_say related (Exchange.promptOf prompted)
    have still_allowed : allowed .key (Exchange.say (Exchange.promptOf prompted) c) := by
      cases prompted with
      | false => exact asked .key rfl
      | true => exact sim.allowed_say _ (asked .key rfl)
    obtain ⟨same, answered⟩ := sim.read prompted_related still_allowed
    obtain ⟨answer, c', d', left, right, answered⟩ := paired same answered
    simp only [Exchange.play]
    rw [left, right]
    cases answer with
    | key k => exact ⟨rfl, rfl, sim.optionally_say answered _⟩
    | interrupted => exact ⟨rfl, rfl, answered⟩
    | never => exact ⟨rfl, rfl, answered⟩

theorem step (sim : Simulation R allowed) {m : Machine κ} {n : Machine κ'} (related : Related R m n)
    (obeys : m.Obeys allowed) : m.step.1 = n.step.1 ∧ Related R m.step.2 n.step.2 := by
  have played := sim.play related.console (Exchange.ofState m.state) obeys
  rw [Exchange.play_ofState, related.state, Exchange.play_ofState] at played
  exact played

theorem after (sim : Simulation R allowed) {m : Machine κ} {n : Machine κ'}
    (related : Related R m n) (count : Nat) (obeys : ∀ k < count, (m.after k).Obeys allowed) :
    Related R (m.after count) (n.after count) := by
  induction count with
  | zero => exact related
  | succ count ih =>
    have earlier := ih fun k below => obeys k (Nat.lt_succ_of_lt below)
    obtain ⟨_, stepped⟩ := sim.step earlier (obeys count (Nat.lt_succ_self count))
    rw [step_after, step_after] at stepped
    exact stepped

theorem run (sim : Simulation R allowed) {m : Machine κ} {n : Machine κ'} (related : Related R m n)
    (limit : Nat) (obeys : m.RunObeys allowed limit) :
    (m.run limit).1 = (n.run limit).1 ∧ Related R (m.run limit).2 (n.run limit).2 := by
  induction limit generalizing m n with
  | zero =>
    unfold Machine.run
    rw [related.state]
    exact ⟨rfl, related⟩
  | succ limit ih =>
    by_cases running : m.state.running = true
    · have alive : n.state.running = true := by rw [← related.state, running]
      obtain ⟨same, stepped⟩ := sim.step related obeys.head
      by_cases completed : m.step.1 = .done
      · rw [run_succ_of_done running completed, run_succ_of_done alive (same ▸ completed)]
        exact ih stepped (obeys.tail running completed)
      · rw [run_succ_of_stopped running completed, run_succ_of_stopped alive (same ▸ completed)]
        exact ⟨same, stepped⟩
    · have halted : m.state.running = false := Bool.eq_false_iff.mpr running
      rw [run_of_halted m halted, run_of_halted n (related.state ▸ halted)]
      exact ⟨rfl, related⟩

end Simulation

section Loading

variable {R : κ → κ' → Prop} {allowed : Ask → κ → Prop}
  (reports : ∀ {c d} text, R c d →
    R (Console.report (.error text) c) (Console.report (.error text) d))

include reports

namespace Machine.Related

theorem place {m : Machine κ} {n : Machine κ'} (related : Related R m n) (name : String)
    (image : Image) :
    Related R (m.place name image) (n.place name image) := by
  constructor
  · rw [state_place, state_place, related.state]
  · rw [console_place, console_place, related.state]
    split
    · exact reports _ related.console
    · exact related.console

theorem loadImages {m : Machine κ} {n : Machine κ'} (related : Related R m n) (files : Files)
    (names : List String) :
    (m.loadImages files names).1 = (n.loadImages files names).1 ∧
      Related R (m.loadImages files names).2 (n.loadImages files names).2 := by
  induction names generalizing m n with
  | nil => exact ⟨rfl, related⟩
  | cons name rest ih =>
    unfold Machine.loadImages Machine.loadImage
    cases Image.ofFile files name with
    | ok image => exact ih (place reports related name image)
    | error e => exact ⟨rfl, related⟩

end Machine.Related

theorem Simulation.runProgram (sim : Simulation R allowed) {m : Machine κ} {n : Machine κ'}
    (related : Machine.Related R m n) (files : Files) (names : List String) (limit : Nat)
    (obeys : ∀ loaded, m.loadImages files names = (none, loaded) → loaded.RunObeys allowed limit) :
    (m.runProgram files names limit).1 = (n.runProgram files names limit).1 ∧
      Machine.Related R (m.runProgram files names limit).2
        (n.runProgram files names limit).2 := by
  obtain ⟨same, loaded⟩ := Machine.Related.loadImages reports related files names
  obtain ⟨failure, m', n', left, right, loaded⟩ := paired same loaded
  unfold Machine.runProgram
  rw [left, right]
  cases failure with
  | some failure => exact ⟨rfl, loaded⟩
  | none =>
    obtain ⟨ended, ran⟩ := sim.run loaded limit (obeys m' left)
    refine ⟨?_, ran⟩
    dsimp only
    rw [ended, ran.state]

end Loading

end LittleComputer
