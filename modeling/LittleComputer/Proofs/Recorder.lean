import LittleComputer.Proofs.Simulation

/-! A console that notes what is asked of it. It answers as the console inside it, so a machine
makes the same steps on it, and what it notes of a step is decided by the step's exchange. -/
namespace LittleComputer

inductive Event where
  | polled (found : Option Key)
  | awaited (answer : Answer)
  | wrote (bytes : List UInt8)
  | flushed
  | reported (notice : Notice)
  deriving DecidableEq, Repr

namespace Event

def isRequest : Event → Bool
  | .polled _ | .awaited _ => true
  | _ => false

end Event

structure Recorder (κ : Type) where
  console : κ
  events : List Event := []

namespace Recorder

def note (r : Recorder κ) (event : Event) (console : κ) : Recorder κ :=
  ⟨console, r.events ++ [event]⟩

variable {κ : Type} [Console κ]

instance : Console (Recorder κ) where
  poll r :=
    let (found, console) := Console.poll r.console
    (found, r.note (.polled found) console)
  read r :=
    let (answer, console) := Console.read r.console
    (answer, r.note (.awaited answer) console)
  write bytes r := r.note (.wrote bytes) (Console.write bytes r.console)
  flush r := r.note .flushed (Console.flush r.console)
  report notice r := r.note (.reported notice) (Console.report notice r.console)

theorem simulation :
    Simulation (fun (r : Recorder κ) (c : κ) => r.console = c) fun _ _ => True where
  poll := by
    rintro r _ rfl _
    exact ⟨rfl, rfl⟩
  read := by
    rintro r _ rfl _
    exact ⟨rfl, rfl⟩
  say := by
    rintro r _ bytes rfl
    rfl
  allowed_say _ _ := trivial

end Recorder

namespace Machine

def record (m : Machine κ) : Machine (Recorder κ) := ⟨m.state, ⟨m.console, []⟩⟩

def erase (m : Machine (Recorder κ)) : Machine κ := ⟨m.state, m.console.console⟩

variable {κ : Type} [Console κ]

/-- What a step asks of the console, in order. -/
def events (m : Machine κ) : List Event := m.record.step.2.console.events

/-- What a step asks of the keyboard, in order. -/
def requests (m : Machine κ) : List Event := m.events.filter Event.isRequest

theorem step_record (m : Machine κ) :
    m.record.step.1 = m.step.1 ∧ m.record.step.2.erase = m.step.2 := by
  have related : Related (fun (r : Recorder κ) (c : κ) => r.console = c) m.record m := ⟨rfl, rfl⟩
  obtain ⟨same, stepped⟩ := Recorder.simulation.step related fun _ _ => trivial
  refine ⟨same, ?_⟩
  unfold erase
  rw [stepped.state, stepped.console]

end Machine

namespace Exchange

variable {κ : Type} [Console κ]

def eventsOf (said : Option (List UInt8)) : List Event :=
  match said with
  | some bytes => [.wrote bytes, .flushed]
  | none => []

def events (e : Exchange) (console : κ) : List Event :=
  match e with
  | .quiet _ _ said => eventsOf said
  | .poll _ => [.polled (Console.poll console).1]
  | .await _ prompted =>
    let answer := (Console.read (say (promptOf prompted) console)).1
    eventsOf (promptOf prompted) ++ .awaited answer ::
      match answer with
      | .key k => eventsOf (echoOf prompted k)
      | _ => []

theorem say_recorder (said : Option (List UInt8)) (console : κ) (earlier : List Event) :
    say said (Recorder.mk console earlier) =
      ⟨say said console, earlier ++ eventsOf said⟩ := by
  cases said with
  | none => simp [say, eventsOf]
  | some bytes => simp [say, eventsOf, Console.write, Console.flush, Recorder.note]

theorem events_play (e : Exchange) (console : κ) (earlier : List Event) :
    (e.play (Recorder.mk console earlier)).2.console.events = earlier ++ e.events console := by
  cases e with
  | quiet outcome state said => exact congrArg Recorder.events (say_recorder said console earlier)
  | poll result => rfl
  | await state prompted =>
    simp only [play, events, say_recorder]
    generalize promptOf prompted = prompt
    have noted : Console.read (Recorder.mk (say prompt console) (earlier ++ eventsOf prompt)) =
        ((Console.read (say prompt console)).1,
          ⟨(Console.read (say prompt console)).2, (earlier ++ eventsOf prompt) ++
            [.awaited (Console.read (say prompt console)).1]⟩) := rfl
    rw [noted]
    cases (Console.read (say prompt console)).1 with
    | key k =>
      dsimp only
      rw [say_recorder]
      simp
    | interrupted => simp
    | never => simp

end Exchange

namespace Machine

variable {κ : Type} [Console κ]

theorem events_eq (m : Machine κ) : m.events = (Exchange.ofState m.state).events m.console := by
  have played := Exchange.events_play (Exchange.ofState m.state) m.console []
  have step := Exchange.play_ofState m.record
  unfold events
  rw [← step]
  exact played

theorem requests_eq (m : Machine κ) :
    m.requests =
      match Exchange.ofState m.state with
      | .quiet .. => []
      | .poll _ => [.polled (Console.poll m.console).1]
      | .await _ prompted =>
        [.awaited (Console.read (Exchange.say (Exchange.promptOf prompted) m.console)).1] := by
  unfold requests
  rw [events_eq]
  cases Exchange.ofState m.state with
  | quiet outcome state said => cases said <;> rfl
  | poll result => rfl
  | await state prompted =>
    cases prompted with
    | false =>
      simp only [Exchange.events]
      cases (Console.read (Exchange.say _ m.console)).1 <;> rfl
    | true =>
      simp only [Exchange.events]
      cases (Console.read (Exchange.say _ m.console)).1 <;> rfl

theorem requests_eq_nil_iff (m : Machine κ) :
    m.requests = [] ↔ (Exchange.ofState m.state).ask = none := by
  rw [requests_eq]
  cases Exchange.ofState m.state <;> simp [Exchange.ask]

theorem polled_mem_requests_iff (m : Machine κ) (found : Option Key) :
    .polled found ∈ m.requests ↔
      (Exchange.ofState m.state).ask = some .poll ∧ found = (Console.poll m.console).1 := by
  rw [requests_eq]
  cases Exchange.ofState m.state <;> simp [Exchange.ask]

theorem requests_length_le_one (m : Machine κ) : m.requests.length ≤ 1 := by
  rw [requests_eq]
  cases Exchange.ofState m.state <;> simp

end Machine

end LittleComputer
