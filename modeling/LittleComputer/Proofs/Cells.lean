import LittleComputer.Proofs.Simulation
import LittleComputer.Session

/-! Cells of a session do not see each other. Nothing is pending when a cell ends, so what resetting
leaves of an earlier cell is the notices that it has given, and no machine can read those. -/
namespace LittleComputer

namespace Notebook

/-- The notebook as it would be if some notices had been given earlier. -/
def behind (earlier : Array Notice) (nb : Notebook) : Notebook :=
  { nb with notices := earlier ++ nb.notices }

variable (earlier : Array Notice) (nb : Notebook)

theorem report_behind (notice : Notice) :
    Console.report notice (nb.behind earlier) = (Console.report notice nb).behind earlier := by
  simp [Console.report, behind]

theorem write_behind (bytes : List UInt8) :
    Console.write bytes (nb.behind earlier) = (Console.write bytes nb).behind earlier := rfl

theorem flush_behind : (nb.behind earlier).flush = nb.flush.behind earlier := by
  unfold flush
  by_cases empty : nb.pending.isEmpty = true
  · rw [if_pos empty, if_pos (show (nb.behind earlier).pending.isEmpty = true from empty)]
  · rw [if_neg empty, if_neg (show ¬ (nb.behind earlier).pending.isEmpty = true from empty)]
    simp [behind]

theorem poll_behind : (nb.behind earlier).poll = (nb.poll.1, nb.poll.2.behind earlier) := by
  rcases nb with ⟨_ | ⟨b, rest⟩, pending, lines, notices⟩ <;> rfl

theorem ask_behind : (nb.behind earlier).ask = (nb.ask.1, nb.ask.2.behind earlier) := by
  rcases nb with ⟨queue, pending, _ | ⟨_ | line, rest⟩, notices⟩ <;> simp [ask, behind]

theorem read_behind : (nb.behind earlier).read = (nb.read.1, nb.read.2.behind earlier) := by
  unfold read
  cases queue : nb.queue with
  | cons b rest =>
    rw [show (nb.behind earlier).queue = b :: rest from queue]
    rfl
  | nil =>
    rw [show (nb.behind earlier).queue = [] from queue, flush_behind, ask_behind]
    rcases nb.flush.ask with ⟨_ | _ | ⟨b, rest⟩, asked⟩ <;> rfl

theorem pending_poll : nb.poll.2.pending = nb.pending := by
  rcases nb with ⟨_ | ⟨b, rest⟩, pending, lines, notices⟩ <;> rfl

theorem pending_ask : nb.ask.2.pending = nb.pending := by
  rcases nb with ⟨queue, pending, _ | ⟨_ | line, rest⟩, notices⟩ <;> rfl

theorem pending_read (nothing : nb.pending = #[]) : nb.read.2.pending = #[] := by
  unfold read
  cases nb.queue with
  | cons b rest => exact nothing
  | nil =>
    have asked : nb.flush.ask.2.pending = #[] := (pending_ask nb.flush).trans (pending_flush nb)
    generalize nb.flush.ask = answer at asked
    rcases answer with ⟨_ | _ | ⟨b, rest⟩, after⟩ <;> exact asked

/-- The second notebook is the first with earlier notices, and nothing is pending on either. -/
def Trails (c d : Notebook) : Prop := c.pending = #[] ∧ d = c.behind earlier

theorem simulation_trails : Simulation (Trails earlier) fun _ _ => True where
  poll := by
    rintro c _ ⟨nothing, rfl⟩ _
    have polled := poll_behind earlier c
    refine ⟨(congrArg Prod.fst polled).symm, ?_, congrArg Prod.snd polled⟩
    exact (pending_poll c).trans nothing
  read := by
    rintro c _ ⟨nothing, rfl⟩ _
    have answered := read_behind earlier c
    refine ⟨(congrArg Prod.fst answered).symm, ?_, congrArg Prod.snd answered⟩
    exact pending_read c nothing
  say := by
    rintro c _ bytes ⟨_, rfl⟩
    constructor
    · exact pending_flush _
    · rw [write_behind]
      exact flush_behind earlier _
  allowed_say _ _ := trivial

theorem Trails.report {c d : Notebook} (notice : Notice) (trails : Trails earlier c d) :
    Trails earlier (Console.report notice c) (Console.report notice d) := by
  obtain ⟨nothing, rfl⟩ := trails
  exact ⟨nothing, report_behind earlier c notice⟩

theorem Trails.flush {c d : Notebook} (trails : Trails earlier c d) :
    Trails earlier c.flush d.flush := by
  obtain ⟨_, rfl⟩ := trails
  exact ⟨pending_flush c, flush_behind earlier c⟩

theorem Trails.nothing_pending {c d : Notebook} (trails : Trails earlier c d) :
    d.pending = #[] := by
  obtain ⟨nothing, rfl⟩ := trails
  exact nothing

end Notebook

namespace Session

open Machine Notebook

variable {earlier : Array Notice} {s t : Session}

/-- Resetting makes a session of which nothing is pending the same as a new one, apart from its
notices. -/
theorem related_prepare (nothing : s.console.pending = #[]) (lines : List (Option String)) :
    Related (Trails s.console.notices) (prepare (start.withLines lines))
      (prepare (s.withLines lines)) := by
  refine ⟨rfl, rfl, ?_⟩
  have kept : s.console.notices ++ #[] = s.console.notices := by simp
  simp only [prepare, withLines, behind, start, Machine.start, nothing, kept]

theorem related_conclude (related : Related (Trails earlier) s t) (verdict : Verdict) :
    (conclude s verdict).1 = (conclude t verdict).1 ∧
      Related (Trails earlier) (conclude s verdict).2 (conclude t verdict).2 := by
  obtain ⟨same, trails⟩ := related
  cases verdict with
  | completed =>
    refine ⟨rfl, same, ?_⟩
    simp only [conclude, same]
    exact trails.report earlier _
  | notLoaded name cause => exact ⟨rfl, same, trails.report earlier _⟩
  | faulted address f => exact ⟨rfl, same, (trails.flush earlier).report earlier _⟩
  | interrupted => exact ⟨rfl, same, (trails.flush earlier).report earlier _⟩

theorem related_runImages (nothing : s.console.pending = #[]) (lines : List (Option String))
    (files : Files) (names : List String) (limit : Nat) :
    ((start.withLines lines).runImages files names limit).1 =
        ((s.withLines lines).runImages files names limit).1 ∧
      Related (Trails s.console.notices) ((start.withLines lines).runImages files names limit).2
        ((s.withLines lines).runImages files names limit).2 := by
  have prepared := related_prepare nothing lines
  obtain ⟨same, ran⟩ := Simulation.runProgram (fun text trails => trails.report _ (.error text))
    (simulation_trails s.console.notices) prepared files names limit
    fun loaded _ => runObeys_true limit loaded
  have concluded := related_conclude ran
    ((prepare (start.withLines lines)).runProgram files names limit).1
  unfold runImages
  dsimp only
  rw [← same]
  exact concluded

end Session

/-- A cell with everything that its run depends on besides the session. -/
structure Visit where
  cell : Cell
  files : Files
  /-- The lines that the user will type. -/
  lines : List (Option String)
  limit : Nat

namespace Visit

open Machine Notebook

def run (v : Visit) (s : Session) : Option Bool × Session :=
  v.cell.run (s.withLines v.lines) v.files v.limit

def session (visits : List Visit) : Session :=
  visits.foldl (fun s v => (v.run s).2) Session.start

def log (v : Visit) (s : Session) : List Notice :=
  Notice.log ((v.run s).2.console.notices.toList.drop s.console.notices.size)

theorem run_of_names (v : Visit) (s : Session) (named : v.cell.names ≠ []) :
    v.run s =
      let ran := (s.withLines v.lines).runImages v.files v.cell.names v.limit
      (match v.cell with | .images _ => some ran.1 | _ => none, ran.2) := by
  rcases v with ⟨cell, files, lines, limit⟩
  cases cell with
  | code text =>
    cases names : Blank.words text with
    | nil => exact absurd names named
    | cons name rest => simp [run, Cell.run, Cell.names, names]
  | file name => rfl
  | images names => rfl

theorem related_run (v : Visit) {s : Session} (nothing : s.console.pending = #[])
    (named : v.cell.names ≠ []) :
    (v.run Session.start).1 = (v.run s).1 ∧
      Related (Trails s.console.notices) (v.run Session.start).2 (v.run s).2 := by
  obtain ⟨same, ran⟩ :=
    Session.related_runImages nothing v.lines v.files v.cell.names v.limit
  rw [run_of_names v s named, run_of_names v Session.start named]
  dsimp only
  rw [same]
  exact ⟨rfl, ran⟩

theorem pending_run (v : Visit) {s : Session} (nothing : s.console.pending = #[]) :
    (v.run s).2.console.pending = #[] := by
  by_cases named : v.cell.names = []
  · rcases v with ⟨cell, files, lines, limit⟩
    cases cell with
    | code text =>
      have idle : Blank.words text = [] := named
      simp only [run, Cell.run, Cell.names, idle]
      exact nothing
    | file name => cases named
    | images names =>
      obtain ⟨_, ran⟩ := Session.related_runImages nothing lines files names limit
      exact ran.console.nothing_pending
  · obtain ⟨_, ran⟩ := related_run v nothing named
    exact ran.console.nothing_pending

theorem pending_session (visits : List Visit) : (session visits).console.pending = #[] := by
  have pending_foldl (s : Session) (nothing : s.console.pending = #[]) :
      (visits.foldl (fun s v => (v.run s).2) s).console.pending = #[] := by
    induction visits generalizing s with
    | nil => exact nothing
    | cons v rest ih => exact ih _ (pending_run v nothing)
  exact pending_foldl Session.start rfl

/-- A cell that names an image gives what it gives in a new session, whatever cells came before. -/
theorem run_ignores_history (earlier : List Visit) (v : Visit) (named : v.cell.names ≠ []) :
    let before := session earlier
    let later := v.run before
    let fresh := v.run Session.start
    later.1 = fresh.1 ∧ later.2.state = fresh.2.state ∧ v.log before = v.log Session.start ∧
      later.2.console.notices = before.console.notices ++ fresh.2.console.notices ∧
      later.2.console.queue = fresh.2.console.queue ∧
      later.2.console.pending = fresh.2.console.pending ∧
      later.2.console.lines = fresh.2.console.lines := by
  intro before later fresh
  obtain ⟨same, states, _, consoles⟩ := related_run v (pending_session earlier) named
  have notices : later.2.console.notices = before.console.notices ++ fresh.2.console.notices :=
    congrArg Notebook.notices consoles
  have queues := congrArg Notebook.queue consoles
  have pendings := congrArg Notebook.pending consoles
  have lines := congrArg Notebook.lines consoles
  refine ⟨same.symm, states.symm, ?_, notices, queues, pendings, lines⟩
  unfold log
  rw [notices]
  simp [fresh, Session.start, Machine.start]

/-- A cell that polls the keyboard, after one whose user typed ahead. -/
theorem run_ignores_history_of_typing :
    let typed : Visit := ⟨.file "echo.obj", fun _ => .ok #[0x30, 0, 0xF0, 0x20], [some "abc"], 1⟩
    let v : Visit :=
      ⟨.code " poll.obj\n", fun _ => .ok #[0x30, 0, 0xA0, 0, 0xFE, 0], [none], 1⟩
    v.cell.names ≠ [] ∧ (v.run (session [typed])).2.state = (v.run Session.start).2.state ∧
      (v.run (session [typed])).2.console.queue = (v.run Session.start).2.console.queue := by
  intro typed v
  have named : v.cell.names ≠ [] := by decide
  obtain ⟨_, states, _, _, queues, _⟩ := run_ignores_history [typed] v named
  exact ⟨named, states, queues⟩

end Visit

end LittleComputer
