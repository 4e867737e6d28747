import LittleComputer.Console.Pipe
import LittleComputer.Console.Tape
import LittleComputer.Proofs.TypedLines
import LittleComputer.Proofs.Upkeep

/-! What a program writes is seen at once. Each step flushes what it has written, and one that waits
for a key does so before it waits, so on every console all that was written is visible whenever the
machine rests, however the step before has come to its end. -/
namespace LittleComputer

namespace Event

def bytes : Event → List UInt8
  | .wrote bytes => bytes
  | _ => []

end Event

namespace Recorder

def written (r : Recorder κ) : List UInt8 := r.events.flatMap Event.bytes

theorem written_note (r : Recorder κ) (event : Event) (console : κ) :
    (r.note event console).written = r.written ++ event.bytes := by
  simp [written, note]

variable {κ : Type} [Console κ]

theorem written_poll (r : Recorder κ) : (Console.poll r).2.written = r.written :=
  (written_note r (.polled _) _).trans (List.append_nil _)

theorem written_read (r : Recorder κ) : (Console.read r).2.written = r.written :=
  (written_note r (.awaited _) _).trans (List.append_nil _)

theorem written_say (r : Recorder κ) (bytes : List UInt8) :
    (Console.flush (Console.write bytes r)).written = r.written ++ bytes := by
  have wrote : (Console.write bytes r).written = r.written ++ bytes :=
    written_note r (.wrote bytes) _
  have flushed : (Console.flush (Console.write bytes r)).written =
      (Console.write bytes r).written ++ [] := written_note _ .flushed _
  rw [flushed, List.append_nil, wrote]

theorem upkeep_written (before : List UInt8) :
    Upkeep fun r : Recorder κ => before <+: r.written where
  poll := by
    intro r grown
    rwa [written_poll]
  read := by
    intro r grown
    rwa [written_read]
  say := by
    intro r bytes grown
    rw [written_say]
    exact grown.trans (List.prefix_append _ _)

end Recorder

variable {κ : Type} [Console κ]

/-- A way to tell that a console shows what was written to it, which no poll and no wait for a key
affects, and which what is said and flushed adds to. -/
structure Showing (shows : List UInt8 → κ → Prop) : Prop where
  poll {bytes c} : shows bytes c → shows bytes (Console.poll c).2
  read {bytes c} : shows bytes c → shows bytes (Console.read c).2
  say {bytes c} (more : List UInt8) :
    shows bytes c → shows (bytes ++ more) (Console.flush (Console.write more c))

theorem Showing.upkeep {shows : List UInt8 → κ → Prop} (showing : Showing shows) :
    Upkeep fun r : Recorder κ => shows r.written r.console where
  poll := by
    intro r shown
    rw [Recorder.written_poll]
    exact showing.poll shown
  read := by
    intro r shown
    rw [Recorder.written_read]
    exact showing.read shown
  say := by
    intro r bytes shown
    rw [Recorder.written_say]
    exact showing.say bytes shown

namespace Machine

def written (n : Nat) (m : Machine κ) : List UInt8 := (m.record.after n).console.written

theorem written_one (m : Machine κ) : m.written 1 = m.events.flatMap Event.bytes := rfl

theorem erase_after_record (m : Machine κ) (n : Nat) : (m.record.after n).erase = m.after n := by
  have related := Recorder.simulation.after (⟨rfl, rfl⟩ : Related _ m.record m) n
    fun _ _ _ _ => trivial
  unfold erase
  rw [related.state, related.console]

/-- What the first `n` steps have written is on the console, and remains there, when they are over;
and so is, when the next step waits for a key, what that step has written by then. -/
structure UpToDate (shows : List UInt8 → κ → Prop) (m : Machine κ) (n : Nat) : Prop where
  recorded : (m.record.after n).erase = m.after n
  grows : m.written n <+: m.written (n + 1)
  shown : shows (m.written n) (m.after n).console
  waits : (m.record.after n).waits ≠ [] ↔ ∃ answer, .awaited answer ∈ (m.record.after n).requests
  waiting : ∀ r ∈ (m.record.after n).waits, m.written n <+: r.written ∧ shows r.written r.console

theorem upToDate_of_showing {shows : List UInt8 → κ → Prop} (showing : Showing shows)
    {m : Machine κ} (start : shows [] m.console) (n : Nat) : m.UpToDate shows n where
  recorded := erase_after_record m n
  grows := by
    have grown : m.written n <+: (m.record.after n).console.written := List.prefix_refl _
    have grows := (Recorder.upkeep_written (m.written n)).step grown
    rw [step_after] at grows
    exact grows
  shown := by
    rw [← erase_after_record m n]
    exact showing.upkeep.after (m := m.record) start n
  waits := waits_ne_nil_iff _
  waiting := by
    intro r waiting
    have grown : m.written n <+: (m.record.after n).console.written := List.prefix_refl _
    have shown := showing.upkeep.after (m := m.record) start n
    exact ⟨(Recorder.upkeep_written (m.written n)).waits grown waiting,
      showing.upkeep.waits shown waiting⟩

end Machine

namespace Display

/-- The bytes have been added to those of a display before, and all of them are visible. -/
structure Gains (before : Display) (bytes : List UInt8) (now : Display) : Prop where
  bytes : now.bytes.toList = before.bytes.toList ++ bytes
  visible : now.visible = now.bytes.size

theorem Gains.say {before now : Display} {bytes : List UInt8} (gains : before.Gains bytes now)
    (more : List UInt8) : before.Gains (bytes ++ more) (now.write more).flush where
  bytes := by
    rw [bytes_flush, toList_write, gains.bytes, List.append_assoc]
  visible := visible_flush _

end Display

theorem Tape.showing (before : Display) :
    Showing fun bytes (t : Tape) => before.Gains bytes t.display where
  poll := by
    rintro bytes ⟨_ | ⟨b, rest⟩, display, notices⟩ gains <;> exact gains
  read := by
    rintro bytes ⟨_ | ⟨b, rest⟩, display, notices⟩ gains <;> exact gains
  say more gains := gains.say more

theorem Pipe.showing (before : Display) :
    Showing fun bytes (p : Pipe) => before.Gains bytes p.display where
  poll := by
    rintro bytes ⟨_ | ⟨b, rest⟩, closed, display, notices⟩ gains <;> exact gains
  read := by
    rintro bytes ⟨_ | ⟨b, rest⟩, closed, display, notices⟩ gains <;> exact gains
  say more gains := gains.say more

namespace Notebook

/-- Nothing is pending, and the texts printed on a notebook since it was as before are the bytes, in
Latin-1. -/
structure Gains (before : Notebook) (bytes : List UInt8) (now : Notebook) : Prop where
  pending : now.pending = #[]
  printed : ∃ later, now.notices.toList = before.notices.toList ++ later ∧
    Latin.encode (Notice.printed later) = .ok bytes

variable {before now : Notebook} {bytes : List UInt8}

theorem Gains.notice (gains : before.Gains bytes now) {notice : Notice}
    (silent : Notice.printed [notice] = "") :
    before.Gains bytes { now with notices := now.notices.push notice } := by
  obtain ⟨pending, later, told, encoded⟩ := gains
  refine ⟨pending, later ++ [notice], ?_, ?_⟩
  · rw [Array.toList_push, told, List.append_assoc]
  · rw [Notice.printed_append, silent, String.append_empty, encoded]

theorem Gains.poll (gains : before.Gains bytes now) : before.Gains bytes (Console.poll now).2 := by
  rcases now with ⟨_ | ⟨b, rest⟩, pending, lines, notices⟩ <;>
    exact ⟨gains.pending, gains.printed⟩

theorem Gains.ask (gains : before.Gains bytes now) : before.Gains bytes now.ask.2 := by
  have prompted : before.Gains bytes { now with notices := now.notices.push (.input "") } :=
    gains.notice rfl
  rcases now with ⟨queue, pending, _ | ⟨_ | line, rest⟩, notices⟩ <;>
    exact ⟨prompted.pending, prompted.printed⟩

theorem Gains.read (gains : before.Gains bytes now) : before.Gains bytes (Console.read now).2 := by
  have flushed : now.flush = now := by simp [flush, gains.pending]
  have asked := gains.ask
  simp only [Console.read, Notebook.read, flushed]
  cases now.queue with
  | cons b rest => exact ⟨gains.pending, gains.printed⟩
  | nil =>
    generalize now.ask = answer at asked
    rcases answer with ⟨_ | _ | ⟨b, rest⟩, after⟩ <;> exact ⟨asked.pending, asked.printed⟩

theorem Gains.say (gains : before.Gains bytes now) (more : List UInt8) :
    before.Gains (bytes ++ more) (Console.flush (Console.write more now)) := by
  obtain ⟨pending, later, told, encoded⟩ := gains
  rw [Latin.encode_eq_ok_iff] at encoded
  refine ⟨pending_flush _, ?_⟩
  rw [notices_flush_write now pending]
  by_cases empty : more = []
  · rw [if_pos empty, empty, List.append_nil]
    exact ⟨later, told, Latin.encode_eq_ok_iff.mpr encoded⟩
  · rw [if_neg empty]
    refine ⟨later ++ [.print (Latin.decode more)], ?_, ?_⟩
    · rw [Array.toList_push, told, List.append_assoc]
    · rw [Latin.encode_eq_ok_iff, Notice.printed_append, Notice.printed_print, encoded,
        Latin.decode_append]

theorem showing (before : Notebook) : Showing before.Gains where
  poll gains := gains.poll
  read gains := gains.read
  say more gains := gains.say more

end Notebook

namespace Machine

/-- On every console, nothing that a program has written is left behind when a step is over or waits
for a key. -/
theorem output_is_never_left_behind (s : State) (n : Nat) :
    (∀ t : Tape, t.display.visible = t.display.bytes.size →
      UpToDate (fun bytes now => t.display.Gains bytes now.display) ⟨s, t⟩ n) ∧
    (∀ p : Pipe, p.display.visible = p.display.bytes.size →
      UpToDate (fun bytes now => p.display.Gains bytes now.display) ⟨s, p⟩ n) ∧
    ∀ nb : Notebook, nb.pending = #[] → UpToDate nb.Gains ⟨s, nb⟩ n := by
  refine ⟨?_, ?_, ?_⟩
  · intro t visible
    exact upToDate_of_showing (Tape.showing t.display) ⟨(List.append_nil _).symm, visible⟩ n
  · intro p visible
    exact upToDate_of_showing (Pipe.showing p.display) ⟨(List.append_nil _).symm, visible⟩ n
  · intro nb pending
    have start : nb.Gains [] nb := ⟨pending, [], (List.append_nil _).symm, rfl⟩
    exact upToDate_of_showing nb.showing start n

/-- A prompt is seen even if the user interrupts it. -/
theorem output_is_never_left_behind_by_interruption :
    let s := State.initial.store 0x3000 0xF023
    let nb : Notebook := { lines := [none] }
    let m : Machine Notebook := ⟨s, nb⟩
    nb.pending = #[] ∧ m.step.1 = .interrupted ∧ UpToDate nb.Gains m 1 ∧
      Latin.encode (Notice.printed (m.after 1).console.notices.toList) =
        .ok (Latin.lowBytes inputPrompt) := by
  intro s nb m
  have waits : Exchange.ofState s = .await (s.advance.setReg 7 0x3001) true := by
    have held : s.memory.get s.pc = 0xF023 := Memory.get_set_self ..
    exact Exchange.ofState_of_service .prompt rfl (by decide) (by rw [held]; decide)
  have answer : (Console.read (Exchange.say (Exchange.promptOf true) nb)).1 = .interrupted :=
    (Notebook.read_say_eq_interrupted_iff nb _).mpr rfl
  have interrupted : m.step.1 = .interrupted := by
    rw [← Exchange.play_ofState, show m.state = s from rfl, waits, Exchange.outcome_play_await,
      show m.console = nb from rfl, answer]
    rfl
  have events : m.events =
      [.wrote (Latin.lowBytes inputPrompt), .flushed, .awaited .interrupted] := by
    rw [events_eq, show m.state = s from rfl, waits]
    simp only [Exchange.events, show m.console = nb from rfl, answer]
    rfl
  have written : m.written 1 = Latin.lowBytes inputPrompt := by
    rw [written_one, events]
    exact List.append_nil _
  have current := (output_is_never_left_behind s 1).2.2 nb rfl
  obtain ⟨later, told, encoded⟩ := current.shown.printed
  rw [written] at encoded
  rw [told]
  exact ⟨rfl, interrupted, current, encoded⟩

end Machine

end LittleComputer
