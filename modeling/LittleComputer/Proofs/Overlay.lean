import LittleComputer.Proofs.Invocation
import LittleComputer.Proofs.Latest
import LittleComputer.Proofs.ObjectFiles
import LittleComputer.Session

/-! Images over one another. However the images of a list overlap, are cut short at the top of
memory or are empty, a cell holds in the end what the last one that covers it has put there. The
programs that the front ends run start from that memory, and otherwise from a reset. -/
namespace LittleComputer

namespace Image

/-- The word that a file gives to a cell, if it can be read and covers the cell. -/
def givenBy? (files : Files) (a : Word) (name : String) : Option Word :=
  match files name with
  | .ok bytes => given? bytes a
  | .error _ => none

end Image

namespace Machine

open Image

variable {κ : Type} [Console κ]

/-- A machine that was reset, but for this memory. -/
def afresh (memory : Memory) (console : κ) : Machine κ := ⟨{ State.initial with memory }, console⟩

theorem get_place_of_ofFile {files : Files} {name : String} {image : Image}
    (read : ofFile files name = .ok image) (m : Machine κ) (a : Word) :
    (m.place name image).state.memory.get a =
      (givenBy? files a name).getD (m.state.memory.get a) := by
  obtain ⟨bytes, found, parsed⟩ := ofFile_eq_ok_iff.mp read
  rw [memory_place parsed, givenBy?, found]

section Loadable

variable {files : Files} {names : List String} (loadable : ∀ name ∈ names, Loadable files name)
include loadable

theorem get_loadImages (m : Machine κ) (a : Word) :
    (m.loadImages files names).2.state.memory.get a =
      latest (givenBy? files a) names (m.state.memory.get a) := by
  induction names generalizing m with
  | nil => rfl
  | cons name rest ih =>
    obtain ⟨image, read⟩ := loadable_iff.mp (loadable name List.mem_cons_self)
    rw [loadImages_of_ok m read, ih fun other member => loadable other (.tail _ member)]
    rw [get_place_of_ofFile read, latest_cons]

theorem memory_loadImages_eq (m : Machine κ) {others : List String}
    (loadable' : ∀ name ∈ others, Loadable files name)
    (same : ∀ a w, latest (givenBy? files a) others w = latest (givenBy? files a) names w) :
    (m.loadImages files others).2.state.memory = (m.loadImages files names).2.state.memory := by
  apply Memory.ext_get
  intro a
  rw [get_loadImages loadable, get_loadImages loadable', same]

theorem loadImages_start {memory : Memory}
    (held : ∀ a, memory.get a = latest (givenBy? files a) names 0) (console : κ) :
    (start console).loadImages files names =
      (none, afresh memory (Console.warned (truncations files names) console)) := by
  have same : ((start console).loadImages files names).2.state.memory = memory := by
    apply Memory.ext_get
    intro a
    rw [get_loadImages loadable, held]
    exact congrArg _ (Memory.get_blank a)
  have state := state_loadImages (start console) files names
  have warned := console_loadImages (start console) rfl files names
  rw [same] at state
  exact Prod.ext (loadImages_fst_eq_none _ loadable) (congrArg₂ Machine.mk state warned)

/-- Of images that cover a cell the last one in the list gives it its word. -/
theorem last_image_wins (m : Machine κ) :
    (m.loadImages files names).1 = none ∧
    (∀ a, (m.loadImages files names).2.state.memory.get a =
      latest (givenBy? files a) names (m.state.memory.get a)) ∧
    (∀ before name after, names = before ++ name :: after →
      (m.loadImages files (before ++ name :: name :: after)).2.state.memory =
        (m.loadImages files names).2.state.memory) ∧
    (∀ before first second after, names = before ++ first :: second :: after →
      (∀ a, givenBy? files a first = none ∨ givenBy? files a second = none) →
      (m.loadImages files (before ++ second :: first :: after)).2.state.memory =
        (m.loadImages files names).2.state.memory) ∧
    ∃ memory : Memory, (∀ a, memory.get a = latest (givenBy? files a) names 0) ∧
      (∀ arguments settings input limit,
        CommandLine.grammar.read arguments = .accepted settings names →
        let begun := afresh memory (Console.warned (truncations files names) (Pipe.ofInput input))
        let ran := begun.run limit
        let verdict := verdict ran.2.state ran.1
        let result := CommandLine.invoke files arguments input limit
        result.status = CommandLine.exitStatus verdict ∧
        result.output = ran.2.console.display.bytes.toList ∧
        result.errors = String.join (Notice.errors ran.2.console.notices.toList ++
          (CommandLine.complaint? verdict).toList) ∧
        ∃ m, result.machine = some m ∧ m.state = ran.2.state) ∧
      ∀ (s : Session) limit,
        let console := { s.console with queue := [] }
        let begun := afresh memory (Console.warned (truncations files names) console)
        let ran := begun.run limit
        s.runImages files names limit =
          Session.conclude ran.2 (verdict ran.2.state ran.1) := by
  refine ⟨loadImages_fst_eq_none m loadable, get_loadImages loadable m, ?_, ?_, ?_⟩
  · rintro before name after rfl
    apply memory_loadImages_eq loadable
    · intro other member
      apply loadable
      simpa using member
    · exact fun a w => latest_twice _ before name after w
  · rintro before first second after rfl apart
    apply memory_loadImages_eq loadable
    · intro other member
      apply loadable
      simpa [or_left_comm] using member
    · exact fun a w => latest_exchange (apart a) before after w
  · have held (a : Word) := get_loadImages loadable (CommandLine.boot []) a
    have blank (a : Word) : (CommandLine.boot []).state.memory.get a = 0 := Memory.get_blank a
    simp only [blank] at held
    refine ⟨_, held, ?_, ?_⟩
    · intro arguments settings input limit accepted
      have ended := CommandLine.invoke_of_accepted input files names accepted limit
      have runs := runProgram_of_loaded
        (loadImages_start loadable held (Pipe.ofInput input)) limit
      rw [CommandLine.boot, runs] at ended
      exact ended
    · intro s limit
      have runs := runProgram_of_loaded
        (loadImages_start loadable held { s.console with queue := [] }) limit
      rw [Session.runImages, Session.prepare, ← start, runs]

end Loadable

/-- Two images share a cell, and the one that is loaded later has it. -/
theorem last_image_wins_of_overlap :
    let files : Files := fun name =>
      if name = "a.obj" then .ok #[0x30, 0x00, 0x00, 0x01, 0x00, 0x02, 0x00, 0x03]
      else .ok #[0x30, 0x01, 0x00, 0x09]
    let memory := (Session.start.loadImages files ["a.obj", "b.obj"]).2.state.memory
    (∀ name ∈ ["a.obj", "b.obj"], Loadable files name) ∧
      memory.get 0x3000 = 1 ∧ memory.get 0x3001 = 9 ∧ memory.get 0x3002 = 3 := by
  intro files memory
  have loadable : ∀ name ∈ ["a.obj", "b.obj"], Loadable files name := by
    rintro name (_ | ⟨_, _ | ⟨_, _ | _⟩⟩)
    · exact ⟨_, rfl, by decide⟩
    · exact ⟨_, rfl, by decide⟩
  obtain ⟨_, held, _⟩ := last_image_wins loadable Session.start
  refine ⟨loadable, ?_, ?_, ?_⟩
  · exact (held 0x3000).trans (by decide)
  · exact (held 0x3001).trans (by decide)
  · exact (held 0x3002).trans (by decide)

end Machine

end LittleComputer
