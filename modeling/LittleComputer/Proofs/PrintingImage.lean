import LittleComputer.Proofs.ObjectFiles
import LittleComputer.Proofs.Printing
import LittleComputer.Proofs.Resuming

/-! An object file that prints a text of its own and halts, from the bytes of the file to those on
the console. Where the file is too long for memory, its text goes on to the top of it, and the zero
that ends it there is that of the first cell. -/
namespace LittleComputer

/-- The program at 0x3000 that prints the text behind it, up to the zero at its end, and halts. -/
def Image.printer (text : List Word) : Image :=
  ⟨0x3000, (0xE002 :: 0xF022 :: 0xF025 :: (text ++ [0])).toArray⟩

namespace Memory

theorem get_place_blank (origin : Word) (words : List Word) {i : Nat} (within : i < room origin) :
    (blank.place origin words.toArray).get (origin + BitVec.ofNat 16 i) = words[i]?.getD 0 := by
  have start := origin.isLt
  unfold room at within
  have address : (origin + BitVec.ofNat 16 i).toNat = origin.toNat + i := by
    rw [BitVec.toNat_add, BitVec.toNat_ofNat]
    omega
  rw [get_place, address, if_pos (Nat.le_add_right _ _), Nat.add_sub_cancel_left, get_blank,
    List.getElem?_toArray]

/-- A blank memory in which the program has been placed. -/
def printing (text : List Word) : Memory :=
  blank.place (Image.printer text).origin (Image.printer text).words

variable {text : List Word}

theorem program_printing (text : List Word) :
    (printing text).get 0x3000 = 0xE002 ∧ (printing text).get 0x3001 = 0xF022 ∧
      (printing text).get 0x3002 = 0xF025 := by
  have placed (i : Nat) (within : i < room 0x3000) :=
    get_place_blank 0x3000 (0xE002 :: 0xF022 :: 0xF025 :: (text ++ [0])) within
  exact ⟨placed 0 (by decide), placed 1 (by decide), placed 2 (by decide)⟩

theorem get_printing (text : List Word) {i : Nat} (within : i < 53245) :
    (printing text).get (0x3003 + BitVec.ofNat 16 i) = text[i]?.getD 0 := by
  have address : (0x3003 : Word) + BitVec.ofNat 16 i = 0x3000 + BitVec.ofNat 16 (i + 3) := by
    rw [Nat.add_comm, BitVec.ofNat_add, ← BitVec.add_assoc]
    rfl
  have inside : i + 3 < room 0x3000 := by
    change i + 3 < 53248
    omega
  have ended : (text ++ [0])[i]?.getD 0 = text[i]?.getD 0 := by
    rw [List.getElem?_append]
    split
    · rfl
    · next behind =>
      rw [List.getElem?_eq_none (Nat.not_lt.mp behind), List.getElem?_singleton]
      split <;> rfl
  rw [address, printing, Image.printer, get_place_blank _ _ inside, ← ended]
  rfl

theorem get_printing_zero (text : List Word) : (printing text).get 0 = 0 := by
  have below : ¬ (0x3000 : Word).toNat ≤ (0 : Word).toNat := by decide
  rw [printing, get_place, get_blank]
  exact if_neg below

/-- If the text is so long that its zero is not in memory, the one after the top of memory is that
of the first cell. -/
theorem firstZero_printing (nonzero : ∀ w ∈ text, w ≠ 0) :
    (printing text).FirstZero 0x3003 (min text.length 53245) := by
  constructor
  · obtain fits | long := Nat.lt_or_ge text.length 53245
    · rw [Nat.min_eq_left (Nat.le_of_lt fits), get_printing text fits,
        List.getElem?_eq_none (Nat.le_refl _)]
      rfl
    · rw [Nat.min_eq_right long]
      exact get_printing_zero text
  · intro i below
    rw [get_printing text (by omega), List.getElem?_eq_getElem (by omega)]
    exact nonzero _ (List.getElem_mem _)

theorem words_printing (text : List Word) :
    (printing text).words 0x3003 (min text.length 53245) = text.take 53245 := by
  apply List.ext_getElem
  · simp [words, Nat.min_comm]
  · intro i first second
    have below : i < min text.length 53245 := by simpa [words] using first
    simp only [words, List.getElem_map, List.getElem_range, List.getElem_take]
    rw [get_printing text (by omega), List.getElem?_eq_getElem (by omega)]
    rfl

end Memory

namespace Image

variable (text : List Word)

theorem placed_printer : (printer text).placed = min (text.length + 4) 53248 := by
  simp [placed, printer, Memory.room]

theorem dropped_printer : (printer text).dropped = text.length - 53244 := by
  simp [dropped, printer, Memory.room]

def cutOff (name : String) (text : List Word) : Array Notice :=
  if text.length > 53244 then
    #[.error ("Warning: image " ++ Quoted.quoted name ++ " truncated at end of memory (" ++
      toString (text.length - 53244) ++ " words dropped)\n")]
  else #[]

end Image

namespace Machine

theorem utters_printing {m : Machine Tape} {text : List Word} (nonzero : ∀ w ∈ text, w ≠ 0)
    (memory : m.state.memory = Memory.printing text) (at_text : m.state.reg 0 = 0x3003) :
    m.Utters 0x22 ((text.take 53245).map Word.low) := by
  have first : m.state.memory.FirstZero (m.state.reg 0) (min text.length 53245) := by
    rw [at_text, memory]
    exact Memory.firstZero_printing nonzero
  have said : m.textBytes (fun w => [w.low]) (min text.length 53245) =
      (text.take 53245).map Word.low := by
    rw [textBytes, at_text, memory, Memory.words_printing, ← List.map_eq_flatMap]
  rw [← said]
  exact utters_puts first

theorem leads_printed {m : Machine Tape} {text : List Word} (nonzero : ∀ w ∈ text, w ≠ 0)
    (running : m.state.running = true) (here : m.state.pc = 0x3000)
    (memory : m.state.memory = Memory.printing text) :
    ∃ last, m.Leads 3 last ∧ last.state.running = false ∧ last.state.pc = 0x3003 ∧
      last.state.count = m.state.count + 3 ∧
      last.console = Console.flush (Console.write (Latin.lowBytes haltMessage)
        (Console.flush (Console.write ((text.take 53245).map Word.low) m.console))) := by
  obtain ⟨points, prints, halts⟩ := Memory.program_printing text
  rw [← memory] at points prints halts
  have start : reach (m.state.pc + 1) (2 : BitVec 9) = 0x3003 := by
    rw [here]
    decide
  have pointed : m.step = (.done, m.map (·.advance.assign 0 0x3003)) := by
    rw [step_of_get running here (by decide) points (i := .lea 0 2) (by decide), ← start]
    rfl
  let m₁ := m.map (·.advance.assign 0 0x3003)
  have at_puts : m₁.state.pc = 0x3001 := congrArg (· + 1) here
  let bytes := (text.take 53245).map Word.low
  let m₂ : Machine Tape := ⟨m₁.state.advance.setReg 7 m₁.state.advance.pc,
    Console.flush (Console.write bytes m.console)⟩
  have printed : m₁.step = (.done, m₂) := by
    have utters : (m₁.map (·.advance)).Utters 0x22 bytes :=
      utters_printing nonzero memory (Registers.get_set_self ..)
    rw [step_of_get (m := m₁) running at_puts (by decide) prints (i := .trap 0x22) (by decide),
      utters.returns]
    rfl
  have at_halt : m₂.state.pc = 0x3002 := congrArg (· + 1) at_puts
  have halted := step_of_get_halt (m := m₂) running at_halt (by decide) halts
  refine ⟨_, (Leads.of_step running pointed).trans
    ((Leads.of_step (m := m₁) running printed).trans (Leads.of_step (m := m₂) running halted)),
    rfl, congrArg (· + 1) at_halt, rfl, rfl⟩

/-- Loading the program touches neither the keys nor the display. -/
theorem console_place_printer (m : Machine Tape) (warn : m.state.warn = true) (name : String)
    (text : List Word) :
    (m.place name (Image.printer text)).console =
      { m.console with notices := m.console.notices ++ Image.cutOff name text } := by
  by_cases long : text.length > 53244
  · have cut : (Image.printer text).dropped > 0 := by
      rw [Image.dropped_printer]
      exact Nat.sub_pos_of_lt long
    have told : Image.cutOff name text =
        #[.error ((Image.printer text).truncationWarning name)] := by
      unfold Image.cutOff Image.truncationWarning
      rw [Image.dropped_printer, if_pos long]
    rw [console_place, if_pos ⟨cut, warn⟩, told]
    rfl
  · have whole : ¬ (Image.printer text).dropped > 0 := by
      rw [Image.dropped_printer]
      exact fun cut => long (Nat.lt_of_sub_pos cut)
    have quiet : ¬ ((Image.printer text).dropped > 0 ∧ m.state.warn = true) :=
      fun cut => whole cut.1
    have nothing : Image.cutOff name text = #[] := if_neg long
    rw [console_place, if_neg quiet, nothing, Array.append_empty]

/-- Whatever the length of the text, the program behind its object file prints what of it has gone
into memory and halts, and the user is told of what has not. -/
theorem printer_prints_text (m : Machine Tape) (files : Files) (name : String) {text : List Word}
    (nonzero : ∀ w ∈ text, w ≠ 0) (read : files name = .ok (Image.printer text).toBytes) :
    ∃ loaded last,
      m.reset.loadImage files name = (.ok ⟨0x3000, min (text.length + 4) 53248⟩, loaded) ∧
      loaded.console =
        { m.console with notices := m.console.notices ++ Image.cutOff name text } ∧
      loaded.Leads 3 last ∧ (∀ limit ≥ 3, loaded.run limit = (.done, last)) ∧
      last.state.running = false ∧ last.state.pc = 0x3003 ∧ last.state.count = 3 ∧
      last.console =
        { loaded.console with
          display := ((m.console.display.write ((text.take 53245).map Word.low)).flush.write
            (Latin.lowBytes "HALT\n")).flush } := by
  let image := Image.printer text
  have loading := loadImage_of_parsed m.reset read (Image.ofBytes?_toBytes image)
  rw [Image.placed_printer] at loading
  let loaded := m.reset.place name image
  have state : loaded.state = { State.initial with memory := Memory.printing text } :=
    state_place m.reset name image
  have told : loaded.console =
      { m.console with notices := m.console.notices ++ Image.cutOff name text } :=
    console_place_printer m.reset rfl name text
  obtain ⟨last, leads, halted, stopped, counted, printed⟩ :=
    leads_printed (m := loaded) nonzero (by rw [state]; rfl) (by rw [state]; rfl) (by rw [state])
  refine ⟨loaded, last, loading, told, leads, fun limit within => leads.run halted within, halted,
    stopped, ?_, ?_⟩
  · rw [counted, state]
    rfl
  · rw [printed, told]
    rfl

/-- A text that leaves no room for its zero, of which all is printed nonetheless. -/
theorem printer_prints_longest_text :
    let text : List Word := List.replicate 53245 0x0141
    let files : Files := fun _ => .ok (Image.printer text).toBytes
    let m : Machine Tape := start { keys := [120] }
    (∀ w ∈ text, w ≠ 0) ∧
    ∃ loaded last, m.reset.loadImage files "a.obj" = (.ok ⟨0x3000, 53248⟩, loaded) ∧
      loaded.console.notices =
        #[.error ("Warning: image " ++ Quoted.quoted "a.obj" ++ " truncated at end of memory (" ++
          "1" ++ " words dropped)\n")] ∧
      loaded.run 3 = (.done, last) ∧ last.console.keys = [120] ∧
      last.console.display.bytes.toList =
        List.replicate 53245 0x41 ++ [0x48, 0x41, 0x4C, 0x54, 0x0A] := by
  intro text files m
  have nonzero : ∀ w ∈ text, w ≠ 0 := by
    intro w member
    rw [List.eq_of_mem_replicate member]
    decide
  have length : text.length = 53245 := List.length_replicate
  have whole : text.take 53245 = text := List.take_of_length_le (Nat.le_of_eq length)
  have bytes : text.map Word.low = List.replicate 53245 0x41 := List.map_replicate
  obtain ⟨loaded, last, loading, told, _, runs, _, _, _, printed⟩ :=
    printer_prints_text m files "a.obj" nonzero rfl
  rw [length] at loading
  refine ⟨nonzero, loaded, last, loading, ?_, runs 3 (Nat.le_refl 3), ?_, ?_⟩
  · have quiet : m.console.notices = #[] := rfl
    have one : toString (53245 - 53244) = "1" := by decide
    rw [told, Image.cutOff, length, if_pos (by omega), one, quiet, Array.empty_append]
  · rw [printed, told]
    rfl
  · have message : Latin.lowBytes "HALT\n" = [0x48, 0x41, 0x4C, 0x54, 0x0A] := by decide
    have empty : m.console.display.bytes.toList = [] := rfl
    rw [printed, whole, bytes, message]
    simp only [Display.bytes_flush, Display.toList_write, empty, List.nil_append]

end Machine

end LittleComputer
