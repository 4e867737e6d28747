import LittleComputer.Proofs.Loading
import LittleComputer.Session
import Mathlib.Data.List.TakeWhile

/-! How a cell names its images. A text is spelled out of exactly one list of words, whatever blanks
stand around them, so a cell of text does to a session what the list of its words does, and a cell
of blanks does nothing. -/
namespace LittleComputer

namespace Blank

/-- What can stand between blanks. -/
structure IsWord (word : String) : Prop where
  ne_empty : word ≠ ""
  solid : ∀ c ∈ word.toList, isBlank c = false

/-- The characters spell the words in order. Blanks may stand anywhere but inside a word, and one of
them has to follow each word unless the text is at its end. -/
inductive Spells : List Char → List String → Prop
  | nothing : Spells [] []
  | blank {c : Char} {text : List Char} {words : List String} (blank : isBlank c = true)
      (spells : Spells text words) : Spells (c :: text) words
  | word {word : String} {text : List Char} {words : List String} (solid : IsWord word)
      (apart : ∀ c ∈ text.head?, isBlank c = true) (spells : Spells text words) :
      Spells (word.toList ++ text) (word :: words)

def split (text : List Char) : List (List Char) := consWord (scan text).1 (scan text).2

theorem words_eq (text : String) : words text = (split text.toList).map String.ofList := rfl

theorem consWord_of_ne_nil {word : List Char} (some_char : word ≠ []) (words : List (List Char)) :
    consWord word words = word :: words := by
  cases word with
  | nil => exact absurd rfl some_char
  | cons c rest => rfl

theorem split_cons_of_blank {c : Char} (blank : isBlank c = true) (text : List Char) :
    split (c :: text) = split text := by
  simp only [split, scan, blank, if_true]
  rfl

theorem scan_append_of_solid {word : List Char} (solid : ∀ c ∈ word, isBlank c = false)
    (text : List Char) : scan (word ++ text) = (word ++ (scan text).1, (scan text).2) := by
  induction word with
  | nil => rfl
  | cons c rest ih =>
    have first : isBlank c = false := solid c List.mem_cons_self
    have later := ih fun d member => solid d (List.mem_cons_of_mem _ member)
    simp [scan, later, first]

/-- A word is over where the text is, or at a blank. -/
theorem scan_of_apart {text : List Char} (apart : ∀ c ∈ text.head?, isBlank c = true) :
    (scan text).1 = [] := by
  cases text with
  | nil => rfl
  | cons c rest =>
    have blank : isBlank c = true := apart c rfl
    simp [scan, blank]

theorem split_append_of_word {word : List Char} (some_char : word ≠ [])
    (solid : ∀ c ∈ word, isBlank c = false) {text : List Char}
    (apart : ∀ c ∈ text.head?, isBlank c = true) : split (word ++ text) = word :: split text := by
  have ended := scan_of_apart apart
  rw [split, split, scan_append_of_solid solid, ended, List.append_nil,
    consWord_of_ne_nil some_char]
  rfl

theorem Spells.split_eq {text : List Char} {words : List String} (spells : Spells text words) :
    (split text).map String.ofList = words := by
  induction spells with
  | nothing => rfl
  | blank blank _ ih => rw [split_cons_of_blank blank, ih]
  | @word word text words solid apart _ ih =>
    have some_char : word.toList ≠ [] := fun none =>
      solid.ne_empty (String.toList_eq_nil_iff.mp none)
    rw [split_append_of_word some_char solid.solid apart, List.map_cons, ih, String.ofList_toList]

/-- Each text is spelled: by blanks as long as it begins with one, and else by the characters before
the next blank. -/
theorem spells_split (text : List Char) : Spells text ((split text).map String.ofList) := by
  cases text with
  | nil => exact .nothing
  | cons c rest =>
    by_cases blank : isBlank c = true
    · rw [split_cons_of_blank blank]
      exact .blank blank (spells_split rest)
    · have solid_first : isBlank c = false := Bool.eq_false_iff.mpr blank
      let word := c :: rest.takeWhile (!isBlank ·)
      let later := rest.dropWhile (!isBlank ·)
      have parted : c :: rest = word ++ later := by
        simp [word, later, List.takeWhile_append_dropWhile]
      have solid : ∀ d ∈ word, isBlank d = false := by
        intro d member
        obtain rfl | member := List.mem_cons.mp member
        · exact solid_first
        · simpa using List.mem_takeWhile_imp member
      have apart : ∀ d ∈ later.head?, isBlank d = true := by
        intro d first
        have ended := List.head?_dropWhile_not (!isBlank ·) rest
        rw [show (rest.dropWhile (!isBlank ·)).head? = some d from first] at ended
        simpa using ended
      have whole : IsWord (String.ofList word) :=
        ⟨by simp [word], by simpa using solid⟩
      rw [parted, split_append_of_word (List.cons_ne_nil _ _) solid apart, List.map_cons]
      have spelled := Spells.word whole apart (spells_split later)
      rwa [String.toList_ofList] at spelled
termination_by text.length
decreasing_by
  · exact Nat.lt_succ_self _
  · exact Nat.lt_succ_of_le (List.dropWhile_sublist _).length_le

theorem words_eq_iff {text : String} {names : List String} :
    words text = names ↔ Spells text.toList names := by
  rw [words_eq]
  constructor
  · rintro rfl
    exact spells_split text.toList
  · exact Spells.split_eq

end Blank

namespace Cell

open Blank

/-- A cell of text does what running the images that it spells does to the session, however they are
spaced, and a cell of blanks leaves the session as it was. -/
theorem text_runs_images_spelled (s : Session) (files : Files) (text : String)
    (names : List String) (limit : Nat) :
    (Spells text.toList names → names ≠ [] →
      (code text).run s files limit = (none, (s.runImages files names limit).2)) ∧
    ((∀ c ∈ text.toList, isBlank c = true) → (code text).run s files limit = (none, s)) := by
  constructor
  · intro spells some_name
    obtain rfl := words_eq_iff.mpr spells
    obtain ⟨first, rest, found⟩ := List.exists_cons_of_ne_nil some_name
    simp only [run, Cell.names, found]
  · intro blank
    simp only [run, Cell.names, words_of_blank text blank]

/-- Blanks of several kinds around two names, one of which holds a space of no width and is that of
no file, and blanks alone. -/
theorem text_runs_images_spelled_between_blanks :
    let text := "\u0085\na.obj\u3000\t b\u200B.obj "
    let listed := ["a.obj", "b\u200B.obj"]
    let files : Files := fun name =>
      if name = "a.obj" then .ok #[0x30, 0, 0xF0, 0x25] else .error (.missing name)
    Spells text.toList listed ∧ listed ≠ [] ∧
      (code text).run Session.start files 3 =
        (none, (Session.start.runImages files listed 3).2) ∧
      ((code text).run Session.start files 3).2.state.memory.get 0x3000 = 0xF025 ∧
      ((code text).run Session.start files 3).2.console.notices = #[.error
        "failed to load image: b\u200B.obj ([Errno 2] No such file or directory: 'b\\u200b.obj')"] ∧
      (∀ c ∈ "\u2003\n".toList, isBlank c = true) ∧
      (code "\u2003\n").run Session.start files 3 = (none, Session.start) := by
  intro text listed files
  have spells : Spells text.toList listed := words_eq_iff.mp (by decide)
  have some_name : listed ≠ [] := List.cons_ne_nil _ _
  have blank : ∀ c ∈ "\u2003\n".toList, isBlank c = true := List.all_eq_true.mp (by decide)
  have ran := (text_runs_images_spelled Session.start files text listed 3).1 spells some_name
  have idle := (text_runs_images_spelled Session.start files "\u2003\n" [] 3).2 blank
  have first : Image.ofFile files "a.obj" = .ok ⟨0x3000, #[0xF025]⟩ := by decide
  have second : Image.ofFile files "b\u200B.obj" =
      .error (.unreadable (.missing "b\u200B.obj")) := by decide
  have loading : (Session.prepare Session.start).loadImages files listed =
      (some ("b\u200B.obj", .unreadable (.missing "b\u200B.obj")),
        (Session.prepare Session.start).place "a.obj" ⟨0x3000, #[0xF025]⟩) := by
    rw [Machine.loadImages_of_ok _ first, Machine.loadImages_of_error _ second]
  have refused : Session.start.runImages files listed 3 =
      (false, ((Session.prepare Session.start).place "a.obj" ⟨0x3000, #[0xF025]⟩).report
        (.error (LoadError.report "b\u200B.obj" (.unreadable (.missing "b\u200B.obj"))))) := by
    simp only [Session.runImages, Machine.runProgram_of_not_loaded loading, Session.conclude]
  have report : LoadError.report "b\u200B.obj" (.unreadable (.missing "b\u200B.obj")) =
      "failed to load image: b\u200B.obj ([Errno 2] No such file or directory: 'b\\u200b.obj')" := by
    decide +kernel
  have whole : ¬ ((⟨0x3000, #[0xF025]⟩ : Image).dropped > 0 ∧
      (Session.prepare Session.start).state.warn = true) := by decide
  refine ⟨spells, some_name, ran, ?_, ?_, blank, idle⟩
  · rw [ran, refused, Machine.report, Machine.state_place, Memory.get_place]
    rfl
  · rw [ran, refused, report, Machine.report, Machine.console_place, if_neg whole]
    rfl

end Cell

end LittleComputer
