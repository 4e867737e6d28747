import LittleComputer.Machine.Program
import LittleComputer.Proofs.WellFormed

/-! What loading a list of images comes to. Either every file holds an image and all of them are
placed, or the first that does not is reported; whichever it is, loading changes nothing of the
state but its memory, and tells the console nothing but which images were cut short. -/
namespace LittleComputer

namespace Image

/-- The file can be read, and its first two bytes are an origin. -/
def Loadable (files : Files) (name : String) : Prop :=
  ∃ bytes, files name = .ok bytes ∧ 2 ≤ bytes.size

/-- No image can be had from the file, for a reason that is told so: what the system says of a file
that cannot be read, and otherwise that there is no origin in it. -/
def Refused (files : Files) (name reason : String) : Prop :=
  (∃ e, files name = .error e ∧ reason = e.message) ∨
    ∃ bytes, files name = .ok bytes ∧ bytes.size < 2 ∧
      reason = "image has no origin: " ++ Quoted.quoted name

theorem exists_ofBytes?_iff {bytes : Array UInt8} :
    (∃ image, ofBytes? bytes = some image) ↔ 2 ≤ bytes.size := by
  rw [← Option.ne_none_iff_exists', Ne, ofBytes?_eq_none_iff, Nat.not_lt]

theorem ofFile_eq_ok_iff {files : Files} {name : String} {image : Image} :
    ofFile files name = .ok image ↔
      ∃ bytes, files name = .ok bytes ∧ ofBytes? bytes = some image := by
  unfold ofFile
  cases files name with
  | error e => simp
  | ok bytes => cases parsed : ofBytes? bytes <;> simp [parsed]

theorem loadable_iff {files : Files} {name : String} :
    Loadable files name ↔ ∃ image, ofFile files name = .ok image := by
  simp only [Loadable, ofFile_eq_ok_iff, ← exists_ofBytes?_iff, ← exists_and_left]
  exact exists_comm

theorem not_loadable_iff {files : Files} {name : String} :
    ¬ Loadable files name ↔ ∃ cause, ofFile files name = .error cause := by
  rw [loadable_iff]
  cases ofFile files name <;> simp

theorem refused_iff {files : Files} {name reason : String} :
    Refused files name reason ↔
      ∃ cause, ofFile files name = .error cause ∧ reason = cause.message := by
  constructor
  · rintro (⟨e, unread, rfl⟩ | ⟨bytes, read, short, rfl⟩)
    · exact ⟨.unreadable e, by simp [ofFile, unread], rfl⟩
    · have originless := (ofBytes?_eq_none_iff bytes).mpr short
      exact ⟨.noOrigin name, by simp [ofFile, read, originless], rfl⟩
  · rintro ⟨cause, unread, rfl⟩
    unfold ofFile at unread
    cases contents : files name with
    | error e =>
      rw [contents] at unread
      obtain rfl := Except.error.inj unread
      exact .inl ⟨e, contents, rfl⟩
    | ok bytes =>
      cases parsed : ofBytes? bytes with
      | none =>
        obtain rfl : .noOrigin name = cause := by simpa [contents, parsed] using unread
        exact .inr ⟨bytes, contents, (ofBytes?_eq_none_iff bytes).mp parsed, rfl⟩
      | some image => simp [contents, parsed] at unread

theorem exists_first_not_loadable {files : Files} {names : List String}
    (unloadable : ∃ name ∈ names, ¬ Loadable files name) :
    ∃ before name after, names = before ++ name :: after ∧
      (∀ other ∈ before, Loadable files other) ∧ ¬ Loadable files name := by
  induction names with
  | nil =>
    obtain ⟨name, member, _⟩ := unloadable
    cases member
  | cons first rest ih =>
    by_cases loadable : Loadable files first
    · have later : ∃ name ∈ rest, ¬ Loadable files name := by
        obtain ⟨name, member, unloadable⟩ := unloadable
        obtain rfl | member := List.mem_cons.mp member
        · exact absurd loadable unloadable
        · exact ⟨name, member, unloadable⟩
      obtain ⟨before, name, after, rfl, all_before, unloadable⟩ := ih later
      refine ⟨first :: before, name, after, rfl, ?_, unloadable⟩
      rintro other (_ | ⟨_, member⟩)
      · exact loadable
      · exact all_before other member
    · exact ⟨[], first, rest, rfl, nofun, loadable⟩

/-- The warnings that loading images gives, up to the first image that cannot be loaded. -/
def truncations (files : Files) : List String → List String
  | [] => []
  | name :: rest =>
    match ofFile files name with
    | .ok image =>
      if image.dropped > 0 then image.truncationWarning name :: truncations files rest
      else truncations files rest
    | .error _ => []

end Image

/-- A console that has been told these warnings. -/
def Console.warned [Console κ] (texts : List String) (console : κ) : κ :=
  texts.foldl (fun console text => Console.report (.error text) console) console

namespace Machine

open Image

variable {κ : Type} [Console κ]

theorem loadImage_of_ok (m : Machine κ) {files : Files} {name : String} {image : Image}
    (read : ofFile files name = .ok image) :
    m.loadImage files name = (.ok ⟨image.origin, image.placed⟩, m.place name image) := by
  simp [loadImage, read]

theorem loadImages_of_ok (m : Machine κ) {files : Files} {name : String} {image : Image}
    (read : ofFile files name = .ok image) (rest : List String) :
    m.loadImages files (name :: rest) = (m.place name image).loadImages files rest := by
  simp [loadImages, loadImage_of_ok m read]

theorem loadImages_of_error (m : Machine κ) {files : Files} {name : String} {cause : LoadError}
    (unread : ofFile files name = .error cause) (rest : List String) :
    m.loadImages files (name :: rest) = (some (name, cause), m) := by
  simp [loadImages, loadImage_of_error m unread]

theorem state_loadImages (m : Machine κ) (files : Files) (names : List String) :
    (m.loadImages files names).2.state =
      { m.state with memory := (m.loadImages files names).2.state.memory } := by
  induction names generalizing m with
  | nil => rfl
  | cons name rest ih =>
    cases read : ofFile files name with
    | ok image =>
      rw [loadImages_of_ok m read, ih, state_place]
    | error cause => rw [loadImages_of_error m read]

theorem console_loadImages (m : Machine κ) (warn : m.state.warn = true) (files : Files)
    (names : List String) :
    (m.loadImages files names).2.console =
      Console.warned (truncations files names) m.console := by
  induction names generalizing m with
  | nil => rfl
  | cons name rest ih =>
    cases read : ofFile files name with
    | ok image =>
      have placed : (m.place name image).state.warn = true := by rw [state_place]; exact warn
      rw [loadImages_of_ok m read, ih _ placed, console_place]
      by_cases dropped : image.dropped > 0
      · simp [truncations, read, dropped, warn, Console.warned]
      · simp [truncations, read, dropped]
    | error cause => simp [loadImages_of_error m read, truncations, read, Console.warned]

theorem loadImages_of_loadable (m : Machine κ) {files : Files} {before : List String}
    (loadable : ∀ name ∈ before, Loadable files name) (rest : List String) :
    m.loadImages files (before ++ rest) = (m.loadImages files before).2.loadImages files rest := by
  induction before generalizing m with
  | nil => rfl
  | cons name before ih =>
    obtain ⟨image, read⟩ := loadable_iff.mp (loadable name List.mem_cons_self)
    rw [List.cons_append, loadImages_of_ok m read, loadImages_of_ok m read]
    exact ih _ fun other member => loadable other (List.mem_cons_of_mem _ member)

theorem loadImages_fst_eq_none (m : Machine κ) {files : Files} {names : List String}
    (loadable : ∀ name ∈ names, Loadable files name) : (m.loadImages files names).1 = none := by
  have loaded := loadImages_of_loadable m loadable []
  rw [List.append_nil] at loaded
  rw [loaded]
  rfl

/-- The first image that cannot be loaded is the one that is reported. -/
theorem loadImages_of_not_loadable (m : Machine κ) {files : Files} {before : List String}
    (loadable : ∀ other ∈ before, Loadable files other) {name : String} {cause : LoadError}
    (unread : ofFile files name = .error cause) (after : List String) :
    m.loadImages files (before ++ name :: after) =
      (some (name, cause), (m.loadImages files before).2) := by
  rw [loadImages_of_loadable m loadable, loadImages_of_error _ unread]

/-- Either all images can be loaded, or there is a first that cannot. -/
theorem loadImages_cases (m : Machine κ) (files : Files) (names : List String) :
    (∀ name ∈ names, Loadable files name) ∧
        m.loadImages files names = (none, (m.loadImages files names).2) ∨
      ∃ before name after cause, names = before ++ name :: after ∧
        (∀ other ∈ before, Loadable files other) ∧ ofFile files name = .error cause ∧
        m.loadImages files names = (some (name, cause), (m.loadImages files before).2) := by
  by_cases unloadable : ∃ name ∈ names, ¬ Loadable files name
  · obtain ⟨before, name, after, rfl, earlier, unloadable⟩ := exists_first_not_loadable unloadable
    obtain ⟨cause, unread⟩ := not_loadable_iff.mp unloadable
    exact .inr ⟨before, name, after, cause, rfl, earlier, unread,
      loadImages_of_not_loadable m earlier unread after⟩
  · have loadable : ∀ name ∈ names, Loadable files name := fun name member =>
      Classical.byContradiction fun refused => unloadable ⟨name, member, refused⟩
    exact .inl ⟨loadable, Prod.ext (loadImages_fst_eq_none m loadable) rfl⟩

theorem runProgram_of_not_loaded {m m' : Machine κ} {files : Files}
    {names : List String} {failure : String × LoadError}
    (failed : m.loadImages files names = (some failure, m')) (limit : Nat) :
    m.runProgram files names limit = (.notLoaded failure.1 failure.2, m') := by
  simp [runProgram, failed]

theorem runProgram_of_loaded {m m' : Machine κ} {files : Files} {names : List String}
    (loaded : m.loadImages files names = (none, m')) (limit : Nat) :
    m.runProgram files names limit =
      (verdict (m'.run limit).2.state (m'.run limit).1, (m'.run limit).2) := by
  simp [runProgram, loaded]

end Machine

end LittleComputer
