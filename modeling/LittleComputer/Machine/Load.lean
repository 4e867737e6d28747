import LittleComputer.Files
import LittleComputer.Image
import LittleComputer.Machine

/-! Loading object files into a machine's memory. Words that do not fit below the top of memory
are dropped, with a warning unless the machine's warnings are off. A file that cannot be read,
or that has no origin, changes nothing. -/
namespace LittleComputer

inductive LoadError where
  | unreadable (cause : FileError)
  | noOrigin (name : String)
  deriving DecidableEq, Repr

namespace LoadError

def message : LoadError → String
  | .unreadable cause => cause.message
  | .noOrigin name => "image has no origin: " ++ Quoted.quoted name

def report (name : String) (e : LoadError) : String :=
  "failed to load image: " ++ name ++ " (" ++ e.message ++ ")"

end LoadError

/-- Where an image went, and how many of its words were placed. -/
structure Placement where
  origin : Word
  count : Nat
  deriving DecidableEq, Repr

namespace Image

def ofFile (files : Files) (name : String) : Except LoadError Image :=
  match files name with
  | .error e => .error (.unreadable e)
  | .ok bytes =>
    match ofBytes? bytes with
    | some image => .ok image
    | none => .error (.noOrigin name)

def placed (image : Image) : Nat := min image.words.size (Memory.room image.origin)

def dropped (image : Image) : Nat := image.words.size - Memory.room image.origin

def truncationWarning (image : Image) (name : String) : String :=
  "Warning: image " ++ Quoted.quoted name ++ " truncated at end of memory (" ++
    toString image.dropped ++ " words dropped)\n"

end Image

namespace Machine

variable {κ : Type} [Console κ]

def place (m : Machine κ) (name : String) (image : Image) : Machine κ :=
  let m :=
    if image.dropped > 0 ∧ m.state.warn then m.report (.error (image.truncationWarning name)) else m
  m.map fun s => { s with memory := s.memory.place image.origin image.words }

def loadImage (m : Machine κ) (files : Files) (name : String) :
    Except LoadError Placement × Machine κ :=
  match Image.ofFile files name with
  | .ok image => (.ok ⟨image.origin, image.placed⟩, m.place name image)
  | .error e => (.error e, m)

/-- Loads images in order up to the first that fails, and reports that one. -/
def loadImages (m : Machine κ) (files : Files) :
    List String → Option (String × LoadError) × Machine κ
  | [] => (none, m)
  | name :: rest =>
    match m.loadImage files name with
    | (.ok _, m) => m.loadImages files rest
    | (.error e, m) => (some (name, e), m)

theorem loadImage_of_error (m : Machine κ) {files : Files} {name : String} {e : LoadError}
    (h : Image.ofFile files name = .error e) : m.loadImage files name = (.error e, m) := by
  simp [loadImage, h]

end Machine

namespace Image

theorem placed_add_dropped (image : Image) : image.placed + image.dropped = image.words.size := by
  unfold placed dropped
  omega

end Image

end LittleComputer
