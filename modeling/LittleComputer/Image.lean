import LittleComputer.Word

/-! Object files: an origin and the words to be placed from there on, each as two bytes, the
high one first. A last byte without a partner stands for nothing. -/
namespace LittleComputer

structure Image where
  origin : Word
  words : Array Word
  deriving DecidableEq

namespace Image

def wordsOf (bytes : Array UInt8) : Array Word :=
  Array.ofFn fun i : Fin (bytes.size / 2) =>
    have := i.isLt
    Word.ofBytes bytes[2 * i.val] bytes[2 * i.val + 1]

def bytesOf (words : List Word) : List UInt8 := words.flatMap fun w => [w.high, w.low]

/-- Reads an object file, which has at least an origin. -/
def ofBytes? (bytes : Array UInt8) : Option Image :=
  let words := wordsOf bytes
  words[0]?.map fun origin => ⟨origin, words.extract 1 words.size⟩

def toBytes (image : Image) : Array UInt8 :=
  (bytesOf (image.origin :: image.words.toList)).toArray

theorem size_wordsOf (bytes : Array UInt8) : (wordsOf bytes).size = bytes.size / 2 := by
  simp [wordsOf]

/-- A file is an object file if two bytes of it make an origin. -/
theorem ofBytes?_eq_none_iff (bytes : Array UInt8) : ofBytes? bytes = none ↔ bytes.size < 2 := by
  simp only [ofBytes?, Option.map_eq_none_iff, Array.getElem?_eq_none_iff, size_wordsOf]
  omega

end Image

end LittleComputer
