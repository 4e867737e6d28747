import LittleComputer.Proofs.Loading

/-! Object files and the memory they are loaded into. A file is read by twos of its bytes, the high
one first; what comes after the origin replaces as many cells from there on, as far as memory goes.
Encoding and loading undo one another, so a file that fits can be had back from memory. -/
namespace LittleComputer

namespace Word

theorem toNat_ofBytes (high low : UInt8) :
    (ofBytes high low).toNat = 256 * high.toNat + low.toNat := by
  have below : low.toBitVec.toNat < 2 ^ 8 := low.toBitVec.isLt
  rw [ofBytes, BitVec.toNat_append, Nat.shiftLeft_eq, Nat.mul_comm,
    ← Nat.two_pow_add_eq_or_of_lt below]
  rfl

theorem toNat_high_low (w : Word) : 256 * w.high.toNat + w.low.toNat = w.toNat := by
  rw [← toNat_ofBytes, ofBytes_high_low]

theorem high_eq (w : Word) : w.high = UInt8.ofNat (w.toNat / 256) := by
  have value := toNat_high_low w
  have below := w.low.toNat_lt
  apply UInt8.toNat_inj.mp
  rw [UInt8.toNat_ofNat']
  omega

theorem low_eq (w : Word) : w.low = UInt8.ofNat (w.toNat % 256) := by
  have value := toNat_high_low w
  have below := w.low.toNat_lt
  apply UInt8.toNat_inj.mp
  rw [UInt8.toNat_ofNat']
  omega

end Word

namespace Image

/-- The number that the `i`-th two bytes of a file make, the high one first. -/
def wordAt (bytes : Array UInt8) (i : Nat) : Nat :=
  256 * (bytes.getD (2 * i) 0).toNat + (bytes.getD (2 * i + 1) 0).toNat

/-- How many words of a file go into memory: all after the origin, as far as there is room. -/
def stored (bytes : Array UInt8) : Nat := min (bytes.size / 2 - 1) (65536 - wordAt bytes 0)

/-- The word that a file gives to a cell, if it covers the cell. -/
def given? (bytes : Array UInt8) (a : Word) : Option Word :=
  if wordAt bytes 0 ≤ a.toNat ∧ a.toNat < wordAt bytes 0 + stored bytes then
    some (BitVec.ofNat 16 (wordAt bytes (a.toNat - wordAt bytes 0 + 1)))
  else none

theorem wordAt_lt (bytes : Array UInt8) (i : Nat) : wordAt bytes i < 65536 := by
  have high := (bytes.getD (2 * i) 0).toNat_lt
  have low := (bytes.getD (2 * i + 1) 0).toNat_lt
  unfold wordAt
  omega

theorem getElem?_wordsOf (bytes : Array UInt8) (i : Nat) :
    (wordsOf bytes)[i]? =
      if i < bytes.size / 2 then some (BitVec.ofNat 16 (wordAt bytes i)) else none := by
  by_cases within : i < bytes.size / 2
  · have high : 2 * i < bytes.size := by omega
    have low : 2 * i + 1 < bytes.size := by omega
    have value : (wordsOf bytes)[i]? = some (Word.ofBytes bytes[2 * i] bytes[2 * i + 1]) := by
      simp [wordsOf, within]
    rw [value, if_pos within]
    congr 1
    apply BitVec.eq_of_toNat_eq
    rw [BitVec.toNat_ofNat, Nat.mod_eq_of_lt (wordAt_lt bytes i), Word.toNat_ofBytes, wordAt]
    simp [high, low]
  · simp [within, size_wordsOf]

theorem bytesOf_cons (w : Word) (rest : List Word) :
    bytesOf (w :: rest) = w.high :: w.low :: bytesOf rest := rfl

theorem length_bytesOf (words : List Word) : (bytesOf words).length = 2 * words.length := by
  induction words with
  | nil => rfl
  | cons w rest ih =>
    simp only [bytesOf_cons, List.length_cons]
    omega

theorem getElem?_bytesOf (words : List Word) (i : Nat) :
    (bytesOf words)[2 * i]? = words[i]?.map Word.high ∧
      (bytesOf words)[2 * i + 1]? = words[i]?.map Word.low := by
  induction words generalizing i with
  | nil => simp [bytesOf]
  | cons w rest ih =>
    cases i with
    | zero => simp [bytesOf_cons]
    | succ i => simpa [bytesOf_cons, Nat.mul_add] using ih i

theorem wordAt_bytesOf {words : List Word} {i : Nat} (within : i < words.length) :
    wordAt (bytesOf words).toArray i = words[i].toNat := by
  obtain ⟨high, low⟩ := getElem?_bytesOf words i
  simp [wordAt, high, low, within, Word.toNat_high_low]

theorem wordsOf_bytesOf (words : List Word) : wordsOf (bytesOf words).toArray = words.toArray := by
  apply Array.ext_getElem?
  intro i
  rw [getElem?_wordsOf]
  by_cases within : i < words.length
  · simp [length_bytesOf, within, wordAt_bytesOf within]
  · simp [length_bytesOf, within]

theorem bytesOf_wordsOf {bytes : Array UInt8} (even : bytes.size % 2 = 0) :
    bytesOf (wordsOf bytes).toList = bytes.toList := by
  have pairs (i : Nat) :
      (bytesOf (wordsOf bytes).toList)[2 * i]? = bytes.toList[2 * i]? ∧
        (bytesOf (wordsOf bytes).toList)[2 * i + 1]? = bytes.toList[2 * i + 1]? := by
    obtain ⟨high, low⟩ := getElem?_bytesOf (wordsOf bytes).toList i
    rw [high, low]
    by_cases within : i < bytes.size / 2
    · have first : 2 * i < bytes.size := by omega
      have second : 2 * i + 1 < bytes.size := by omega
      simp [wordsOf, within, first, second]
    · have first : bytes.size ≤ 2 * i := by omega
      have second : bytes.size ≤ 2 * i + 1 := by omega
      simp [wordsOf, within, first, second]
  apply List.ext_getElem?
  intro j
  obtain even | odd := Nat.mod_two_eq_zero_or_one j
  · rw [show j = 2 * (j / 2) by omega]
    exact (pairs (j / 2)).1
  · rw [show j = 2 * (j / 2) + 1 by omega]
    exact (pairs (j / 2)).2

section Parsed

variable {bytes : Array UInt8} {image : Image} (parsed : ofBytes? bytes = some image)
include parsed

theorem toList_wordsOf : (wordsOf bytes).toList = image.origin :: image.words.toList := by
  unfold ofBytes? at parsed
  obtain ⟨origin, first, rfl⟩ := Option.map_eq_some_iff.mp parsed
  rw [← Array.getElem?_toList, ← List.head?_eq_getElem?] at first
  obtain ⟨rest, words⟩ := List.head?_eq_some_iff.mp first
  have : (wordsOf bytes).size = rest.length + 1 := by simpa using congrArg List.length words
  simp [words, this]

theorem size_words : image.words.size + 1 = bytes.size / 2 := by
  have sizes := congrArg List.length (toList_wordsOf parsed)
  rw [Array.length_toList, size_wordsOf] at sizes
  exact sizes.symm

theorem toNat_origin : image.origin.toNat = wordAt bytes 0 := by
  have first := getElem?_wordsOf bytes 0
  rw [← Array.getElem?_toList, toList_wordsOf parsed, ← size_words parsed] at first
  have origin : image.origin = BitVec.ofNat 16 (wordAt bytes 0) := by simpa using first
  rw [origin, BitVec.toNat_ofNat, Nat.mod_eq_of_lt (wordAt_lt bytes 0)]

theorem getElem?_words (i : Nat) :
    image.words[i]? =
      if i < bytes.size / 2 - 1 then some (BitVec.ofNat 16 (wordAt bytes (i + 1))) else none := by
  have word := getElem?_wordsOf bytes (i + 1)
  rw [← Array.getElem?_toList, toList_wordsOf parsed, ← size_words parsed] at word
  simpa [← size_words parsed] using word

theorem placed_eq : image.placed = stored bytes := by
  rw [placed, Memory.room, toNat_origin parsed, stored, ← size_words parsed, Nat.add_sub_cancel]

theorem dropped_eq : image.dropped = bytes.size / 2 - 1 - stored bytes := by
  rw [← placed_eq parsed, ← size_words parsed, Nat.add_sub_cancel, ← placed_add_dropped,
    Nat.add_sub_cancel_left]

theorem get_place (mem : Memory) (a : Word) :
    (mem.place image.origin image.words).get a = (given? bytes a).getD (mem.get a) := by
  have top : a.toNat < 65536 := a.isLt
  rw [Memory.get_place, toNat_origin parsed, getElem?_words parsed, given?, stored]
  by_cases above : wordAt bytes 0 ≤ a.toNat
  · rw [if_pos above]
    by_cases within : a.toNat - wordAt bytes 0 < bytes.size / 2 - 1
    · rw [if_pos within, if_pos (by omega)]
    · rw [if_neg within, if_neg (by omega)]
  · rw [if_neg above, if_neg (by omega)]
    rfl

theorem toBytes_of_ofBytes? (even : bytes.size % 2 = 0) : image.toBytes = bytes := by
  rw [toBytes, ← toList_wordsOf parsed, bytesOf_wordsOf even]

end Parsed

theorem ofBytes?_toBytes (image : Image) : ofBytes? image.toBytes = some image := by
  have words : image.words.toList.take image.words.size = image.words.toList :=
    List.take_of_length_le (by simp)
  simp [ofBytes?, toBytes, wordsOf_bytesOf, words]

end Image

namespace Memory

theorem getElem?_toList_cells (mem : Memory) (i : Nat) :
    mem.cells.toList[i]? = if i < 65536 then some (mem.get (BitVec.ofNat 16 i)) else none := by
  by_cases cell : i < 65536
  · simp [cell, get, Nat.mod_eq_of_lt cell]
  · simp [cell]

/-- Placing words replaces a stretch of memory by as many words. -/
theorem toList_place (mem : Memory) (origin : Word) (words : Array Word) :
    (mem.place origin words).cells.toList =
      mem.cells.toList.take origin.toNat ++ words.toList.take (room origin) ++
        mem.cells.toList.drop (origin.toNat + min words.size (room origin)) := by
  have top : origin.toNat < 65536 := origin.isLt
  have below : (mem.cells.toList.take origin.toNat).length = origin.toNat := by
    rw [List.length_take, Vector.length_toList]
    omega
  apply List.ext_getElem?
  intro i
  rw [getElem?_toList_cells, List.append_assoc, room]
  by_cases cell : i < 65536
  · rw [if_pos cell, get_place, BitVec.toNat_ofNat, Nat.mod_eq_of_lt cell]
    by_cases above : origin.toNat ≤ i
    · rw [if_pos above, List.getElem?_append_right (by omega), below]
      by_cases within : i - origin.toNat < words.size
      · rw [List.getElem?_append_left (by simp; omega), List.getElem?_take_of_lt (by omega)]
        simp [within]
      · have beyond : origin.toNat + min words.size (65536 - origin.toNat) +
            (i - origin.toNat - min (65536 - origin.toNat) words.size) = i := by omega
        rw [List.getElem?_append_right (by simp; omega), List.getElem?_drop, List.length_take,
          Array.length_toList, beyond, getElem?_toList_cells, if_pos cell]
        simp [within]
    · rw [if_neg above, List.getElem?_append_left (by omega),
        List.getElem?_take_of_lt (by omega), getElem?_toList_cells, if_pos cell]
  · rw [if_neg cell]
    symm
    apply List.getElem?_eq_none
    simp only [List.length_append, List.length_take, List.length_drop, Vector.length_toList,
      Array.length_toList]
    omega

theorem bound_natCast {n : Nat} (within : n ≤ 65536) : bound n = n := by
  rw [bound, if_neg (by omega)]
  omega

theorem slice_eq (mem : Memory) {first n : Nat} (inside : first + n ≤ 65536) :
    mem.slice first (first + n : Nat) =
      (List.range' first n).map fun a => mem.get (BitVec.ofNat 16 a) := by
  rw [slice, bound_natCast (by omega), bound_natCast inside, Nat.add_sub_cancel_left]

theorem slice_place (mem : Memory) (origin : Word) (words : Array Word)
    (inside : origin.toNat + words.size ≤ 65536) :
    (mem.place origin words).slice origin.toNat (origin.toNat + words.size : Nat) =
      words.toList := by
  rw [slice_eq _ inside]
  apply List.ext_getElem
  · simp
  · intro i inRange inWords
    have cell : origin.toNat + i < 65536 :=
      Nat.lt_of_lt_of_le (Nat.add_lt_add_left inWords _) inside
    have word : words[i]? = some words[i] := by simp
    simp [get_place, Nat.mod_eq_of_lt cell, word]

end Memory

namespace Machine

open Image

variable {κ : Type} [Console κ]

/-- What loading a file of these bytes does to a machine. -/
structure Loads (bytes : Array UInt8) (name : String) (m : Machine κ) (placement : Placement)
    (m' : Machine κ) : Prop where
  origin : placement.origin.toNat = wordAt bytes 0
  count : placement.count = min (bytes.size / 2 - 1) (65536 - wordAt bytes 0)
  inside : wordAt bytes 0 + placement.count ≤ 65536
  covered : ∀ i < placement.count,
    (m'.state.memory.get (BitVec.ofNat 16 (wordAt bytes 0 + i))).toNat = wordAt bytes (i + 1)
  kept : ∀ a : Word, a.toNat < wordAt bytes 0 ∨ wordAt bytes 0 + placement.count ≤ a.toNat →
    m'.state.memory.get a = m.state.memory.get a
  /-- The stretch of memory that is given up is as long as the one that takes its place. -/
  cells : ∃ placed : List Word, placed.length = placement.count ∧
    m'.state.memory.cells.toList =
      m.state.memory.cells.toList.take (wordAt bytes 0) ++ placed ++
        m.state.memory.cells.toList.drop (wordAt bytes 0 + placement.count)
  state : m'.state = { m.state with memory := m'.state.memory }
  /-- The user is told of words that were dropped, and of nothing else. -/
  console : m'.console =
    if m.state.warn ∧ bytes.size / 2 - 1 > 65536 - wordAt bytes 0 then
      Console.report (.error ("Warning: image " ++ Quoted.quoted name ++
        " truncated at end of memory (" ++ toString (bytes.size / 2 - 1 - placement.count) ++
        " words dropped)\n")) m.console
    else m.console

theorem loadImage_of_parsed (m : Machine κ) {files : Files} {name : String} {bytes : Array UInt8}
    {image : Image} (read : files name = .ok bytes) (parsed : ofBytes? bytes = some image) :
    m.loadImage files name = (.ok ⟨image.origin, image.placed⟩, m.place name image) :=
  loadImage_of_ok m (ofFile_eq_ok_iff.mpr ⟨bytes, read, parsed⟩)

section Parsed

variable {bytes : Array UInt8} {image : Image} (parsed : ofBytes? bytes = some image)
include parsed

theorem memory_place (m : Machine κ) (name : String) (a : Word) :
    (m.place name image).state.memory.get a =
      (given? bytes a).getD (m.state.memory.get a) := by
  rw [state_place]
  exact get_place parsed m.state.memory a

theorem warning_place (m : Machine κ) (name : String) :
    (m.place name image).console =
      if m.state.warn ∧ bytes.size / 2 - 1 > 65536 - wordAt bytes 0 then
        Console.report (.error ("Warning: image " ++ Quoted.quoted name ++
          " truncated at end of memory (" ++ toString (bytes.size / 2 - 1 - stored bytes) ++
          " words dropped)\n")) m.console
      else m.console := by
  have cut : bytes.size / 2 - 1 - stored bytes > 0 ∧ m.state.warn = true ↔
      m.state.warn = true ∧ bytes.size / 2 - 1 > 65536 - wordAt bytes 0 := by
    rw [and_comm, stored]
    exact and_congr_right fun _ => by omega
  rw [console_place]
  unfold truncationWarning
  rw [dropped_eq parsed]
  exact ite_congr (propext cut) (fun _ => rfl) fun _ => rfl

theorem loads (m : Machine κ) (name : String) :
    Loads bytes name m ⟨image.origin, stored bytes⟩ (m.place name image) := by
  have origin := toNat_origin parsed
  have low := wordAt_lt bytes 0
  have inside : wordAt bytes 0 + stored bytes ≤ 65536 := by
    unfold stored
    omega
  refine ⟨origin, rfl, inside, ?_, ?_, ?_, ?_, warning_place parsed m name⟩
  · intro i within
    have cell : wordAt bytes 0 + i < 65536 := by
      dsimp only at within
      omega
    have within : wordAt bytes 0 ≤ wordAt bytes 0 + i ∧
        wordAt bytes 0 + i < wordAt bytes 0 + stored bytes :=
      ⟨Nat.le_add_right _ _, Nat.add_lt_add_left within _⟩
    rw [memory_place parsed, given?, BitVec.toNat_ofNat, Nat.mod_eq_of_lt cell, if_pos within,
      Nat.add_sub_cancel_left, Option.getD_some, BitVec.toNat_ofNat]
    exact Nat.mod_eq_of_lt (wordAt_lt bytes (i + 1))
  · intro a outside
    dsimp only at outside
    rw [memory_place parsed, given?, if_neg (by omega)]
    rfl
  · refine ⟨image.words.toList.take (Memory.room image.origin), ?_, ?_⟩
    · simp [← placed_eq parsed, placed, Nat.min_comm]
    · rw [state_place, Memory.toList_place, ← placed_eq parsed, ← origin]
      rfl
  · rw [state_place]

end Parsed

/-- The words of an image that fits are in memory after it has been loaded. -/
theorem loadImage_toBytes (m : Machine κ) {files : Files} {name : String} {image : Image}
    (read : files name = .ok image.toBytes)
    (fits : image.origin.toNat + image.words.size ≤ 65536) :
    ∃ m', m.loadImage files name = (.ok ⟨image.origin, image.words.size⟩, m') ∧
      m'.console = m.console ∧
      m'.state.memory.slice image.origin.toNat (image.origin.toNat + image.words.size : Nat) =
        image.words.toList := by
  have whole : image.placed = image.words.size ∧ ¬ image.dropped > 0 := by
    unfold placed dropped Memory.room
    omega
  have loaded := loadImage_of_parsed m read (ofBytes?_toBytes image)
  rw [whole.1] at loaded
  refine ⟨_, loaded, ?_, ?_⟩
  · rw [console_place]
    exact if_neg fun cut => whole.2 cut.1
  · rw [state_place]
    exact Memory.slice_place m.state.memory image.origin image.words fits

/-- A file of an even number of bytes is had back from memory if none of its words was dropped. -/
theorem toBytes_of_loadImage {m m' : Machine κ} {files : Files} {name : String}
    {bytes : Array UInt8} {placement : Placement} (read : files name = .ok bytes)
    (even : bytes.size % 2 = 0) (loading : m.loadImage files name = (.ok placement, m'))
    (whole : placement.count = bytes.size / 2 - 1) :
    (Image.mk placement.origin (m'.state.memory.slice placement.origin.toNat
      (placement.origin.toNat + placement.count : Nat)).toArray).toBytes = bytes := by
  obtain ⟨image, parsed⟩ : ∃ image, ofBytes? bytes = some image := by
    cases parsed : ofBytes? bytes with
    | none => simp [loadImage, ofFile, read, parsed] at loading
    | some image => exact ⟨image, rfl⟩
  rw [loadImage_of_parsed m read parsed] at loading
  obtain ⟨rfl, rfl⟩ : _ ∧ _ := by simpa using loading
  have count : image.placed = image.words.size := by
    rw [← size_words parsed] at whole
    exact whole
  have fits : image.origin.toNat + image.words.size ≤ 65536 := by
    have low := image.origin.isLt
    unfold placed Memory.room at count
    omega
  dsimp only
  rw [count, state_place, Memory.slice_place _ _ _ fits]
  exact toBytes_of_ofBytes? parsed even

/-- Object files go into memory and come back from it. -/
theorem loadImage_round_trips (m : Machine κ) (files : Files) (name : String) :
    (∀ image : Image, image.toBytes.toList =
      (image.origin :: image.words.toList).flatMap fun w =>
        [UInt8.ofNat (w.toNat / 256), UInt8.ofNat (w.toNat % 256)]) ∧
    (∀ bytes, files name = .ok bytes → 2 ≤ bytes.size →
      ∃ placement m', m.loadImage files name = (.ok placement, m') ∧
        Loads bytes name m placement m') ∧
    (∀ image : Image, files name = .ok image.toBytes →
      image.origin.toNat + image.words.size ≤ 65536 →
      ∃ m', m.loadImage files name = (.ok ⟨image.origin, image.words.size⟩, m') ∧
        m'.console = m.console ∧
        m'.state.memory.slice image.origin.toNat (image.origin.toNat + image.words.size : Nat) =
          image.words.toList) ∧
    (∀ bytes placement m', files name = .ok bytes → bytes.size % 2 = 0 →
      m.loadImage files name = (.ok placement, m') → placement.count = bytes.size / 2 - 1 →
      (Image.mk placement.origin (m'.state.memory.slice placement.origin.toNat
        (placement.origin.toNat + placement.count : Nat)).toArray).toBytes = bytes) ∧
    (∀ cause, files name = .error cause →
      m.loadImage files name = (.error (.unreadable cause), m)) ∧
    (∀ bytes, files name = .ok bytes → bytes.size < 2 →
      m.loadImage files name = (.error (.noOrigin name), m)) := by
  refine ⟨?_, ?_, ?_, ?_, ?_, ?_⟩
  · intro image
    simp only [toBytes, bytesOf, Word.high_eq, Word.low_eq]
  · intro bytes read long
    obtain ⟨image, parsed⟩ := exists_ofBytes?_iff.mpr long
    have loaded := loadImage_of_parsed m read parsed
    rw [placed_eq parsed] at loaded
    exact ⟨_, _, loaded, loads parsed m name⟩
  · exact fun image read fits => loadImage_toBytes m read fits
  · exact fun bytes placement m' read even loading whole =>
      toBytes_of_loadImage read even loading whole
  · intro cause unread
    apply loadImage_of_error
    simp [ofFile, unread]
  · intro bytes read short
    apply loadImage_of_error
    simp [ofFile, read, (ofBytes?_eq_none_iff bytes).mpr short]

end Machine

end LittleComputer
