import LittleComputer.Proofs.Printing

/-! Packed texts. A byte that is not zero can have a word for itself or share one with its
neighbour, and each of the two ways has its service; both services write the bytes that were stored,
wherever in memory and in what company. -/
namespace LittleComputer

/-- Bytes two to a word, the first of them low. A last byte without a partner has its word alone. -/
def packed : List UInt8 → List Word
  | [] => []
  | [b] => [Word.ofBytes 0 b]
  | low :: high :: rest => Word.ofBytes high low :: packed rest

theorem Word.ne_zero_of_low {w : Word} (nonzero : w.low ≠ 0) : w ≠ 0 := by
  rintro rfl
  exact nonzero (by decide)

theorem flatMap_unpack_packed {bs : List UInt8} (nonzero : ∀ b ∈ bs, b ≠ 0) :
    (packed bs).flatMap Machine.unpack = bs := by
  fun_induction packed bs with
  | case1 => rfl
  | case2 b => simp [Machine.unpack]
  | case3 low high rest ih =>
    have apart : high ≠ 0 := nonzero high (by simp)
    have later := ih fun b member => nonzero b (by simp [member])
    simp [Machine.unpack, apart, later]

/-- The low byte of a packed word is one of the bytes, so it keeps the word from being zero. -/
theorem ne_zero_of_mem_packed {bs : List UInt8} (nonzero : ∀ b ∈ bs, b ≠ 0) :
    ∀ w ∈ packed bs, w ≠ 0 := by
  fun_induction packed bs with
  | case1 => simp
  | case2 b =>
    have apart : b ≠ 0 := nonzero b (by simp)
    have here : Word.ofBytes 0 b ≠ 0 := Word.ne_zero_of_low (by simpa using apart)
    exact List.forall_mem_singleton.mpr here
  | case3 low high rest ih =>
    have apart : low ≠ 0 := nonzero low (by simp)
    have here : Word.ofBytes high low ≠ 0 := Word.ne_zero_of_low (by simpa using apart)
    exact List.forall_mem_cons.mpr ⟨here, ih fun b member => nonzero b (by simp [member])⟩

theorem length_packed_le (bs : List UInt8) : (packed bs).length ≤ bs.length := by
  fun_induction packed bs with
  | case1 => simp
  | case2 b => simp
  | case3 low high rest ih =>
    simp only [List.length_cons]
    omega

theorem ne_zero_of_low_mem {words : List Word} (nonzero : ∀ b ∈ words.map Word.low, b ≠ 0) :
    ∀ w ∈ words, w ≠ 0 :=
  fun w member => Word.ne_zero_of_low (nonzero w.low (List.mem_map_of_mem member))

namespace Memory

/-- The words stand in the cells from an address up and round the top, with a zero word after
them. -/
structure HoldsText (mem : Memory) (a : Word) (words : List Word) : Prop where
  word : ∀ i (within : i < words.length), mem.get (a + BitVec.ofNat 16 i) = words[i]
  ends : mem.get (a + BitVec.ofNat 16 words.length) = 0

/-- A memory that holds the words from an address up, and zero everywhere else. -/
def ofText (a : Word) (words : List Word) : Memory :=
  ofFn fun cell => words[(BitVec.ofNat 16 cell - a).toNat]?.getD 0

variable {mem : Memory} {a : Word} {words : List Word}

theorem get_ofText (a : Word) (words : List Word) (b : Word) :
    (ofText a words).get b = words[(b - a).toNat]?.getD 0 := by
  simp [get, ofText, ofFn]

/-- There is room for a text that leaves a cell for its zero word. -/
theorem holdsText_ofText (a : Word) (fits : words.length < 65536) :
    (ofText a words).HoldsText a words := by
  have distance {i : Nat} (small : i < 65536) : (a + BitVec.ofNat 16 i - a).toNat = i := by
    rw [BitVec.add_comm, BitVec.add_sub_cancel, BitVec.toNat_ofNat]
    exact Nat.mod_eq_of_lt small
  constructor
  · intro i within
    rw [get_ofText, distance (by omega)]
    simp [within]
  · rw [get_ofText, distance fits]
    simp

theorem HoldsText.firstZero (holds : mem.HoldsText a words) (nonzero : ∀ w ∈ words, w ≠ 0) :
    mem.FirstZero a words.length where
  zero := holds.ends
  earlier i within := by
    rw [holds.word i within]
    exact nonzero _ (List.getElem_mem within)

theorem HoldsText.words_eq (holds : mem.HoldsText a words) :
    mem.words a words.length = words := by
  apply List.ext_getElem
  · simp [Memory.words]
  · intro i _ within
    simpa [Memory.words] using holds.word i within

end Memory

namespace Machine

variable {κ : Type} [Console κ] {m : Machine κ} {bs : List UInt8} {words : List Word}

theorem utters_of_packed (nonzero : ∀ b ∈ bs, b ≠ 0)
    (holds : m.state.memory.HoldsText (m.state.reg 0) (packed bs)) : m.Utters 0x24 bs := by
  have uttered := utters_putsp (holds.firstZero (ne_zero_of_mem_packed nonzero))
  rwa [textBytes, holds.words_eq, flatMap_unpack_packed nonzero] at uttered

theorem utters_of_unpacked (nonzero : ∀ b ∈ bs, b ≠ 0) (low : words.map Word.low = bs)
    (holds : m.state.memory.HoldsText (m.state.reg 0) words) : m.Utters 0x22 bs := by
  subst low
  have uttered := utters_puts (holds.firstZero (ne_zero_of_low_mem nonzero))
  rwa [textBytes, holds.words_eq, ← List.map_eq_flatMap] at uttered

/-- Whichever way the bytes are stored, and wherever, there are memories that hold them, and the
service for that way writes just these bytes and flushes them once. -/
theorem packed_prints_like_unpacked (nonzero : ∀ b ∈ bs, b ≠ 0) (short : bs.length < 65536)
    (a b : Word) :
    (∃ mem : Memory, mem.HoldsText a (packed bs)) ∧
    (∀ words : List Word, words.map Word.low = bs → ∃ mem : Memory, mem.HoldsText b words) ∧
    ∀ (κ : Type) [Console κ] (m n : Machine κ) (words : List Word),
      m.state.reg 0 = a → m.state.memory.HoldsText a (packed bs) →
      n.state.reg 0 = b → n.state.memory.HoldsText b words → words.map Word.low = bs →
        m.Utters 0x24 bs ∧ n.Utters 0x22 bs ∧
        (m.console = n.console →
          (m.perform (.trap 0x24)).2.console = (n.perform (.trap 0x22)).2.console) := by
  refine ⟨?_, ?_, ?_⟩
  · have fits : (packed bs).length < 65536 := Nat.lt_of_le_of_lt (length_packed_le bs) short
    exact ⟨_, Memory.holdsText_ofText a fits⟩
  · intro words low
    have fits : words.length < 65536 := by simpa [← low] using short
    exact ⟨_, Memory.holdsText_ofText b fits⟩
  · rintro κ _ m n words rfl packs rfl holds low
    have uttered := utters_of_packed nonzero packs
    have uttered_too := utters_of_unpacked nonzero low holds
    refine ⟨uttered, uttered_too, ?_⟩
    intro same
    rw [uttered.returns, uttered_too.returns, same]

/-- Three bytes are packed into the last cell of memory and the first, and stand one by one in cells
with other bytes beside them, the keyboard's status among these. -/
theorem packed_prints_like_unpacked_of_three :
    let bs : List UInt8 := [0x48, 0x69, 0x21]
    let words : List Word := [0x1248, 0xFF69, 0x0021]
    let s : State := { State.initial.setReg 0 0xFFFF with memory := .ofText 0xFFFF (packed bs) }
    let t : State := { State.initial.setReg 0 0xFDFF with memory := .ofText 0xFDFF words }
    let c : Tape := { keys := [120] }
    (∀ b ∈ bs, b ≠ 0) ∧ bs.length < 65536 ∧ Utters ⟨s, c⟩ 0x24 bs ∧ Utters ⟨t, c⟩ 0x22 bs := by
  intro bs words s t c
  have nonzero : ∀ b ∈ bs, b ≠ 0 := by simp [bs]
  have short : bs.length < 65536 := by decide
  have packs : s.memory.HoldsText 0xFFFF (packed bs) := Memory.holdsText_ofText _ (by decide)
  have holds : t.memory.HoldsText 0xFDFF words := Memory.holdsText_ofText _ (by decide)
  obtain ⟨_, _, prints⟩ := packed_prints_like_unpacked nonzero short 0xFFFF 0xFDFF
  obtain ⟨uttered, uttered_too, _⟩ := prints Tape ⟨s, c⟩ ⟨t, c⟩ words
    (Registers.get_set_self ..) packs (Registers.get_set_self ..) holds (by decide)
  exact ⟨nonzero, short, uttered, uttered_too⟩

end Machine

end LittleComputer
