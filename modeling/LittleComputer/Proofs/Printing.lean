import LittleComputer.Console.Notebook
import LittleComputer.Console.Pipe
import LittleComputer.Console.Tape
import LittleComputer.Proofs.Outcomes
import LittleComputer.Proofs.Recorder
import Mathlib.Data.Nat.Find

/-! Texts that are printed word by word. The loop of a service that prints keeps no count: each turn
writes the word that it has come to and goes on to the next address, round the top of memory if need
be, and only a zero word ends it. So it ends exactly if some cell holds zero, after fewer turns than
there are cells; and it is all that the service does, apart from the link. -/
namespace LittleComputer

namespace Memory

/-- Going up from an address and round the top, the first zero word is met at this distance. -/
structure FirstZero (mem : Memory) (a : Word) (distance : Nat) : Prop where
  zero : mem.get (a + BitVec.ofNat 16 distance) = 0
  earlier : ∀ i < distance, mem.get (a + BitVec.ofNat 16 i) ≠ 0

def words (mem : Memory) (a : Word) (n : Nat) : List Word :=
  (List.range n).map fun i => mem.get (a + BitVec.ofNat 16 i)

variable {mem : Memory} {a : Word} {k : Nat}

@[simp] theorem add_one_ofNat (a : Word) (i : Nat) :
    a + 1 + BitVec.ofNat 16 i = a + BitVec.ofNat 16 (i + 1) := by
  rw [Nat.add_comm i, BitVec.ofNat_add, ← BitVec.add_assoc]
  rfl

theorem words_succ (mem : Memory) (a : Word) (n : Nat) :
    mem.words a (n + 1) = mem.get a :: mem.words (a + 1) n := by
  simp only [words, List.range_succ_eq_map, add_one_ofNat]
  simp

theorem words_set_of_ne (mem : Memory) {a b : Word} (w : Word) {n : Nat}
    (apart : ∀ i < n, a ≠ b + BitVec.ofNat 16 i) : (mem.set a w).words b n = mem.words b n := by
  apply List.map_congr_left
  intro i within
  exact get_set_of_ne _ _ (apart i (List.mem_range.mp within))

/-- Distances that differ by the number of cells lead to the same cell. -/
theorem FirstZero.lt (first : mem.FirstZero a k) : k < 65536 := by
  by_contra far
  have same : BitVec.ofNat 16 (k - 65536) = BitVec.ofNat 16 k := by
    apply BitVec.eq_of_toNat_eq
    simp only [BitVec.toNat_ofNat]
    omega
  apply first.earlier (k - 65536) (by omega)
  rw [same]
  exact first.zero

theorem FirstZero.unique {n : Nat} (first : mem.FirstZero a k) (other : mem.FirstZero a n) :
    k = n := by
  rcases Nat.lt_trichotomy k n with less | same | more
  · exact absurd first.zero (other.earlier k less)
  · exact same
  · exact absurd other.zero (first.earlier n more)

theorem exists_firstZero (a : Word) {b : Word} (zero : mem.get b = 0) :
    ∃ k, mem.FirstZero a k := by
  have met : ∃ k, mem.get (a + BitVec.ofNat 16 k) = 0 := ⟨(b - a).toNat, by rwa [add_distance]⟩
  exact ⟨Nat.find met, Nat.find_spec met, fun i below => Nat.find_min met below⟩

theorem zeroFrom_of_firstZero (first : mem.FirstZero a k) {fuel distance : Nat}
    (reached : distance ≤ k) (within : k < distance + fuel) :
    mem.zeroFrom a fuel distance = some k := by
  induction fuel generalizing distance with
  | zero => omega
  | succ fuel ih =>
    unfold zeroFrom
    rcases Nat.lt_or_eq_of_le reached with before | rfl
    · rw [if_neg (first.earlier distance before)]
      exact ih before (by omega)
    · rw [if_pos first.zero]

theorem textFrom?_of_firstZero (first : mem.FirstZero a k) :
    mem.textFrom? a = some (mem.words a k) := by
  have within : k < 0 + 65536 := by simpa using first.lt
  simp [textFrom?, words, zeroFrom_of_firstZero first (Nat.zero_le k) within]

theorem zeroFrom_eq_none (apart : ∀ b, mem.get b ≠ 0) (fuel distance : Nat) :
    mem.zeroFrom a fuel distance = none := by
  induction fuel generalizing distance with
  | zero => rfl
  | succ fuel ih => rw [zeroFrom, if_neg (apart _), ih]

theorem textFrom?_eq_none (apart : ∀ b, mem.get b ≠ 0) : mem.textFrom? a = none := by
  simp [textFrom?, zeroFrom_eq_none apart]

end Memory

/-- A text on its way to the console: the address that has been come to, and the console by then. -/
structure Printing (κ : Type) where
  location : Word
  console : κ

namespace Printing

variable {κ : Type} [Console κ]

def writeEach (bytes : List UInt8) (console : κ) : κ :=
  bytes.foldl (fun console b => Console.write [b] console) console

/-- One turn of the loop. There is none at a zero word. -/
def turn? (mem : Memory) (bytesOf : Word → List UInt8) (p : Printing κ) : Option (Printing κ) :=
  if mem.get p.location = 0 then none
  else some ⟨p.location + 1, writeEach (bytesOf (mem.get p.location)) p.console⟩

/-- What `n` turns lead to, if the loop makes as many. -/
def turns? (mem : Memory) (bytesOf : Word → List UInt8) : Nat → Printing κ → Option (Printing κ)
  | 0, p => some p
  | n + 1, p => (p.turn? mem bytesOf).bind (turns? mem bytesOf n)

variable {mem : Memory} {bytesOf : Word → List UInt8}

theorem writeEach_append (first second : List UInt8) (console : κ) :
    writeEach (first ++ second) console = writeEach second (writeEach first console) :=
  List.foldl_append

/-- The loop makes `n` turns exactly if it does not meet a zero word by then. -/
theorem turns?_eq_some_iff (n : Nat) (p q : Printing κ) :
    p.turns? mem bytesOf n = some q ↔
      (∀ i < n, mem.get (p.location + BitVec.ofNat 16 i) ≠ 0) ∧
      q = ⟨p.location + BitVec.ofNat 16 n,
        writeEach ((mem.words p.location n).flatMap bytesOf) p.console⟩ := by
  induction n generalizing p with
  | zero => simp [turns?, Memory.words, writeEach, eq_comm]
  | succ n ih =>
    have here : p.location + BitVec.ofNat 16 0 = p.location := by simp
    rw [Nat.forall_lt_succ_left, here]
    by_cases zero : mem.get p.location = 0
    · have stops : p.turn? mem bytesOf = none := if_pos zero
      simp [turns?, stops, zero]
    · have turned : p.turn? mem bytesOf =
          some ⟨p.location + 1, writeEach (bytesOf (mem.get p.location)) p.console⟩ := if_neg zero
      simp only [turns?, turned, Option.bind_some, ih, Memory.add_one_ofNat, Memory.words_succ,
        List.flatMap_cons, writeEach_append, ne_eq, zero, not_false_eq_true, true_and]

end Printing

/-- A console on which it makes no difference in how many pieces something is written. -/
structure Piecewise (κ : Type) [Console κ] : Prop where
  nothing (c : κ) : Console.write [] c = c
  append (first second : List UInt8) (c : κ) :
    Console.write (first ++ second) c = Console.write second (Console.write first c)

theorem Display.write_append (first second : List UInt8) (d : Display) :
    d.write (first ++ second) = (d.write first).write second := by
  simp [write, ← Array.toList_inj]

theorem Tape.piecewise : Piecewise Tape where
  nothing t := by simp [Console.write, Display.write]
  append first second t := by simp [Console.write, Display.write_append]

theorem Pipe.piecewise : Piecewise Pipe where
  nothing p := by simp [Console.write, Display.write]
  append first second p := by simp [Console.write, Display.write_append]

theorem Notebook.piecewise : Piecewise Notebook where
  nothing nb := by simp [Console.write]
  append first second nb := by simp [Console.write, ← Array.toList_inj]

namespace Machine

/-- The bytes of the words at the distances below `n` from the address in register 0. -/
def textBytes (m : Machine κ) (bytesOf : Word → List UInt8) (n : Nat) : List UInt8 :=
  (m.state.memory.words (m.state.reg 0) n).flatMap bytesOf

def linked (m : Machine κ) : Machine κ := m.map fun s => s.setReg 7 s.pc

/-- The link is made in register 7, so a text starts where it did. -/
theorem reg_linked (m : Machine κ) : m.linked.state.reg 0 = m.state.reg 0 := by
  simp [linked, map]

theorem textBytes_linked (m : Machine κ) (bytesOf : Word → List UInt8) (k : Nat) :
    m.linked.textBytes bytesOf k = m.textBytes bytesOf k := by
  rw [textBytes, reg_linked]
  rfl

end Machine

variable {κ : Type} [Console κ]

theorem Piecewise.writeEach_eq (pieces : Piecewise κ) (bytes : List UInt8) (c : κ) :
    Printing.writeEach bytes c = Console.write bytes c := by
  induction bytes generalizing c with
  | nil => exact (pieces.nothing c).symm
  | cons b rest ih => exact (ih (Console.write [b] c)).trans (pieces.append [b] rest c).symm

namespace Machine

/-- The loop comes to its end after `n` turns, and a flush of what they have written leads to the
machine `last`. -/
def EndsPrinting (m : Machine κ) (bytesOf : Word → List UInt8) (n : Nat)
    (last : Machine κ) : Prop :=
  ∃ p, Printing.turns? m.state.memory bytesOf n ⟨m.state.reg 0, m.console⟩ = some p ∧
    p.turn? m.state.memory bytesOf = none ∧ last = { m with console := Console.flush p.console }

variable {m : Machine κ} {bytesOf : Word → List UInt8}

theorem endsPrinting_iff (pieces : Piecewise κ) {n : Nat} {last : Machine κ} :
    m.EndsPrinting bytesOf n last ↔
      m.state.memory.FirstZero (m.state.reg 0) n ∧
      last = (m.write (m.textBytes bytesOf n)).flush := by
  constructor
  · rintro ⟨p, turned, ended, rfl⟩
    obtain ⟨earlier, rfl⟩ := (Printing.turns?_eq_some_iff ..).mp turned
    refine ⟨⟨by simpa [Printing.turn?] using ended, earlier⟩, ?_⟩
    rw [pieces.writeEach_eq]
    rfl
  · rintro ⟨first, rfl⟩
    refine ⟨_, (Printing.turns?_eq_some_iff ..).mpr ⟨first.earlier, rfl⟩, if_pos first.zero, ?_⟩
    rw [pieces.writeEach_eq]
    rfl

theorem putText_of_firstZero {k : Nat} (first : m.state.memory.FirstZero (m.state.reg 0) k) :
    m.putText bytesOf = (.done, (m.write (m.textBytes bytesOf k)).flush) := by
  rw [putText, Memory.textFrom?_of_firstZero first]
  rfl

theorem putText_of_no_zero (apart : ∀ b, m.state.memory.get b ≠ 0) :
    m.putText bytesOf = (.unending, m) := by
  rw [putText, Memory.textFrom?_eq_none apart]

/-- What is done about a text is what the loop does, if it comes to an end. -/
theorem putText_eq_done_iff (pieces : Piecewise κ) {last : Machine κ} :
    m.putText bytesOf = (.done, last) ↔ ∃ n, m.EndsPrinting bytesOf n last := by
  constructor
  · intro printed
    by_cases held : ∃ b, m.state.memory.get b = 0
    · obtain ⟨b, zero⟩ := held
      obtain ⟨k, first⟩ := Memory.exists_firstZero (m.state.reg 0) zero
      rw [putText_of_firstZero first] at printed
      exact ⟨k, (endsPrinting_iff pieces).mpr ⟨first, (Prod.mk.inj printed).2.symm⟩⟩
    · rw [putText_of_no_zero (not_exists.mp held)] at printed
      cases printed
  · rintro ⟨n, printed⟩
    obtain ⟨first, rfl⟩ := (endsPrinting_iff pieces).mp printed
    exact putText_of_firstZero first

/-- A trap writes the bytes, flushes them, returns, and does nothing else but to make its link. -/
structure Utters (m : Machine κ) (vector : BitVec 8) (bytes : List UInt8) : Prop where
  returns : m.perform (.trap vector) =
    (.done, ⟨m.state.setReg 7 m.state.pc, Console.flush (Console.write bytes m.console)⟩)
  events : (m.record.perform (.trap vector)).2.console.events = [.wrote bytes, .flushed]

theorem utters_of_perform {vector : BitVec 8} {k : Nat}
    (performs : m.perform (.trap vector) = m.linked.putText bytesOf)
    (records : m.record.perform (.trap vector) = m.record.linked.putText bytesOf)
    (first : m.state.memory.FirstZero (m.state.reg 0) k) :
    m.Utters vector (m.textBytes bytesOf k) := by
  have found : m.linked.state.memory.FirstZero (m.linked.state.reg 0) k := by
    rw [reg_linked]
    exact first
  constructor
  · rw [performs, putText_of_firstZero found, textBytes_linked]
    rfl
  · rw [records, putText_of_firstZero (m := m.record.linked) found, textBytes_linked]
    rfl

theorem utters_puts {k : Nat} (first : m.state.memory.FirstZero (m.state.reg 0) k) :
    m.Utters 0x22 (m.textBytes (fun w => [w.low]) k) :=
  utters_of_perform rfl rfl first

theorem utters_putsp {k : Nat} (first : m.state.memory.FirstZero (m.state.reg 0) k) :
    m.Utters 0x24 (m.textBytes unpack k) :=
  utters_of_perform rfl rfl first

/-- A trap prints the text at the address in register 0, a word as these bytes. -/
structure PrintsText (m : Machine κ) (vector : BitVec 8) (bytesOf : Word → List UInt8) : Prop where
  /-- It returns when the loop ends, and with what the loop has left. -/
  returns : ∀ last,
    m.perform (.trap vector) = (.done, last) ↔ ∃ n, m.linked.EndsPrinting bytesOf n last
  ends : ∀ b, m.state.memory.get b = 0 →
    ∃ k ≤ 65535, m.state.memory.FirstZero (m.state.reg 0) k ∧
      m.Utters vector (m.textBytes bytesOf k)
  /-- Without a zero word, no turn of the loop is the last. -/
  endless : (∀ b, m.state.memory.get b ≠ 0) →
    (m.perform (.trap vector)).1 = .unending ∧
    ∀ n, (Printing.turns? m.state.memory bytesOf n ⟨m.state.reg 0, m.console⟩).isSome

theorem printsText_of_perform {vector : BitVec 8} (pieces : Piecewise κ)
    (performs : m.perform (.trap vector) = m.linked.putText bytesOf)
    (records : m.record.perform (.trap vector) = m.record.linked.putText bytesOf) :
    m.PrintsText vector bytesOf where
  returns last := by
    rw [performs]
    exact putText_eq_done_iff pieces
  ends b zero := by
    obtain ⟨k, first⟩ := Memory.exists_firstZero (m.state.reg 0) zero
    exact ⟨k, Nat.le_of_lt_succ first.lt, first, utters_of_perform performs records first⟩
  endless apart := by
    rw [performs, putText_of_no_zero (m := m.linked) apart]
    refine ⟨rfl, fun n => ?_⟩
    rw [(Printing.turns?_eq_some_iff n _ _).mpr ⟨fun i _ => apart _, rfl⟩]
    rfl

theorem printsText_both (pieces : Piecewise κ) (m : Machine κ) :
    (m.PrintsText 0x22 fun w => [w.low]) ∧
      m.PrintsText 0x24 fun w => if w.high = 0 then [w.low] else [w.low, w.high] :=
  ⟨printsText_of_perform pieces rfl rfl, printsText_of_perform pieces rfl rfl⟩

/-- On every console, a text is printed up to the first zero word, round the top of memory if need
be, and no further; and it is printed for ever if there is none. -/
theorem text_ends_at_first_zero (s : State) :
    (∀ t : Tape,
      (PrintsText ⟨s, t⟩ 0x22 fun w => [w.low]) ∧
      PrintsText ⟨s, t⟩ 0x24 fun w => if w.high = 0 then [w.low] else [w.low, w.high]) ∧
    (∀ p : Pipe,
      (PrintsText ⟨s, p⟩ 0x22 fun w => [w.low]) ∧
      PrintsText ⟨s, p⟩ 0x24 fun w => if w.high = 0 then [w.low] else [w.low, w.high]) ∧
    ∀ nb : Notebook,
      (PrintsText ⟨s, nb⟩ 0x22 fun w => [w.low]) ∧
      PrintsText ⟨s, nb⟩ 0x24 fun w => if w.high = 0 then [w.low] else [w.low, w.high] := by
  refine ⟨?_, ?_, ?_⟩
  · intro t
    exact printsText_both Tape.piecewise ⟨s, t⟩
  · intro p
    exact printsText_both Pipe.piecewise ⟨s, p⟩
  · intro nb
    exact printsText_both Notebook.piecewise ⟨s, nb⟩

/-- A text that runs over the keyboard's status prints what is stored there and takes no key, and
nothing ends a text in a memory of ones. -/
theorem text_ends_at_first_zero_past_keyboard :
    let s := ((State.initial.setReg 0 0xFDFF).store 0xFDFF 0x4241).store 0xFE00 0x0043
    let t : Tape := { keys := [120] }
    let ones : State := { State.initial with memory := .ofFn fun _ => 1 }
    perform ⟨s, t⟩ (.trap 0x24) =
      (.done, ⟨s.setReg 7 0x3000,
        { keys := [120], display := (({} : Display).write [0x41, 0x42, 0x43]).flush }⟩) ∧
    (perform ⟨ones, t⟩ (.trap 0x22)).1 = .unending := by
  intro s t ones
  have start : s.reg 0 = 0xFDFF := Registers.get_set_self ..
  have held (a : Word) : s.memory.get a =
      if 0xFE00 = a then 0x0043 else if 0xFDFF = a then 0x4241 else 0 := by
    simp [s, State.store, Memory.get_set, State.setReg, State.initial]
  have first : s.memory.FirstZero (s.reg 0) 2 := by
    constructor
    · rw [start, held]
      rfl
    · rw [start]
      intro i below
      rw [held]
      rcases (by omega : i = 0 ∨ i = 1) with rfl | rfl <;> decide
  obtain ⟨k, _, found, printed⟩ := ((text_ends_at_first_zero s).1 t).2.ends _ first.zero
  obtain rfl := first.unique found
  have apart (b : Word) : ones.memory.get b ≠ 0 := by
    simp [ones, Memory.get, Memory.ofFn]
  refine ⟨printed.returns.trans ?_, (((text_ends_at_first_zero ones).1 t).1.endless apart).1⟩
  have bytes : textBytes ⟨s, t⟩ (fun w => if w.high = 0 then [w.low] else [w.low, w.high]) 2 =
      [0x41, 0x42, 0x43] := by
    simp only [textBytes, Memory.words, start, held]
    rfl
  rw [bytes]
  rfl

end Machine

end LittleComputer
