import LittleComputer.Console.Tape
import LittleComputer.Machine.Summary
import Mathlib.Data.List.TakeWhile

/-! Reading a summary. A reader that knows only how a summary is laid out, and nothing of machines,
takes it apart into its entries, and from these the program counter, the condition and the registers
can be told. So no two states that differ in any of them are summed up alike. -/
namespace LittleComputer

namespace Word

def upperDigits : List Char := "0123456789ABCDEF".toList

def ofUpperDigits (digits : List Char) : Nat :=
  digits.foldl (fun n d => 16 * n + upperDigits.idxOf d) 0

/-- The word that an `x` and exactly four upper-case digits stand for. -/
def ofHex? (text : String) : Option Word :=
  match text.toList with
  | 'x' :: digits =>
    if digits.length = 4 ∧ digits.all upperDigits.contains = true then
      some (BitVec.ofNat 16 (ofUpperDigits digits))
    else none
  | _ => none

theorem hexDigit_mem (d : BitVec 4) : hexDigit d ∈ upperDigits := by
  revert d
  decide

theorem idxOf_hexDigit (d : BitVec 4) : upperDigits.idxOf (hexDigit d) = d.toNat := by
  revert d
  decide

theorem mem_upperDigits_of_mem_hexDigits {w : Word} {c : Char} (member : c ∈ hexDigits w) :
    c ∈ upperDigits := by
  simp only [hexDigits, List.mem_cons, List.not_mem_nil, or_false] at member
  obtain rfl | rfl | rfl | rfl := member <;> exact hexDigit_mem _

theorem ofUpperDigits_hexDigits (w : Word) : ofUpperDigits (hexDigits w) = w.toNat := by
  have bound : w.toNat < 65536 := w.isLt
  simp [ofUpperDigits, hexDigits, idxOf_hexDigit]
  omega

theorem toList_hex (w : Word) : w.hex.toList = 'x' :: hexDigits w := String.toList_ofList

theorem ofHex?_hex (w : Word) : ofHex? w.hex = some w := by
  have shape : (hexDigits w).length = 4 ∧ (hexDigits w).all upperDigits.contains = true :=
    ⟨length_hexDigits w, List.all_eq_true.mpr fun _ member =>
      List.contains_iff_mem.mpr (mem_upperDigits_of_mem_hexDigits member)⟩
  simp only [ofHex?, toList_hex]
  rw [if_pos shape, ofUpperDigits_hexDigits, BitVec.ofNat_toNat, BitVec.setWidth_eq]

end Word

/-- What the entries of a summary say, as they are written. -/
structure Readout where
  pc : String
  negative : String
  zero : String
  positive : String
  /-- In hexadecimal and as signed numbers, by the number of the register. -/
  registers : List (String × String)
  deriving DecidableEq, Repr

namespace Readout

/-- What comes after a fixed text, if that is what comes first. -/
def skip (text : String) (cs : List Char) : Option (List Char) :=
  if text.toList <+: cs then some (cs.drop text.toList.length) else none

/-- An entry that goes on to the next stop, and what comes after the stop. -/
def entry (stop : Char) (cs : List Char) : Option (String × List Char) :=
  match cs.dropWhile (· != stop) with
  | _ :: rest => some (String.ofList (cs.takeWhile (· != stop)), rest)
  | [] => none

def mark (letter : String) (cs : List Char) : Option (String × List Char) := do
  let cs ← skip (letter ++ ": ") cs
  entry ' ' cs

def register (number : Nat) (cs : List Char) : Option ((String × String) × List Char) := do
  let cs ← skip ("R" ++ toString number ++ ": ") cs
  let (hex, cs) ← entry ' ' cs
  let cs ← skip "(" cs
  let (decimal, cs) ← entry ')' cs
  let cs ← skip " " cs
  return ((hex, decimal), cs)

def line : List Nat → List Char → Option (List (String × String) × List Char)
  | [], cs => (skip "\n" cs).map fun cs => ([], cs)
  | number :: numbers, cs => do
    let (first, cs) ← register number cs
    let (rest, cs) ← line numbers cs
    return (first :: rest, cs)

def heading : String := "\n" ++ rule ++ "\nRegisters:\n" ++ rule ++ "\nPC: "

def ofSummary? (text : String) : Option Readout := do
  let cs ← skip heading text.toList
  let (pc, cs) ← entry '\n' cs
  let (negative, cs) ← mark "N" cs
  let (zero, cs) ← mark "Z" cs
  let (positive, cs) ← mark "P" cs
  let cs ← skip "\n" cs
  let (lower, cs) ← line [0, 1, 2, 3] cs
  let (upper, cs) ← line [4, 5, 6, 7] cs
  if cs = [] then some ⟨pc, negative, zero, positive, lower ++ upper⟩ else none

theorem skip_append (text : String) (cs : List Char) :
    skip text (text.toList ++ cs) = some cs := by
  rw [skip, if_pos (List.prefix_append _ _), List.drop_left]

theorem entry_append {stop : Char} {text : String} (absent : stop ∉ text.toList)
    (cs : List Char) : entry stop (text.toList ++ stop :: cs) = some (text, cs) := by
  have before : ∀ c ∈ text.toList, (c != stop) = true := by
    intro c member
    rw [bne_iff_ne]
    rintro rfl
    exact absent member
  rw [entry, List.takeWhile_append_of_pos before, List.dropWhile_append_of_pos before]
  simp

theorem not_mem_hex {stop : Char} (other : stop ∉ 'x' :: Word.upperDigits) (w : Word) :
    stop ∉ w.hex.toList := by
  rw [Word.toList_hex]
  intro member
  apply other
  obtain rfl | member := List.mem_cons.mp member
  · exact List.mem_cons_self
  · exact List.mem_cons_of_mem _ (Word.mem_upperDigits_of_mem_hexDigits member)

theorem isDigit_of_mem_repr {n : Nat} {c : Char} (member : c ∈ n.repr.toList) :
    c.isDigit = true := by
  rw [Nat.repr_eq_ofList_toDigits, String.toList_ofList] at member
  exact Nat.isDigit_of_mem_toDigits (by decide) (by decide) member

theorem not_mem_toString {stop : Char} (other : stop.isDigit = false) (unsigned : stop ≠ '-')
    (v : Int) : stop ∉ (toString v).toList := by
  have no_digit (n : Nat) : stop ∉ n.repr.toList := by
    intro member
    rw [isDigit_of_mem_repr member] at other
    cases other
  cases v with
  | ofNat n => exact no_digit n
  | negSucc n =>
    have written : (toString (Int.negSucc n)).toList = '-' :: n.succ.repr.toList := by
      rw [show toString (Int.negSucc n) = "-" ++ n.succ.repr from rfl, String.toList_append]
      rfl
    rw [written, List.mem_cons, not_or]
    exact ⟨unsigned, no_digit _⟩

variable (s : State)

theorem mark_append (letter : String) (code : Word) (cs : List Char) :
    mark letter ((s.conditionMark letter code).toList ++ cs) =
      some (if s.cond = code then "1" else "0", cs) := by
  have absent : ' ' ∉ (if s.cond = code then "1" else "0").toList := by
    split <;> decide
  have layout : (s.conditionMark letter code).toList ++ cs =
      (letter ++ ": ").toList ++ ((if s.cond = code then "1" else "0").toList ++ ' ' :: cs) := by
    simp [State.conditionMark]
  rw [layout, mark, skip_append]
  exact entry_append absent cs

theorem register_append (r : Reg) (cs : List Char) :
    register r.toNat ((s.registerEntry r).toList ++ cs) =
      some (((s.reg r).hex, toString (s.reg r).toInt), cs) := by
  have layout : (s.registerEntry r).toList ++ cs =
      ("R" ++ toString r.toNat ++ ": ").toList ++ ((s.reg r).hex.toList ++ ' ' :: ("(".toList ++
        ((toString (s.reg r).toInt).toList ++ ')' :: (" ".toList ++ cs)))) := by
    simp [State.registerEntry]
  have no_space : ' ' ∉ (s.reg r).hex.toList := not_mem_hex (by decide) _
  have no_bracket : ')' ∉ (toString (s.reg r).toInt).toList :=
    not_mem_toString (by decide) (by decide) _
  simp only [layout, register, skip_append, entry_append no_space, entry_append no_bracket,
    Option.bind_eq_bind, Option.bind_some]
  rfl

theorem line_append (rs : List Reg) (cs : List Char) :
    line (rs.map (·.toNat)) ((s.registerLine rs).toList ++ cs) =
      some (rs.map fun r => ((s.reg r).hex, toString (s.reg r).toInt), cs) := by
  induction rs with
  | nil =>
    have layout : (s.registerLine []).toList = "\n".toList := by simp [State.registerLine]
    rw [layout, List.map_nil, line, skip_append]
    rfl
  | cons r rest ih =>
    have layout : (s.registerLine (r :: rest)).toList ++ cs =
        (s.registerEntry r).toList ++ ((s.registerLine rest).toList ++ cs) := by
      simp [State.registerLine, String.join_cons]
    simp only [layout, List.map_cons, line, register_append, ih, Option.bind_eq_bind,
      Option.bind_some]
    rfl

def ofState : Readout where
  pc := s.pc.hex
  negative := if s.cond = Condition.negative then "1" else "0"
  zero := if s.cond = Condition.zero then "1" else "0"
  positive := if s.cond = Condition.positive then "1" else "0"
  registers := ([0, 1, 2, 3, 4, 5, 6, 7] : List Reg).map fun r =>
    ((s.reg r).hex, toString (s.reg r).toInt)

theorem ofSummary?_summary : ofSummary? s.summary = some (ofState s) := by
  have layout : s.summary.toList =
      heading.toList ++ (s.pc.hex.toList ++ '\n' ::
        ((s.conditionMark "N" Condition.negative).toList ++
          ((s.conditionMark "Z" Condition.zero).toList ++
            ((s.conditionMark "P" Condition.positive).toList ++ ("\n".toList ++
              ((s.registerLine [0, 1, 2, 3]).toList ++
                ((s.registerLine [4, 5, 6, 7]).toList ++ []))))))) := by
    simp [State.summary, heading, State.conditionLine]
  have no_end : '\n' ∉ s.pc.hex.toList := not_mem_hex (by decide) _
  have lower (cs : List Char) : line [0, 1, 2, 3] _ = _ := line_append s [0, 1, 2, 3] cs
  have upper (cs : List Char) : line [4, 5, 6, 7] _ = _ := line_append s [4, 5, 6, 7] cs
  simp only [ofSummary?, layout, skip_append, entry_append no_end, mark_append, lower, upper,
    Option.bind_eq_bind, Option.bind_some, if_true]
  rfl

/-- The entries are well formed, and stand for the words and the condition of a state. -/
structure Tells (shown : Readout) (s : State) : Prop where
  pc : Word.ofHex? shown.pc = some s.pc
  marks : ∀ mark ∈ [shown.negative, shown.zero, shown.positive], mark = "0" ∨ mark = "1"
  one_mark : [shown.negative, shown.zero, shown.positive].count "1" = 1
  negative : shown.negative = "1" ↔ s.cond = Condition.negative
  zero : shown.zero = "1" ↔ s.cond = Condition.zero
  positive : shown.positive = "1" ↔ s.cond = Condition.positive
  eight : shown.registers.length = 8
  /-- The decimal is that of the only number in the range of a signed word that is congruent to the
  register. -/
  registers : ∀ r : Reg, ∃ hex v, shown.registers[r.toNat]? = some (hex, toString v) ∧
    Word.ofHex? hex = some (s.reg r) ∧
    ∀ u : Int, -32768 ≤ u ∧ u ≤ 32767 ∧ u % 65536 = (s.reg r).toNat ↔ u = v

variable {s}

theorem registers_ofState (r : Reg) :
    (ofState s).registers[r.toNat]? = some ((s.reg r).hex, toString (s.reg r).toInt) := by
  have listed : ([0, 1, 2, 3, 4, 5, 6, 7] : List Reg)[r.toNat]? = some r := by
    revert r
    decide
  rw [ofState, List.getElem?_map, listed]
  rfl

theorem eq_toInt_iff (w : Word) (u : Int) :
    -32768 ≤ u ∧ u ≤ 32767 ∧ u % 65536 = w.toNat ↔ u = w.toInt := by
  have bound : w.toNat < 65536 := w.isLt
  rw [BitVec.toInt_eq_toNat_cond]
  split <;> omega

theorem tells_ofState (valid : s.WellFormed) : (ofState s).Tells s where
  pc := Word.ofHex?_hex s.pc
  marks := by
    have digit (holds : Prop) [Decidable holds] :
        (if holds then "1" else "0") = "0" ∨ (if holds then "1" else "0") = "1" := by
      split <;> simp
    simp only [ofState, List.mem_cons, List.not_mem_nil, or_false]
    rintro mark (rfl | rfl | rfl) <;> exact digit _
  one_mark := by
    rcases valid with code | code | code <;> simp only [ofState, code] <;> decide
  negative := by simp [ofState]
  zero := by simp [ofState]
  positive := by simp [ofState]
  eight := rfl
  registers r := ⟨_, _, registers_ofState r, Word.ofHex?_hex _, eq_toInt_iff _⟩

theorem Tells.agree {shown : Readout} {t : State} (valid : s.WellFormed) (here : shown.Tells s)
    (there : shown.Tells t) : t.pc = s.pc ∧ t.cond = s.cond ∧ t.registers = s.registers := by
  refine ⟨?_, ?_, ?_⟩
  · exact Option.some.inj (there.pc.symm.trans here.pc)
  · rcases valid with code | code | code
    · exact (there.positive.mp (here.positive.mpr code)).trans code.symm
    · exact (there.zero.mp (here.zero.mpr code)).trans code.symm
    · exact (there.negative.mp (here.negative.mpr code)).trans code.symm
  · apply Registers.ext_get
    intro r
    obtain ⟨hex, v, found, word, _⟩ := here.registers r
    obtain ⟨hex', v', found', word', _⟩ := there.registers r
    obtain ⟨rfl, _⟩ := Prod.mk.inj (Option.some.inj (found.symm.trans found'))
    exact Option.some.inj (word'.symm.trans word)

end Readout

namespace Machine

open Readout

/-- The summary that a machine reports can be read, and what is read tells the machine's program
counter, condition and registers. States that are summed up alike agree on them. -/
theorem summary_tells_registers {κ : Type} [Console κ] (m : Machine κ)
    (valid : m.state.WellFormed) :
    let text := m.state.summary
    m.reportSummary = m.report (.print text) ∧
    (∃ shown, ofSummary? text = some shown ∧ shown.Tells m.state) ∧
    ∀ t : State, t.WellFormed → t.summary = text →
      t.pc = m.state.pc ∧ t.cond = m.state.cond ∧ t.registers = m.state.registers := by
  intro text
  have told := tells_ofState valid
  refine ⟨rfl, ⟨_, ofSummary?_summary m.state, told⟩, ?_⟩
  intro t valid' same
  have read : ofState t = ofState m.state := by
    have again := ofSummary?_summary t
    rw [same, ofSummary?_summary] at again
    exact (Option.some.inj again).symm
  exact told.agree valid (read ▸ tells_ofState valid')

/-- The least signed word, in a register of its own beside a negative condition. -/
theorem summary_tells_registers_of_least :
    let s : State := { State.initial.assign 7 0x8000 with pc := 0xFFFF }
    s.WellFormed ∧ ∃ shown, ofSummary? s.summary = some shown ∧
      Word.ofHex? shown.pc = some 0xFFFF ∧ shown.negative = "1" ∧
      ∃ hex, shown.registers[7]? = some (hex, toString (-32768 : Int)) ∧
        Word.ofHex? hex = some 0x8000 := by
  intro s
  have valid : s.WellFormed := State.wellFormed_assign State.initial 7 0x8000
  have held : s.reg 7 = 0x8000 := (State.reg_assign State.initial 7 7 0x8000).trans (if_pos rfl)
  have negative : s.cond = Condition.negative := by decide
  obtain ⟨_, ⟨shown, read, told⟩, _⟩ := summary_tells_registers (⟨s, {}⟩ : Machine Tape) valid
  obtain ⟨hex, v, found, word, only⟩ := told.registers 7
  obtain rfl : -32768 = v := (only _).mp (by rw [held]; decide)
  exact ⟨valid, shown, read, told.pc, told.negative.mpr negative, hex, found,
    word.trans (by rw [held])⟩

end Machine

end LittleComputer
