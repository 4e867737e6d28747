import LittleComputer.Machine
import LittleComputer.Word.Integer
import Mathlib.Data.Int.Bitwise
import Mathlib.Logic.Function.Basic

/-! The instruction set on integers. A machine is a record of numbers; the fields of an
instruction word are digits of it, immediate operands and offsets are two's-complement numbers,
and sums are taken modulo the size of memory. Nothing here decodes or masks a word: it is the
reading that `Machine.step` is compared with. -/
namespace LittleComputer

structure Numbers (κ : Type) where
  register : Int → Int
  pc : Int
  cond : Int
  cell : Int → Int
  count : Int
  spare : List (Int × Word)
  running : Bool
  warn : Bool
  console : κ

namespace Numbers

/-- The number that stands in the bits of `w` from `low` up to `high`, both included. -/
def field (w : Int) (high low : Nat) : Int := w / Integer.span low % Integer.span (high + 1 - low)

/-- The lowest `width` bits of `w` as a two's-complement number. -/
def signedField (w : Int) (width : Nat) : Int :=
  let bits := field w (width - 1) 0
  if bits < Integer.span (width - 1) then bits else bits - Integer.span width

/-- The condition that describes a result: 4 below zero, 2 at zero and 1 above, where the upper
half of the words are the negative numbers. -/
def sign (v : Int) : Int := if v = 0 then 2 else if v < 32768 then 1 else 4

/-- Whether a branch is taken: one of its marks n, z and p is that of the condition. -/
def meets (w cond : Int) : Bool :=
  field w 11 11 = 1 ∧ cond = 4 ∨ field w 10 10 = 1 ∧ cond = 2 ∨ field w 9 9 = 1 ∧ cond = 1

variable {κ : Type}

def assign (n : Numbers κ) (target v : Int) : Numbers κ :=
  { n with register := Function.update n.register target v, cond := sign v }

def store (n : Numbers κ) (a v : Int) : Numbers κ := { n with cell := Function.update n.cell a v }

def link (n : Numbers κ) : Numbers κ := { n with register := Function.update n.register 7 n.pc }

def operand (n : Numbers κ) (w : Int) : Int :=
  if field w 5 5 = 0 then n.register (field w 2 0) else signedField w 5

/-- The cell at an address; the keyboard's status is polled before it is read. -/
def read [Console κ] (n : Numbers κ) (a : Int) : Int × Numbers κ :=
  if a = 0xFE00 then
    match Console.poll n.console with
    | (some key, console) =>
      (0x8000, ({ n with console }.store 0xFE00 0x8000).store 0xFE02 (key.code % 65536))
    | (none, console) => (0, { n with console }.store 0xFE00 0)
  else (n.cell a, n)

/-- What the word `w` does when the program counter is past it already. Nothing is said of the
reserved codes and of traps. -/
def execute [Console κ] (n : Numbers κ) (w : Int) : Option (Numbers κ) :=
  let target := field w 11 9
  let base := n.register (field w 8 6)
  let near := (n.pc + signedField w 9) % 65536
  let beside := (base + signedField w 6) % 65536
  match field w 15 12 with
  | 0 => some (if meets w n.cond then { n with pc := near } else n)
  | 1 => some (n.assign target ((base + n.operand w) % 65536))
  | 2 =>
    let (v, n) := n.read near
    some (n.assign target v)
  | 3 => some (n.store near (n.register target))
  | 4 =>
    let n := n.link
    some { n with
      pc := if field w 11 11 = 1 then (n.pc + signedField w 11) % 65536
        else n.register (field w 8 6) }
  | 5 => some (n.assign target (base.land (n.operand w)))
  | 6 =>
    let (v, n) := n.read beside
    some (n.assign target v)
  | 7 => some (n.store beside (n.register target))
  | 9 => some (n.assign target (65535 - base))
  | 10 =>
    let (pointer, n) := n.read near
    let (v, n) := n.read pointer
    some (n.assign target v)
  | 11 =>
    let (pointer, n) := n.read near
    some (n.store pointer (n.register target))
  | 12 => some { n with pc := base }
  | 14 => some (n.assign target near)
  | _ => none

def step [Console κ] (n : Numbers κ) : Option (Numbers κ) :=
  { n with count := n.count + 1, pc := (n.pc + 1) % 65536 }.execute (n.cell n.pc)

/-- A table whose entries are named by bits as a function on integers, which is zero at those
that name no entry. -/
def table (f : BitVec width → Word) (i : Int) : Int :=
  if 0 ≤ i ∧ i < Integer.span width then (f (BitVec.ofInt width i)).toNat else 0

end Numbers

namespace Machine

def numbers (m : Machine κ) : Numbers κ where
  register := Numbers.table m.state.reg
  pc := m.state.pc.toNat
  cond := m.state.cond.toNat
  cell := Numbers.table m.state.memory.get
  count := m.state.count
  spare := m.state.spare
  running := m.state.running
  warn := m.state.warn
  console := m.console

end Machine

end LittleComputer
