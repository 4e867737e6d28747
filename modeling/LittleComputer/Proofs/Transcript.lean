import LittleComputer.Console.Display
import LittleComputer.Console.Notebook
import Mathlib.Data.List.TakeWhile

/-! What can be read off the notices of a console: the complaints, and the text printed so far. A
notebook with nothing pending has printed exactly the bytes that were written to it. -/
namespace LittleComputer

namespace Notice

def errors (notices : List Notice) : List String :=
  notices.filterMap fun
    | .error text => some text
    | _ => none

def printed (notices : List Notice) : String :=
  String.join (notices.filterMap fun
    | .print text => some text
    | _ => none)

theorem complaints_eq (notices : List Notice) : complaints notices = String.join (errors notices) :=
  rfl

@[simp] theorem errors_append (a b : List Notice) : errors (a ++ b) = errors a ++ errors b := by
  simp [errors]

@[simp] theorem printed_append (a b : List Notice) : printed (a ++ b) = printed a ++ printed b := by
  simp [printed, String.join_append]

@[simp] theorem errors_error (text : String) : errors [.error text] = [text] := rfl

@[simp] theorem errors_print (text : String) : errors [.print text] = [] := rfl

@[simp] theorem printed_print (text : String) : printed [.print text] = text := by
  simp [printed, String.join_cons]

end Notice

namespace Latin

/-- Bytes are what they are decoded to is encoded as. -/
theorem encode_decode (bytes : List UInt8) : encode (decode bytes) = .ok bytes := by
  have small (b : UInt8) : encodable (Char.ofUInt8 b) = true := by
    have bound := b.toNat_lt
    simp only [encodable, toNat_ofUInt8, decide_eq_true_eq]
    exact bound
  have none_left : ((bytes.map Char.ofUInt8).dropWhile encodable) = [] := by
    rw [List.dropWhile_eq_nil_iff]
    intro c member
    obtain ⟨b, _, rfl⟩ := List.mem_map.mp member
    exact small b
  have run : firstRun (decode bytes).toList = none := by
    simp [firstRun, decode, none_left]
  simp only [encode, run, lowBytes_decode]

theorem ofUInt8_byte {c : Char} (small : encodable c = true) : Char.ofUInt8 (byte c) = c := by
  have bound : c.toNat < 256 := of_decide_eq_true small
  have low : (byte c).toNat = c.toNat % 256 := UInt32.toNat_toUInt8 c.val
  apply Char.toNat_inj.mp
  rw [toNat_ofUInt8, low, Nat.mod_eq_of_lt bound]

theorem encodable_of_firstRun {text : List Char} (absent : firstRun text = none) :
    ∀ c ∈ text, encodable c = true := by
  have run : (text.dropWhile encodable).takeWhile (!encodable ·) = [] := by
    simpa [firstRun] using absent
  rw [← List.dropWhile_eq_nil_iff]
  cases rest : text.dropWhile encodable with
  | nil => rfl
  | cons c cs =>
    have refused : encodable c = false := by
      simpa [rest] using List.head?_dropWhile_not encodable text
    simp [rest, refused] at run

/-- A text is what the bytes that it is encoded as are decoded to. -/
theorem encode_eq_ok_iff {text : String} {bytes : List UInt8} :
    encode text = .ok bytes ↔ text = decode bytes := by
  constructor
  · intro encoded
    unfold encode at encoded
    cases run : firstRun text.toList with
    | some e =>
      rw [run] at encoded
      cases encoded
    | none =>
      rw [run] at encoded
      obtain rfl := Except.ok.inj encoded
      have same : (lowBytes text).map Char.ofUInt8 = text.toList := by
        rw [lowBytes, List.map_map, List.map_congr_left, List.map_id]
        intro c member
        exact ofUInt8_byte (encodable_of_firstRun run c member)
      rw [decode, same, String.ofList_toList]
  · rintro rfl
    exact encode_decode bytes

end Latin

namespace Notebook

/-- Nothing is pending, and what has been printed are the bytes on the display. -/
structure Shows (nb : Notebook) (display : Display) : Prop where
  pending : nb.pending = #[]
  printed : Notice.printed nb.notices.toList = Latin.decode display.bytes.toList

theorem notices_flush_write (nb : Notebook) (nothing : nb.pending = #[]) (bytes : List UInt8) :
    (Console.flush (Console.write bytes nb)).notices =
      if bytes = [] then nb.notices else nb.notices.push (.print (Latin.decode bytes)) := by
  by_cases empty : bytes = []
  · subst empty
    simp [Console.flush, flush, Console.write, nothing]
  · rw [if_neg empty]
    simp [Console.flush, flush, Console.write, nothing, empty]

namespace Shows

variable {nb : Notebook} {display : Display}

theorem say (shows : Shows nb display) (bytes : List UInt8) :
    Shows (Console.flush (Console.write bytes nb)) (display.write bytes).flush := by
  constructor
  · exact pending_flush _
  · rw [notices_flush_write nb shows.pending, Display.bytes_flush, Display.toList_write,
      Latin.decode_append, ← shows.printed]
    by_cases empty : bytes = []
    · simp [empty, Latin.decode]
    · simp [empty]

theorem notice (shows : Shows nb display) (notice : Notice)
    (silent : Notice.printed [notice] = "") :
    Shows { nb with notices := nb.notices.push notice } display := by
  constructor
  · exact shows.pending
  · simp [silent, shows.printed]

theorem encode (shows : Shows nb display) :
    Latin.encode (Notice.printed nb.notices.toList) = .ok display.bytes.toList := by
  rw [shows.printed, Latin.encode_decode]

end Shows

end Notebook

end LittleComputer
