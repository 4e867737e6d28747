import LittleComputer.Text.Quoted

/-! Latin-1: the encoding in which each byte is the character of that number. Decoding always
succeeds; encoding refuses the characters above U+00FF. -/
namespace LittleComputer.Latin

def decode (bytes : List UInt8) : String :=
  String.ofList (bytes.map Char.ofUInt8)

def byte (c : Char) : UInt8 := c.toUInt8

def lowBytes (text : String) : List UInt8 := text.toList.map byte

def encodable (c : Char) : Bool := c.toNat < 256

/-- The first run of neighbouring characters that have no encoding. -/
structure EncodingError where
  position : Nat
  first : Char
  length : Nat
  deriving DecidableEq, Repr

def EncodingError.message (e : EncodingError) : String :=
  let place :=
    if e.length = 1 then
      "character '" ++ String.ofList (Quoted.numbered e.first) ++ "' in position " ++
        toString e.position
    else
      "characters in position " ++ toString e.position ++ "-" ++
        toString (e.position + e.length - 1)
  "'latin-1' codec can't encode " ++ place ++ ": ordinal not in range(256)"

def firstRun (text : List Char) : Option EncodingError :=
  let before := text.takeWhile encodable
  let run := (text.dropWhile encodable).takeWhile (!encodable ·)
  run.head?.map fun c => ⟨before.length, c, run.length⟩

def encode (text : String) : Except EncodingError (List UInt8) :=
  match firstRun text.toList with
  | some e => .error e
  | none => .ok (lowBytes text)

theorem toNat_ofUInt8 (b : UInt8) : (Char.ofUInt8 b).toNat = b.toNat :=
  UInt8.toNat_toUInt32 b

@[simp] theorem byte_ofUInt8 (b : UInt8) : byte (Char.ofUInt8 b) = b :=
  UInt8.toUInt8_toUInt32 b

@[simp] theorem lowBytes_decode (bytes : List UInt8) : lowBytes (decode bytes) = bytes := by
  induction bytes with
  | nil => simp [lowBytes, decode]
  | cons b rest ih => simpa [lowBytes, decode] using ih

theorem decode_append (a b : List UInt8) : decode (a ++ b) = decode a ++ decode b := by
  simp [decode]

end LittleComputer.Latin
