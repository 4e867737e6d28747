import LittleComputer.Text.Quoted

/-! The written form of plain data. Items are separated by a comma and a space, a key is
followed by a colon and a space, and texts are quoted. -/
namespace LittleComputer

inductive Datum where
  | none
  | bool (b : Bool)
  | int (i : Int)
  | text (s : String)
  | list (items : List Datum)
  | dict (entries : List (String × Datum))
  deriving Inhabited

namespace Datum

mutual

def literal : Datum → String
  | .none => "None"
  | .bool true => "True"
  | .bool false => "False"
  | .int i => toString i
  | .text s => Quoted.quoted s
  | .list items => "[" ++ ", ".intercalate (itemLiterals items) ++ "]"
  | .dict entries => "\x7b" ++ ", ".intercalate (entryLiterals entries) ++ "\x7d"

def itemLiterals : List Datum → List String
  | [] => []
  | item :: rest => literal item :: itemLiterals rest

def entryLiterals : List (String × Datum) → List String
  | [] => []
  | (key, value) :: rest => (Quoted.quoted key ++ ": " ++ literal value) :: entryLiterals rest

end

end Datum

end LittleComputer
