import LittleComputer.Text.Quoted

/-! Files as a program sees them: a path leads to the bytes of a plain file, or to an error. -/
namespace LittleComputer

inductive FileError where
  | missing (path : String)
  | isFolder (path : String)
  | notFolder (path : String)
  | nameTooLong (path : String)
  | embeddedNull
  deriving DecidableEq, Repr

namespace FileError

def describe (number : Nat) (text path : String) : String :=
  "[Errno " ++ toString number ++ "] " ++ text ++ ": " ++ Quoted.quoted path

def message : FileError → String
  | .missing path => describe 2 "No such file or directory" path
  | .isFolder path => describe 21 "Is a directory" path
  | .notFolder path => describe 20 "Not a directory" path
  | .nameTooLong path => describe 36 "File name too long" path
  | .embeddedNull => "embedded null byte"

end FileError

abbrev Files := String → Except FileError (Array UInt8)

end LittleComputer
