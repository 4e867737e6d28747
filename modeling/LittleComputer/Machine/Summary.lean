import LittleComputer.Machine

/-! The summary of a machine's registers that is shown to the user. -/
namespace LittleComputer

def rule : String := String.ofList (List.replicate 60 '=')

namespace State

/-- The mark of one condition, which is 1 if it is the one that holds. -/
def conditionMark (s : State) (letter : String) (code : Word) : String :=
  letter ++ ": " ++ (if s.cond = code then "1" else "0") ++ " "

def registerEntry (s : State) (r : Reg) : String :=
  "R" ++ toString r.toNat ++ ": " ++ (s.reg r).hex ++ " (" ++ toString (s.reg r).toInt ++ ") "

def conditionLine (s : State) : String :=
  s.conditionMark "N" Condition.negative ++ s.conditionMark "Z" Condition.zero ++
    s.conditionMark "P" Condition.positive ++ "\n"

def registerLine (s : State) (rs : List Reg) : String :=
  String.join (rs.map s.registerEntry) ++ "\n"

def summary (s : State) : String :=
  "\n" ++ rule ++ "\nRegisters:\n" ++ rule ++ "\nPC: " ++ s.pc.hex ++ "\n" ++ s.conditionLine ++
    s.registerLine [0, 1, 2, 3] ++ s.registerLine [4, 5, 6, 7]

end State

def Machine.reportSummary [Console κ] (m : Machine κ) : Machine κ :=
  m.report (.print m.state.summary)

end LittleComputer
