/-! The version of the program. -/
namespace LittleComputer

def version : String := "0.1.0"

end LittleComputer
