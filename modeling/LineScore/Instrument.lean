import LineScore.Error
import LineScore.Instrument.Program

/-! Instruments as a song declares them. -/

namespace LineScore

/-- An instrument: the symbol that its lines are addressed with, its name as declared, and the program
that the name stands for. -/
structure Instrument where
  symbol : LooseText
  name : LooseText
  program : Program
  deriving DecidableEq, Repr

def programFor (name : LooseText) : Except Error Program :=
  match Program.ofName? name with
  | some program => .ok program
  | none => .error (.unknownProgram name)

/-- An instrument of the program that its name stands for. -/
def Instrument.declare (symbol name : LooseText) : Except Error Instrument :=
  (programFor name).map fun program => ⟨symbol, name, program⟩

end LineScore
