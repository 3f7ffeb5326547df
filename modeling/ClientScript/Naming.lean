import ClientScript.Decoder
import ClientScript.Flow.Program

/-!
Finding things by their names.
-/

namespace ClientScript

inductive UnknownName where
  | opcode (name : String)
  | switchEncoding (name : String)
  | addressing (name : String)
deriving DecidableEq, Repr

namespace UnknownName

def message : UnknownName → String
  | .opcode name => name ++ " not found"
  | .switchEncoding name => "unknown switch encoding " ++ quoteText name
  | .addressing name => "unknown addressing " ++ quoteText name

end UnknownName

def Opcode.parse (name : String) : Except UnknownName Opcode :=
  (Opcode.ofName? name).elim (.error (.opcode name)) .ok

def SwitchEncoding.parse (name : String) : Except UnknownName SwitchEncoding :=
  (SwitchEncoding.ofName? name).elim (.error (.switchEncoding name)) .ok

def Addressing.parse (name : String) : Except UnknownName Addressing :=
  (Addressing.ofName? name).elim (.error (.addressing name)) .ok

end ClientScript
