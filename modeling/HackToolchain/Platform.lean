/-!
The numbers of the platform: 16-bit words, two memories of 32768 cells each, the screen and the
keyboard mapped into the data memory, sixteen virtual registers at its start, and variables
between those and the screen.
-/

namespace HackToolchain.Platform

def wordWidth : Nat := 16

/-- Instruction memory and data memory have this many cells. -/
def addressSpace : Int := 32768

def screen : Int := 16384

def keyboard : Int := 24576

/-- The address of the first variable. -/
def variableBase : Int := 16

/-- Variables stay below this address. -/
def variableLimit : Int := screen

def virtualRegisters : Nat := 16

/-- The cell that holds the stack pointer. -/
def stackPointer : Nat := 0

/-- The address of the bottom of the stack. -/
def stackBase : Nat := 256

/-- The symbols every program knows, in order. -/
def predefinedSymbols : List (String × Int) :=
  [("SP", 0), ("LCL", 1), ("ARG", 2), ("THIS", 3), ("THAT", 4), ("SCREEN", screen),
   ("KBD", keyboard)] ++
  (List.range virtualRegisters).map fun (i : Nat) => ("R" ++ i.repr, (i : Int))

end HackToolchain.Platform
