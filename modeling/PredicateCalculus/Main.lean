import PredicateCalculus.CommandLine

/-! # The program -/

set_option autoImplicit false

def main (arguments : List String) : IO UInt32 := do
  let outcome := PredicateCalculus.CommandLine.run arguments
  IO.print outcome.output
  IO.eprint outcome.complaints
  return outcome.code.toUInt32
