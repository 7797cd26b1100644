import Descent.CommandLine

/-!
# The program

Reads the command line, writes what the invocation comes to, and exits with its code. Wrong usage
exits with code 2.
-/

open Descent

def main (arguments : List String) : IO UInt32 := do
  match Invocation.read arguments with
  | .ok invocation =>
    let completion := invocation.run
    (← IO.getStdout).putStr completion.output
    (← IO.getStderr).putStr completion.errors
    return UInt32.ofNat completion.code
  | .error _ =>
    (← IO.getStderr).putStr "usage: exprcomb [--strict] [--max-depth N] [--version] [INPUT]...\n"
    return 2
