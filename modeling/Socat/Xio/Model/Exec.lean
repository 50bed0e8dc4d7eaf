import Mathlib.Data.Nat.Notation

/-! # The command line of EXEC

`splitExecArgs` goes over the bytes once. Its flags say whether it is inside double quotes, behind a backslash
there, and whether the argument it builds had quotes: an empty one is kept only then.
-/

namespace Socat.Xio

/-- Space, `\t`, `\n`, `\v`, `\f` and `\r`. -/
def isExecProgramSpace (c : UInt8) : Bool := [0x20, 0x09, 0x0a, 0x0b, 0x0c, 0x0d].contains c

/-- The index after the white space before the program name. -/
def skipExecProgramSpace : List UInt8 → ℕ
  | [] => 0
  | c :: s => if isExecProgramSpace c then skipExecProgramSpace s + 1 else 0

structure ExecSplit where
  args : List (List UInt8) := []
  cur : List UInt8 := []
  inDouble : Bool := false
  escape : Bool := false
  sawQuote : Bool := false

namespace ExecSplit

def flush (x : ExecSplit) : ExecSplit :=
  { x with args := if x.sawQuote ∨ x.cur ≠ [] then x.args ++ [x.cur] else x.args, cur := [], sawQuote := false }

/-- The body of the loop. -/
def scan (x : ExecSplit) (c : UInt8) : ExecSplit :=
  if x.escape then { x with cur := x.cur ++ [c], escape := false }
  else if c = 0x5c ∧ x.inDouble then { x with escape := true }
  else if c = 0x22 then { x with inDouble := !x.inDouble, sawQuote := true }
  else if !x.inDouble ∧ c = 0x20 then x.flush
  else { x with cur := x.cur ++ [c] }

end ExecSplit

def splitExecArgs (s : List UInt8) : List (List UInt8) :=
  ((s.drop (skipExecProgramSpace s)).foldl ExecSplit.scan {}).flush.args

end Socat.Xio
