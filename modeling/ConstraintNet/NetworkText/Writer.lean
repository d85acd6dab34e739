/-
  ConstraintNet.NetworkText.Writer
  ────────────────────────────────
  **WRITING A NETWORK FILE.**

  A network is written under a title, with a comment before each of its
  parts: the number of variables, one line per range, and for each constraint
  a line `c(first, second)`, one line per allowed pair, and an empty line.
-/
import ConstraintNet.Network

namespace ConstraintNet

namespace NetworkText

/-- An integer in decimal digits, with a minus sign if it is negative. -/
def decimal (i : Int) : List Char :=
  if i < 0 then '-' :: Nat.toDigits 10 i.natAbs else Nat.toDigits 10 i.natAbs

/-- A line with a pair of values. -/
def pairLine (a b : Value) : List Char :=
  decimal a.toInt ++ ", ".toList ++ decimal b.toInt ++ ['\n']

/-- The lines of a constraint. -/
def constraintLines (c : Constraint) : List Char :=
  "c(".toList ++ Nat.toDigits 10 c.first ++ ", ".toList ++ Nat.toDigits 10 c.second ++ ")\n".toList
    ++ c.tuples.flatMap (fun (a, b) => pairLine a b) ++ ['\n']

/-- A network file under a title. -/
def write (net : Network) (title : List Char) : List Char :=
  "//".toList ++ title ++ "\n\n".toList
    ++ "// Number of variables:\n".toList ++ Nat.toDigits 10 net.size ++ "\n\n".toList
    ++ "// Domains of the variables: lower, upper (inclusive)\n".toList
    ++ net.bounds.toList.flatMap (fun b => pairLine b.lower b.upper) ++ ['\n']
    ++ "// constraints (vars indexed from 0, allowed tuples):\n".toList
    ++ net.constraints.toList.flatMap constraintLines

end NetworkText

/-- The text that describes a network, under a title. -/
def Network.toText (net : Network) (title : String) : String :=
  String.ofList (NetworkText.write net title.toList)

end ConstraintNet
