import Cabinet.Board

/-! The keys that mean something, and the buttons some of them stand for. -/
namespace Cabinet

inductive Key where
  | num1 | num2 | a | c | d | p | s | left | right | space | escape
  /-- Any other key. -/
  | other
  deriving Repr, DecidableEq, Inhabited

namespace Key

/-- The button on the cabinet that a key stands for. -/
def button? : Key → Option Button
  | .c => some .coin
  | .num1 => some .start1
  | .num2 => some .start2
  | .a | .left => some .left
  | .d | .right => some .right
  | .s | .space => some .fire
  | .p | .escape | .other => none

end Key
end Cabinet
