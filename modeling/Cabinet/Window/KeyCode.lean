import Cabinet.Session.Key
import Cabinet.Window

/-! The keys behind the codes of the window system.

A key that writes a character has the code of that character. Any other key has 2³⁰ plus its
number in the table of keyboard usages. Which codes name a key at all the window system says:
an event of any other comes without a key. -/
namespace Cabinet

namespace Key

/-- The codes of the keys that mean something. -/
def codes : List (UInt32 × Key) :=
  [(27, .escape), (32, .space), (49, .num1), (50, .num2), (97, .a), (99, .c), (100, .d),
    (112, .p), (115, .s), (0x4000004f, .right), (0x40000050, .left)]

/-- The key that a code stands for. -/
def ofCode (code : UInt32) : Key :=
  (codes.lookup code).getD .other

end Key

/-- The key that a code stands for, if it names a key at all. -/
def WindowSystem.key? (system : WindowSystem) (code : UInt32) : Option Key :=
  if system.named code then some (Key.ofCode code) else none

end Cabinet
