/-! Counts on the command line: decimal digits, a plus sign before them if one likes,
and a value that fits 64 bits. -/
namespace Cabinet

/-- Why a text is no count. -/
inductive CountError where
  | empty
  | invalidDigit
  | tooLarge
  deriving Repr, DecidableEq

namespace CountError

def message : CountError → String
  | .empty => "cannot parse integer from empty string"
  | .invalidDigit => "invalid digit found in string"
  | .tooLarge => "number too large to fit in target type"

end CountError

namespace Count

/-- The value of digits that follow a number already read. The first that is no digit,
or takes the value past 64 bits, is the error. -/
def ofDigits (value : Nat) : List Char → Except CountError UInt64
  | [] => .ok (UInt64.ofNat value)
  | c :: rest =>
    if c.isDigit then
      let next := value * 10 + (c.toNat - '0'.toNat)
      if next < UInt64.size then ofDigits next rest else .error .tooLarge
    else .error .invalidDigit

def ofText (text : String) : Except CountError UInt64 :=
  match text.toList with
  | [] => .error .empty
  | ['+'] => .error .invalidDigit
  | '+' :: digits => ofDigits 0 digits
  | digits => ofDigits 0 digits

end Count
end Cabinet
