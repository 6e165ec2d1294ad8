import Cabinet.Disk
import Cabinet.Hex

/-! What can be wrong with a ROM image: it is not there, it has another length than its
chip, or it does not fit where it should go. -/
namespace Cabinet

inductive LoadError where
  | missing (name path : String) (cause : ReadFailure)
  | wrongSize (name : String) (expected actual : Nat)
  | outOfRange (name : String) (base : UInt16) (length : Nat)
  deriving Repr, DecidableEq

namespace LoadError

def message : LoadError → String
  | .missing name path _ => s!"ROM image {name} not found at {path}"
  | .wrongSize name expected actual =>
    s!"ROM image {name} has the wrong size: expected {expected} bytes, got {actual}"
  | .outOfRange name base length =>
    s!"ROM image {name} does not fit at {Hex.literal 4 base.toNat} ({length} bytes)"

/-- The message, then what caused it. -/
def chain (e : LoadError) : List String :=
  match e with
  | .missing _ _ cause => [e.message, cause.message]
  | _ => [e.message]

end LoadError
end Cabinet
