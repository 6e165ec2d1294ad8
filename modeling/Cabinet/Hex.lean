/-! Numbers in hexadecimal: lower-case digits, filled with zeros on the left to a
least width, never cut. -/
namespace Cabinet.Hex

/-- The digits of `n`, at least `width` of them. -/
def digits (width n : Nat) : String :=
  let ds := Nat.toDigits 16 n
  String.ofList (List.replicate (width - ds.length) '0' ++ ds)

/-- The digits behind `0x`. -/
def literal (width n : Nat) : String :=
  "0x" ++ digits width n

end Cabinet.Hex
