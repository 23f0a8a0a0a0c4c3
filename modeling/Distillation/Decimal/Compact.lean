import Distillation.Decimal.Significant

namespace Distillation.Decimal

def zeros (count : Nat) : String :=
  String.ofList (List.replicate count '0')

/-- A whole number has no point; a number below one has a zero before it. -/
def Digits.positional (d : Digits) : String :=
  let text := toString d.digits
  let point := (text.length : Int) + d.exponent
  if 0 ≤ d.exponent then text ++ zeros d.exponent.toNat
  else if 0 < point then
    String.ofList (text.toList.take point.toNat) ++ "." ++
      String.ofList (text.toList.drop point.toNat)
  else "0." ++ zeros (-point).toNat ++ text

def Binary.positional : Binary → String
  | .notANumber => "NaN"
  | .infinite negative => if negative then "-inf" else "inf"
  | .finite negative mantissa exponent =>
    let sign := if negative then "-" else ""
    if mantissa = 0 then sign ++ "0" else sign ++ (shortest mantissa exponent).positional

/-- The shortest digits that read back, without an exponent. -/
def positional (x : Float) : String :=
  (Binary.ofFloat x).positional

/-- Numbers from here on are written with an exponent. -/
def compactCeiling : Int := 16

/-- The least power of ten that is still written without an exponent. -/
def compactFloor : Int := -5

/-- One digit before the point; no point without digits after it. The exponent has its sign. -/
def Digits.scientific (d : Digits) : String :=
  let text := (toString d.digits).toList
  let power := (text.length : Int) - 1 + d.exponent
  let mantissa := String.ofList (text.take 1) ++
    if text.length = 1 then "" else "." ++ String.ofList (text.drop 1)
  mantissa ++ (if power < 0 then "e-" else "e+") ++ toString power.natAbs

/-- A whole number that is written positionally has a zero after the point. -/
def Digits.compact (d : Digits) : String :=
  let power := ((toString d.digits).length : Int) - 1 + d.exponent
  if power < compactFloor ∨ compactCeiling ≤ power then d.scientific
  else if 0 ≤ d.exponent then d.positional ++ ".0"
  else d.positional

def Binary.compact : Binary → String
  | .notANumber => "NaN"
  | .infinite negative => if negative then "-inf" else "inf"
  | .finite negative mantissa exponent =>
    if mantissa = 0 then if negative then "-0" else "0.0"
    else (if negative then "-" else "") ++ (shortest mantissa exponent).compact

/-- In positional notation while that is not long, else with an exponent. -/
def compact (x : Float) : String :=
  (Binary.ofFloat x).compact

end Distillation.Decimal
