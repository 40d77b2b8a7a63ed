import Connectum.JsNumber

/-! Whether the trust header of a request has an expected value or lies in an expected range. -/
namespace Connectum.Auth
open JsString JsNumber

def isValidOctet (value : JsNumber) : Bool := value.isInteger && value.between 0 255

/-- Four octets in an unsigned 32-bit integer. -/
def ipInt (a b c d : JsNumber) : ℕ :=
  (a.toInt32 <<< 24 ||| b.toInt32 <<< 16 ||| c.toInt32 <<< 8 ||| d.toInt32).toNat

def prefixMask (length : ℤ) : ℕ :=
  if length = 0 then 0 else ((~~~(0 : BitVec 32)) <<< ((32 - length).toNat % 32)).toNat

/-- The bitwise and of the language, a signed 32-bit integer. -/
def bitAnd (a b : ℕ) : ℤ := (BitVec.ofNat 32 a &&& BitVec.ofNat 32 b).toInt

def matchesCidr (address network prefixStr : JsString) : Bool :=
  if network = [] ∨ prefixStr = [] then false
  else match parseInt prefixStr with
    | none => false
    | some length =>
      if length < 0 ∨ 32 < length then false
      else
        match (address.splitOn (unit '.')).map number,
          (network.splitOn (unit '.')).map number with
        | [p0, p1, p2, p3], [n0, n1, n2, n3] =>
          [p0, p1, p2, p3].all isValidOctet && [n0, n1, n2, n3].all isValidOctet &&
            decide (bitAnd (ipInt p0 p1 p2 p3) (prefixMask length) =
              bitAnd (ipInt n0 n1 n2 n3) (prefixMask length))
        | _, _ => false

def matchesIp (address pattern : JsString) : Bool :=
  if address = pattern then true
  else if unit '/' ∈ pattern then
    match pattern.splitOn (unit '/') with
    | network :: prefixStr :: _ => matchesCidr address network prefixStr
    | _ => false
  else false

def isTrusted (headerValue : JsString) (expectedValues : List JsString) : Bool :=
  expectedValues.any fun expected =>
    decide (headerValue = expected) ||
      (decide (unit '/' ∈ expected) && matchesIp headerValue expected)

end Connectum.Auth
