import RoutingRules.Number.Natural

/-!
# Octets of texts

The octets of a text in UTF-8, and their escapes, a percent sign and two hexadecimal digits each.
-/

namespace RoutingRules.Text

/-- The octets of a text. -/
def octets (s : String) : List UInt8 :=
  s.toUTF8.data.toList

/-- The text with the given octets, if they are those of one. -/
def ofOctets? (os : List UInt8) : Option String :=
  String.fromUTF8? ⟨os.toArray⟩

/-! ## Escapes -/

/-- The escape of an octet. -/
def escapedOctet (o : UInt8) : List Char :=
  '%' :: Number.capitalHex 2 o.toNat

/-- A character as the escapes of its octets. -/
def escaped (c : Char) : List Char :=
  (octets c.toString).flatMap escapedOctet

/-- Read an octet off the front of a text that starts with an escape. -/
def takeEscape : List Char → Option (UInt8 × List Char)
  | '%' :: a :: b :: rest => (Number.readRadix 16 [a, b]).map fun n => (UInt8.ofNat n, rest)
  | _ => none

/-- The octets of a text in which escapes stand for octets. -/
def unescaped : List Char → List UInt8
  | '%' :: a :: b :: rest =>
    match Number.readRadix 16 [a, b] with
    | some n => UInt8.ofNat n :: unescaped rest
    | none => octets "%" ++ unescaped (a :: b :: rest)
  | c :: rest => octets c.toString ++ unescaped rest
  | [] => []

end RoutingRules.Text
