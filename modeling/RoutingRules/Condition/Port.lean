import RoutingRules.Error
import RoutingRules.Text.Blank
import RoutingRules.Text.Split

/-!
# Ports in conditions

A port condition holds one port or a range of ports, written with a hyphen between its ends.
The written form is made canonical when a condition is built: no blanks, signs or leading zeros.
-/

namespace RoutingRules.Port

/-- The greatest port. -/
def most : Nat :=
  65535

/-- Read one port with blanks around it; `value` is the whole text, for the message. -/
def read (value : String) (cs : List Char) : Result Nat :=
  match Number.readAtMost most (Text.trimChars cs) with
  | .ok port => .ok port
  | .error fault => .error (.parse (.invalidPort value fault))

/-- The canonical form of a port or a range of ports. -/
def canonical (value : String) : Result String :=
  match Text.splitFirst '-' value.toList with
  | none => do
    let port ← read value value.toList
    return Number.decimal port
  | some (low, high) => do
    let low ← read value low
    let high ← read value high
    if high < low then throw (.parse (.invalidPortRange value))
    return Number.decimal low ++ "-" ++ Number.decimal high

/-- The field of a sing-box rule for ports in canonical form: a number in the field `single`, or a
range written with a colon in the field `range`. -/
def singBoxField (single range value : String) : Result (String × Json) :=
  match Text.splitFirst '-' value.toList with
  | some (low, high) =>
    .ok (range, .str (String.ofList low ++ ":" ++ String.ofList high))
  | none =>
    match Number.readAtMost most value.toList with
    | .ok port => .ok (single, .int port)
    | .error fault => .error (.parse (.invalidPort value fault))

end RoutingRules.Port
