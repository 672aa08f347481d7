import RoutingRules.Number.Binary64
import RoutingRules.SortedMap

/-!
# JSON values

JSON data with integers and floating-point numbers kept apart.  An object keeps its fields as an
entry list; everything that builds an object goes through a map with sorted keys, so the fields
of the objects in this library are in increasing order.

Functions that walk a value come in threes, for values, lists of values and entry lists, so that
they recurse on the data.
-/

namespace RoutingRules

/-- A JSON value. -/
inductive Json where
  | null
  | bool (value : Bool)
  | int (value : Int)
  | float (value : Number.Binary64)
  | str (text : String)
  | arr (items : List Json)
  | obj (fields : List (String × Json))
deriving Inhabited

namespace Json

/-! ## Equality -/

mutual

/-- Equality of values, field order included. -/
def same : Json → Json → Bool
  | .null, .null => true
  | .bool a, .bool b => a = b
  | .int a, .int b => a = b
  | .float a, .float b => a = b
  | .str a, .str b => a = b
  | .arr xs, .arr ys => sameItems xs ys
  | .obj fs, .obj gs => sameFields fs gs
  | _, _ => false

/-- Equality of lists of values. -/
def sameItems : List Json → List Json → Bool
  | [], [] => true
  | x :: xs, y :: ys => same x y && sameItems xs ys
  | _, _ => false

/-- Equality of entry lists. -/
def sameFields : List (String × Json) → List (String × Json) → Bool
  | [], [] => true
  | (k, v) :: fs, (l, w) :: gs => k = l && same v w && sameFields fs gs
  | _, _ => false

end

mutual

theorem eq_of_same : ∀ {a b : Json}, same a b = true → a = b
  | .null, b, h => by cases b <;> simp_all [same]
  | .bool _, b, h => by cases b <;> simp_all [same]
  | .int _, b, h => by cases b <;> simp_all [same]
  | .float _, b, h => by cases b <;> simp_all [same]
  | .str _, b, h => by cases b <;> simp_all [same]
  | .arr xs, b, h => by
    cases b <;> simp_all [same]
    exact eq_of_sameItems h
  | .obj fs, b, h => by
    cases b <;> simp_all [same]
    exact eq_of_sameFields h

theorem eq_of_sameItems : ∀ {xs ys : List Json}, sameItems xs ys = true → xs = ys
  | [], ys, h => by cases ys <;> simp_all [sameItems]
  | x :: xs, ys, h => by
    cases ys with
    | nil => simp [sameItems] at h
    | cons y ys =>
      simp only [sameItems, Bool.and_eq_true] at h
      rw [eq_of_same h.1, eq_of_sameItems h.2]

theorem eq_of_sameFields : ∀ {fs gs : List (String × Json)}, sameFields fs gs = true → fs = gs
  | [], gs, h => by cases gs <;> simp_all [sameFields]
  | (k, v) :: fs, gs, h => by
    cases gs with
    | nil => simp [sameFields] at h
    | cons g gs =>
      obtain ⟨l, w⟩ := g
      simp only [sameFields, Bool.and_eq_true, decide_eq_true_eq] at h
      rw [h.1.1, eq_of_same h.1.2, eq_of_sameFields h.2]

end

mutual

theorem same_self : ∀ a : Json, same a a = true
  | .null => by simp [same]
  | .bool _ => by simp [same]
  | .int _ => by simp [same]
  | .float _ => by simp [same]
  | .str _ => by simp [same]
  | .arr xs => by simpa [same] using sameItems_self xs
  | .obj fs => by simpa [same] using sameFields_self fs

theorem sameItems_self : ∀ xs : List Json, sameItems xs xs = true
  | [] => by simp [sameItems]
  | x :: xs => by simp [sameItems, same_self x, sameItems_self xs]

theorem sameFields_self : ∀ fs : List (String × Json), sameFields fs fs = true
  | [] => by simp [sameFields]
  | (_, v) :: fs => by simp [sameFields, same_self v, sameFields_self fs]

end

instance : DecidableEq Json := fun a b =>
  if h : same a b = true then .isTrue (eq_of_same h)
  else .isFalse fun heq => h (heq ▸ same_self a)

/-! ## Access -/

/-- The object of a map. -/
def ofMap (m : SortedMap Json) : Json :=
  .obj m.entries

/-- The fields of an object as a map. -/
def toMap? : Json → Option (SortedMap Json)
  | .obj fields => some (SortedMap.ofList fields)
  | _ => none

/-- The text of a string. -/
def toText? : Json → Option String
  | .str text => some text
  | _ => none

/-- The items of a list. -/
def toItems? : Json → Option (List Json)
  | .arr items => some items
  | _ => none

/-- The value of a field of an object. -/
def field? (key : String) : Json → Option Json
  | .obj fields => SortedMap.lookupEntry key fields
  | _ => none

/-- The list of texts. -/
def ofTexts (texts : List String) : Json :=
  .arr (texts.map .str)

end Json

end RoutingRules
