import Mathlib.Algebra.Group.Int.Defs
import Mathlib.Data.Rat.Defs

namespace DeepinServiceManager

/-- `QJsonValue` of a parsed document; a number keeps the exact value of its double. -/
inductive QJsonValue
  | null
  | bool (b : Bool)
  | double (x : ℚ)
  | string (s : String)
  | array (elements : List QJsonValue)
  | object (members : List (String × QJsonValue))

abbrev QJsonObject := List (String × QJsonValue)

def QJsonObject.value (obj : QJsonObject) (key : String) : Option QJsonValue :=
  (obj.find? (fun member => member.1 = key)).map Prod.snd

/-- Zero for anything but a number with an integer value in the `int` range. -/
def QJsonValue.toInt : QJsonValue → ℤ
  | .double x => if x.isInt ∧ -2 ^ 31 ≤ x.num ∧ x.num < 2 ^ 31 then x.num else 0
  | _ => 0

inductive QJsonDocument
  | array (elements : List QJsonValue)
  | object (members : QJsonObject)

def QJsonDocument.toObject : QJsonDocument → QJsonObject
  | .array _ => []
  | .object members => members

/-! The getters of `Policy`. Each gives the flag it returns and the value it leaves in its output argument. -/

def jsonGetString (obj : QJsonObject) (key : String) (defaultValue : String) : Bool × String :=
  match obj.value key with
  | some (.string s) => (true, s)
  | _ => (false, defaultValue)

def jsonGetStringList (obj : QJsonObject) (key : String) (defaultValue : List String) : Bool × List String :=
  match obj.value key with
  | none => (false, defaultValue)
  | some (.string s) => (true, defaultValue ++ [s])
  | some (.array elements) => (true, defaultValue ++ elements.filterMap fun
      | .string s => some s
      | _ => none)
  | some _ => (true, defaultValue)

def jsonGetBool (obj : QJsonObject) (key : String) (defaultValue : Bool) : Bool × Bool :=
  match obj.value key with
  | some (.bool b) => (true, b)
  | _ => (false, defaultValue)

def jsonGetInt (obj : QJsonObject) (key : String) (defaultValue : ℤ) : Bool × ℤ :=
  match obj.value key with
  | some (.double x) => (true, (QJsonValue.double x).toInt)
  | _ => (false, defaultValue)

end DeepinServiceManager
