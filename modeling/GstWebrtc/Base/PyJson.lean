import GstWebrtc.Base.JsonGlib

/-!
# JSON values in Python

What `json.loads` makes of a text is a dictionary, a list, a string, a number or
a constant, and the operators that a client applies to it raise on the kinds
that they do not know.
-/

namespace GstWebrtc.Base

/-- The exceptions that the Python clients run into. -/
inductive PyError where
  | assertionError
  | attributeError
  | connectionClosed
  | keyError
  | typeError
  | valueError
  deriving DecidableEq

namespace Json

/-- `value == text`. -/
def isText (value : Json) (text : Text) : Bool :=
  match value with
  | string s => decide (s = text)
  | _ => false

/-- `name in value`. -/
def contains (value : Json) (name : Text) : Except PyError Bool :=
  match value with
  | object members => .ok (members.lookup name).isSome
  | array elements => .ok (elements.any fun element => element.isText name)
  | string text => .ok (PyText.occursIn name text)
  | _ => .error .typeError

/-- `value[name]`. -/
def getItem (value : Json) (name : Text) : Except PyError Json :=
  match value with
  | object members =>
      match members.lookup name with
      | some member => .ok member
      | none => .error .keyError
  | _ => .error .typeError

/-- `value.encode()`. -/
def encode (value : Json) : Except PyError Text :=
  match value with
  | string text => .ok text
  | _ => .error .attributeError

section Dictionary

variable {members : List (Text × Json)} {name : Text} {member : Json}

@[simp] theorem isText_string (text : Text) : (string text).isText text = true :=
  decide_eq_true rfl

@[simp] theorem encode_string (text : Text) : (string text).encode = .ok text := rfl

theorem contains_of_lookup (found : members.lookup name = some member) :
    (object members).contains name = .ok true := by
  simp only [contains, found, Option.isSome_some]

theorem contains_of_absent (absent : members.lookup name = none) :
    (object members).contains name = .ok false := by
  simp only [contains, absent, Option.isSome_none]

theorem getItem_of_lookup (found : members.lookup name = some member) :
    (object members).getItem name = .ok member := by
  simp only [getItem, found]

end Dictionary

end Json

end GstWebrtc.Base
