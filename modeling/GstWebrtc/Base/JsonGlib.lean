import GstWebrtc.Base.CText

/-!
# json-glib

A JSON tree as far as the C clients read it, and the getters of `JsonObject`,
which answer `NULL` or zero for a member that is absent or of another type.
-/

namespace GstWebrtc.Base

inductive Json where
  | null
  | boolean (value : Bool)
  /-- A number, of which only the integer that is read from it matters. -/
  | number (value : Int)
  | string (value : Text)
  | array (elements : List Json)
  | object (members : List (Text × Json))

/-- A `JsonObject *`, which may be `NULL`. -/
abbrev JsonObject := Option (List (Text × Json))

namespace JsonObject

/-- The node of a member. -/
def getMember (object : JsonObject) (name : Text) : Option Json :=
  object.bind fun members => members.lookup name

/-- `json_object_has_member`. -/
def hasMember (object : JsonObject) (name : Text) : Bool := (object.getMember name).isSome

/-- `json_object_get_object_member`. -/
def getObjectMember (object : JsonObject) (name : Text) : JsonObject :=
  match object.getMember name with
  | some (.object members) => some members
  | _ => none

/-- `json_object_get_string_member`. -/
def getStringMember (object : JsonObject) (name : Text) : Option Text :=
  match object.getMember name with
  | some (.string value) => some value
  | _ => none

/-- `json_object_get_int_member`. -/
def getIntMember (object : JsonObject) (name : Text) : Int :=
  match object.getMember name with
  | some (.number value) => value
  | _ => 0

theorem hasMember_of_getStringMember {object : JsonObject} {name value : Text}
    (found : object.getStringMember name = some value) : object.hasMember name = true := by
  unfold getStringMember at found
  unfold hasMember
  split at found
  · next text member =>
      rw [member]
      rfl
  · cases found

end JsonObject

end GstWebrtc.Base
