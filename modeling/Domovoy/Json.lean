/-
The JSON documents that the reports are made of, and their serialisation: it
throws on a string that is not valid UTF-8 and otherwise succeeds.
-/
import Domovoy.Config

namespace Domovoy

/-- The bytes of a string, without the terminating NUL. -/
abbrev Bytes := List UInt8

def ValidUtf8 (bytes : Bytes) : Prop :=
  bytes.toByteArray.IsValidUTF8

instance (bytes : Bytes) : Decidable (ValidUtf8 bytes) :=
  inferInstanceAs (Decidable bytes.toByteArray.IsValidUTF8)

/-- The bytes of a string literal. -/
def literal (text : String) : Bytes :=
  text.toList.flatMap String.utf8EncodeChar

theorem validUtf8_literal (text : String) : ValidUtf8 (literal text) :=
  ⟨text.toList, rfl⟩

/-- The fields of an object stand in the order of its `std::map`; their names are
literals of the source. -/
inductive Json where
  | bool (value : Bool)
  | number (value : Int)
  | string (bytes : Bytes)
  | array (items : List Json)
  | object (fields : List (String × Json))

mutual

/-- Every string value of a document. -/
def Json.strings : Json → List Bytes
  | .bool _ => []
  | .number _ => []
  | .string bytes => [bytes]
  | .array items => Json.itemStrings items
  | .object fields => Json.fieldStrings fields

def Json.itemStrings : List Json → List Bytes
  | [] => []
  | item :: items => item.strings ++ Json.itemStrings items

def Json.fieldStrings : List (String × Json) → List Bytes
  | [] => []
  | (_, value) :: fields => value.strings ++ Json.fieldStrings fields

end

/-- No string of the document makes the serialiser throw. -/
def Json.Utf8 (data : Json) : Prop :=
  ∀ bytes ∈ data.strings, ValidUtf8 bytes

instance (data : Json) : Decidable data.Utf8 :=
  inferInstanceAs (Decidable (∀ bytes ∈ data.strings, ValidUtf8 bytes))

/-- `dump()` with its default error handler; the text it produces is represented by
the document it was produced from. -/
def Json.dump (data : Json) : Except Thrown Json :=
  if data.Utf8 then .ok data else .error .typeError

theorem Json.itemStrings_eq (items : List Json) :
    Json.itemStrings items = items.flatMap Json.strings := by
  induction items with
  | nil => rfl
  | cons item items ih => rw [itemStrings, ih, List.flatMap_cons]

theorem Json.fieldStrings_eq (fields : List (String × Json)) :
    Json.fieldStrings fields = fields.flatMap fun field => field.2.strings := by
  induction fields with
  | nil => rfl
  | cons field fields ih => rw [fieldStrings, ih, List.flatMap_cons]

@[simp] theorem Json.utf8_bool (value : Bool) : (Json.bool value).Utf8 := by
  simp [Utf8, strings]

@[simp] theorem Json.utf8_number (value : Int) : (Json.number value).Utf8 := by
  simp [Utf8, strings]

@[simp] theorem Json.utf8_string {bytes : Bytes} :
    (Json.string bytes).Utf8 ↔ ValidUtf8 bytes := by
  simp [Utf8, strings]

@[simp] theorem Json.utf8_array {items : List Json} :
    (Json.array items).Utf8 ↔ ∀ item ∈ items, item.Utf8 := by
  simp only [Utf8, strings, itemStrings_eq, List.mem_flatMap]
  constructor
  · intro hall item hitem bytes hbytes
    exact hall bytes ⟨item, hitem, hbytes⟩
  · rintro hall bytes ⟨item, hitem, hbytes⟩
    exact hall item hitem bytes hbytes

@[simp] theorem Json.utf8_object {fields : List (String × Json)} :
    (Json.object fields).Utf8 ↔ ∀ field ∈ fields, field.2.Utf8 := by
  simp only [Utf8, strings, fieldStrings_eq, List.mem_flatMap]
  constructor
  · intro hall field hfield bytes hbytes
    exact hall bytes ⟨field, hfield, hbytes⟩
  · rintro hall bytes ⟨field, hfield, hbytes⟩
    exact hall field hfield bytes hbytes

end Domovoy
