import Docbase.DocumentType.Basic

namespace Docbase.Catalogue

/-- The fields of the types that documents contain, and of the document types themselves. -/
def records : String → List (String × FieldType)
  | "Restaurant" =>
    [("id", .optional .string), ("modified_on", .optional .dateTime), ("restaurant_id", .string),
      ("name", .string), ("borough", .string), ("cuisine", .string), ("stars", .int32),
      ("tags", .list .string), ("address", .record "Address"), ("grades", .list (.record "Grade"))]
  | "Address" =>
    [("building", .string), ("street", .string), ("zipcode", .string), ("coord", .list .double)]
  | "Grade" => [("date", .dateTime), ("grade", .string), ("score", .optional .int32)]
  | "Inspection" =>
    [("id", .optional .string), ("modified_on", .optional .dateTime), ("grade", .string)]
  | "ClosedRestaurant" =>
    [("id", .optional .string), ("modified_on", .optional .dateTime), ("name", .string)]
  | "FoodTruck" =>
    [("id", .optional .string), ("modified_on", .optional .dateTime), ("name", .string)]
  | "Permit" =>
    [("permitNumber", .optional .int64), ("lastChanged", .optional .dateTime),
      ("issuedTo", .string)]
  | "Ticket" =>
    [("id", .int32), ("modified_on", .dateTime), ("title", .string), ("open", .bool),
      ("priority", .optional .int32), ("score", .double)]
  | "Device" =>
    [("deviceKey", .optional .textUuid), ("touched", .optional .dateTime), ("label", .string),
      ("meta", .map)]
  | "Session" =>
    [("id", .optional .uuid), ("modified_on", .optional .dateTime), ("user", .optional .string)]
  | "Event" =>
    [("id", .optional .objectId), ("modified_on", .optional .dateTime), ("kind", .string),
      ("at", .optional .dateTime), ("payload", .any)]
  | "Tree" =>
    [("id", .optional .string), ("modified_on", .optional .dateTime), ("Name", .string),
      ("NAME", .string), ("root", .record "Node"), ("grid", .list (.list .int32)),
      ("extra", .anyDocument)]
  | "Node" =>
    [("label", .string), ("kids", .list (.record "Node")), ("next", .optional (.record "Node"))]
  | _ => []

def usual (name : String) (collection : Option String) (key : KeyKind) : DocumentType :=
  ⟨name, collection, "id", "modified_on", key, records⟩

def restaurant : DocumentType := usual "Restaurant" (some "restaurants") .text

def inspection : DocumentType := usual "Inspection" none .text

def closedRestaurant : DocumentType := usual "ClosedRestaurant" none .text

def foodTruck : DocumentType := usual "FoodTruck" (some "food_trucks") .text

def permit : DocumentType := ⟨"Permit", none, "permitNumber", "lastChanged", .int64, records⟩

def ticket : DocumentType := usual "Ticket" (some "tickets") .int32

def device : DocumentType := ⟨"Device", none, "deviceKey", "touched", .textUuid, records⟩

def session : DocumentType := usual "Session" none .uuid

def event : DocumentType := usual "Event" none .objectId

def tree : DocumentType := usual "Tree" none .text

def types : List DocumentType :=
  [restaurant, inspection, closedRestaurant, foodTruck, permit, ticket, device, session, event,
    tree]

def type? (name : String) : Option DocumentType := types.find? fun T => T.name = name

end Docbase.Catalogue
