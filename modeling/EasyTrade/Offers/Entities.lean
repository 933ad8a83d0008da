import EasyTrade.Text.Decimals
import EasyTrade.Text.Xml

/-!
# What the offer service answers

The offer service asks the manager for packages and products, puts them into one object with
the name of the platform, and sends the object as JSON, or as the XML that its own `toXml`
writes.
-/
namespace EasyTrade.Offers

open EasyTrade.Text

/-- A string, by its characters. -/
abbrev Str := List Char

/-- A finite number of JavaScript, with the text that the language writes for it. -/
structure Number where
  value : ℚ
  text : Str
  /-- The text has digits, a point, an exponent and signs. -/
  plain : ∀ c ∈ text, c.isDigit ∨ c = '.' ∨ c = 'e' ∨ c = '+' ∨ c = '-'
  nonempty : text ≠ []

/-- A value of JavaScript that comes from JSON. -/
inductive Value where
  | null
  | bool (value : Bool)
  | number (value : Number)
  | text (value : Str)
  | array (items : List Value)
  | object (entries : List (Str × Value))

/-- A package of the manager. -/
structure Package where
  id : Number
  name : Str
  price : Number
  support : Str

/-- A product of the manager. -/
structure Product where
  id : Number
  name : Str
  ppt : Number
  currency : Str

/-- The object of a package. -/
def Package.value (p : Package) : Value :=
  .object [("id".toList, .number p.id), ("name".toList, .text p.name),
    ("price".toList, .number p.price), ("support".toList, .text p.support)]

/-- The object of a product. -/
def Product.value (p : Product) : Value :=
  .object [("id".toList, .number p.id), ("name".toList, .text p.name),
    ("ppt".toList, .number p.ppt), ("currency".toList, .text p.currency)]

/-- The object that `getOffers` answers with. -/
def offerData (platform : Str) (packages : List Package) (products : List Product) : Value :=
  .object [("platform".toList, .text "EasyTrade".toList), ("quoteFor".toList, .text platform),
    ("packages".toList, .array (packages.map Package.value)),
    ("products".toList, .array (products.map Product.value))]

/-! ## The XML of the offer service -/

/-- What a template string makes of a value that is neither an array nor an object. -/
def template : Value → Str
  | .null => "null".toList
  | .bool true => "true".toList
  | .bool false => "false".toList
  | .number value => value.text
  | .text value => value
  | .array _ | .object _ => []

/-- A piece of markup around some text. -/
def tagged (tag inner : Str) : Str := '<' :: tag ++ '>' :: inner ++ '<' :: '/' :: tag ++ ['>']

mutual

/-- `toXml`. -/
def toXml (tag : Str) : Value → Str
  | .array items => toXmlItems tag items
  | .object entries => tagged tag (toXmlEntries entries)
  | .null => tagged tag (template .null)
  | .bool value => tagged tag (template (.bool value))
  | .number value => tagged tag (template (.number value))
  | .text value => tagged tag (template (.text value))

/-- The items of an array, each under the tag of the array. -/
def toXmlItems (tag : Str) : List Value → Str
  | [] => []
  | item :: items => toXml tag item ++ toXmlItems tag items

/-- The entries of an object, each under its key. -/
def toXmlEntries : List (Str × Value) → Str
  | [] => []
  | (key, value) :: entries => toXml key value ++ toXmlEntries entries

end

/-! ## The elements of a value -/

mutual

/-- The elements that the XML of a value has. -/
def elements (tag : Str) : Value → List Element
  | .array items => elementsOfItems tag items
  | .object entries => [.node tag [] (elementsOfEntries entries)]
  | .null => [.node tag (template .null) []]
  | .bool value => [.node tag (template (.bool value)) []]
  | .number value => [.node tag (template (.number value)) []]
  | .text value => [.node tag (template (.text value)) []]

/-- The elements of the items of an array. -/
def elementsOfItems (tag : Str) : List Value → List Element
  | [] => []
  | item :: items => elements tag item ++ elementsOfItems tag items

/-- The elements of the entries of an object. -/
def elementsOfEntries : List (Str × Value) → List Element
  | [] => []
  | (key, value) :: entries => elements key value ++ elementsOfEntries entries

end

mutual

/-- The XML of a value is the document of its elements, with nothing escaped. -/
theorem toXml_eq (tag : Str) : ∀ value, toXml tag value = Element.writeAll (elements tag value)
  | .array items => by rw [toXml, elements, toXmlItems_eq tag items]
  | .object entries => by
    rw [toXml, elements, toXmlEntries_eq entries]
    simp [tagged, Element.writeAll, Element.write]
  | .null => by simp [toXml, elements, tagged, Element.writeAll, Element.write]
  | .bool _ => by simp [toXml, elements, tagged, Element.writeAll, Element.write]
  | .number _ => by simp [toXml, elements, tagged, Element.writeAll, Element.write]
  | .text _ => by simp [toXml, elements, tagged, Element.writeAll, Element.write]

theorem toXmlItems_eq (tag : Str) :
    ∀ items, toXmlItems tag items = Element.writeAll (elementsOfItems tag items)
  | [] => by simp [toXmlItems, elementsOfItems, Element.writeAll]
  | item :: items => by
    rw [toXmlItems, elementsOfItems, Element.writeAll_append, toXml_eq tag item,
      toXmlItems_eq tag items]

theorem toXmlEntries_eq :
    ∀ entries, toXmlEntries entries = Element.writeAll (elementsOfEntries entries)
  | [] => by simp [toXmlEntries, elementsOfEntries, Element.writeAll]
  | (key, value) :: entries => by
    rw [toXmlEntries, elementsOfEntries, Element.writeAll_append, toXml_eq key value,
      toXmlEntries_eq entries]

end

end EasyTrade.Offers
