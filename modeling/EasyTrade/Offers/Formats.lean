import EasyTrade.Offers.Entities
import Mathlib.Data.List.DropRight

/-!
# The two formats of an offer

The aggregator reads an offer from JSON or from XML into the same structure. Its XML decoder
ends a text at an opening bracket, replaces entities, rewrites the ends of lines and refuses
some characters; `toXml` escapes nothing. The two offers agree when every string of the offer
stands in XML as it is.
-/
namespace EasyTrade.Offers

open EasyTrade.Text

/-! ## What the aggregator reads -/

/-- `offerPackage`; `F` is the type of the fees. -/
structure OfferPackage (F : Type) where
  id : Int
  name : Str
  price : F
  support : Str
deriving DecidableEq

/-- `offerProduct`. -/
structure OfferProduct (F : Type) where
  id : Int
  name : Str
  ppt : F
  currency : Str
deriving DecidableEq

/-- `Offer`. -/
structure Offer (F : Type) where
  platform : Str
  quoteFor : Str
  packages : List (OfferPackage F)
  products : List (OfferProduct F)
deriving DecidableEq

/-- The sign of an integer, and its digits. -/
def integerSign : Str → Bool × Str
  | '-' :: digits => (true, digits)
  | '+' :: digits => (false, digits)
  | digits => (false, digits)

/-- `strconv.ParseInt(text, 10, 64)`, none for an error. -/
def parseInt (text : Str) : Option Int :=
  let (negative, digits) := integerSign text
  if digits ≠ [] ∧ digits.all Char.isDigit = true then
    if negative then
      if numeralValue digits ≤ 2 ^ 63 then some (-numeralValue digits) else none
    else if numeralValue digits < 2 ^ 63 then some (numeralValue digits) else none
  else none

/-- White space as Go has it. -/
def isSpace (c : Char) : Bool :=
  9 ≤ c.toNat ∧ c.toNat ≤ 13 ∨ c.toNat = 0x20 ∨ c.toNat = 0x85 ∨ c.toNat = 0xA0 ∨
    c.toNat = 0x1680 ∨ 0x2000 ≤ c.toNat ∧ c.toNat ≤ 0x200A ∨ c.toNat = 0x2028 ∨
    c.toNat = 0x2029 ∨ c.toNat = 0x202F ∨ c.toNat = 0x205F ∨ c.toNat = 0x3000

/-- `strings.TrimSpace`. -/
def trimSpace (text : Str) : Str := (text.dropWhile isSpace).rdropWhile isSpace

section Decoding

variable {α : Type}

/-- A field that one element gives, the last one when there are more; every one has to be
read. -/
def xmlField (parse : Str → Option α) (zero : α) (element : Element) (name : String) :
    Option α :=
  (element.named name.toList).foldlM (fun _ child => parse child.text) zero

/-- A number of an element: nothing is the zero value, white space around it is dropped. -/
def xmlNumber (parse : Str → Option α) (zero : α) (text : Str) : Option α :=
  if text = [] then some zero else parse (trimSpace text)

/-- A field of an object, by its key up to the case of letters; null leaves it as it was. -/
def jsonField (read : α → Value → Option α) (zero : α) (entries : List (Str × Value))
    (name : String) : Option α :=
  (entries.filter fun entry => entry.1.map Char.toLower = name.toList).foldlM
    (fun old entry => read old entry.2) zero

/-- A string of JSON. -/
def jsonText (old : Str) : Value → Option Str
  | .text value => some value
  | .null => some old
  | _ => none

/-- A number of JSON. -/
def jsonNumber (parse : Str → Option α) (old : α) : Value → Option α
  | .number value => parse value.text
  | .null => some old
  | _ => none

/-- An array of JSON. -/
def jsonArray (read : Value → Option α) (_ : List α) : Value → Option (List α)
  | .array items => items.mapM read
  | .null => some []
  | _ => none

/-- The entries of an object of JSON; null has none. -/
def jsonEntries : Value → Option (List (Str × Value))
  | .object entries => some entries
  | .null => some []
  | _ => none

end Decoding

section Offer

variable {F : Type} [Zero F] (parseFloat : Str → Option F)

/-- A package of the JSON answer. -/
def packageFromJson (value : Value) : Option (OfferPackage F) := do
  let entries ← jsonEntries value
  return {
    id := ← jsonField (jsonNumber parseInt) 0 entries "id"
    name := ← jsonField jsonText [] entries "name"
    price := ← jsonField (jsonNumber parseFloat) 0 entries "price"
    support := ← jsonField jsonText [] entries "support" }

/-- A product of the JSON answer. -/
def productFromJson (value : Value) : Option (OfferProduct F) := do
  let entries ← jsonEntries value
  return {
    id := ← jsonField (jsonNumber parseInt) 0 entries "id"
    name := ← jsonField jsonText [] entries "name"
    ppt := ← jsonField (jsonNumber parseFloat) 0 entries "ppt"
    currency := ← jsonField jsonText [] entries "currency" }

/-- `offerFromJson`. -/
def offerFromJson (value : Value) : Option (Offer F) := do
  let entries ← jsonEntries value
  return {
    platform := ← jsonField jsonText [] entries "platform"
    quoteFor := ← jsonField jsonText [] entries "quotefor"
    packages := ← jsonField (jsonArray (packageFromJson parseFloat)) [] entries "packages"
    products := ← jsonField (jsonArray (productFromJson parseFloat)) [] entries "products" }

/-- A package of the XML answer. -/
def packageFromXml (element : Element) : Option (OfferPackage F) := do
  return {
    id := ← xmlField (xmlNumber parseInt 0) 0 element "id"
    name := ← xmlField some [] element "name"
    price := ← xmlField (xmlNumber parseFloat 0) 0 element "price"
    support := ← xmlField some [] element "support" }

/-- A product of the XML answer. -/
def productFromXml (element : Element) : Option (OfferProduct F) := do
  return {
    id := ← xmlField (xmlNumber parseInt 0) 0 element "id"
    name := ← xmlField some [] element "name"
    ppt := ← xmlField (xmlNumber parseFloat 0) 0 element "ppt"
    currency := ← xmlField some [] element "currency" }

/-- `offerFromXml`, from the root of the document. -/
def offerFromElement (element : Element) : Option (Offer F) := do
  return {
    platform := ← xmlField some [] element "platform"
    quoteFor := ← xmlField some [] element "quoteFor"
    packages := ← (element.named "packages".toList).mapM (packageFromXml parseFloat)
    products := ← (element.named "products".toList).mapM (productFromXml parseFloat) }

/-- `offerFromXml`. -/
def offerFromXml (document : Str) : Option (Offer F) := do
  offerFromElement parseFloat (← (Reader.read document).toOption)

end Offer

/-! ## The elements of an offer -/

/-- The element of a package. -/
def Package.element (p : Package) : Element :=
  .node "packages".toList []
    [.node "id".toList p.id.text [], .node "name".toList p.name [],
      .node "price".toList p.price.text [], .node "support".toList p.support []]

/-- The element of a product. -/
def Product.element (p : Product) : Element :=
  .node "products".toList []
    [.node "id".toList p.id.text [], .node "name".toList p.name [],
      .node "ppt".toList p.ppt.text [], .node "currency".toList p.currency []]

theorem Package.element_name (p : Package) : p.element.name = "packages".toList := rfl

theorem Product.element_name (p : Product) : p.element.name = "products".toList := rfl

/-- The element of an offer. -/
def offerElement (platform : Str) (packages : List Package) (products : List Product) :
    Element :=
  .node "offer".toList []
    (.node "platform".toList "EasyTrade".toList [] :: .node "quoteFor".toList platform [] ::
      (packages.map Package.element ++ products.map Product.element))

theorem elements_packages (packages : List Package) :
    elementsOfItems "packages".toList (packages.map Package.value)
      = packages.map Package.element := by
  induction packages with
  | nil => rfl
  | cons p packages step =>
    rw [List.map_cons, List.map_cons, elementsOfItems, step]
    rfl

theorem elements_products (products : List Product) :
    elementsOfItems "products".toList (products.map Product.value)
      = products.map Product.element := by
  induction products with
  | nil => rfl
  | cons p products step =>
    rw [List.map_cons, List.map_cons, elementsOfItems, step]
    rfl

/-- The XML answer is the document of the offer's element. -/
theorem toXml_offerData (platform : Str) (packages : List Package) (products : List Product) :
    toXml "offer".toList (offerData platform packages products)
      = (offerElement platform packages products).write := by
  rw [toXml_eq]
  simp only [offerData, elements, elementsOfEntries, elements_packages, elements_products,
    Element.writeAll, List.append_nil, List.singleton_append, template]
  rfl

/-! ## Fields -/

section Fields

variable {α : Type} (zero : α)

/-- The text of a number has no white space around it. -/
theorem trimSpace_number (n : Number) : trimSpace n.text = n.text := by
  have solid : ∀ c ∈ n.text, ¬isSpace c = true := by
    intro c member
    rcases n.plain c member with digit | rfl | rfl | rfl | rfl
    · simp only [Char.isDigit, Bool.and_eq_true, decide_eq_true_eq, ge_iff_le,
        UInt32.le_iff_toNat_le] at digit
      change 48 ≤ c.toNat ∧ c.toNat ≤ 57 at digit
      simp only [isSpace, decide_eq_true_eq]
      omega
    all_goals decide
  have front : n.text.dropWhile isSpace = n.text := by
    rw [List.dropWhile_eq_self_iff]
    exact fun positive => solid _ (List.getElem_mem positive)
  rw [trimSpace, front, List.rdropWhile_eq_self_iff]
  exact fun nonempty => solid _ (List.getLast_mem nonempty)

/-- A number is read from XML as from JSON. -/
theorem xmlNumber_text (parse : Str → Option α) (n : Number) :
    xmlNumber parse zero n.text = parse n.text := by
  rw [xmlNumber, if_neg n.nonempty, trimSpace_number]

/-- A field that one element gives. -/
theorem xmlField_one {parse : Str → Option α} {element : Element} {name : String}
    {text : Str} (one : element.named name.toList = [.node name.toList text []]) :
    xmlField parse zero element name = parse text := by
  rw [xmlField, one]
  simp [Element.text]

/-- A field that one entry gives. -/
theorem jsonField_one {read : α → Value → Option α} {entries : List (Str × Value)}
    {name : String} (key : Str) (value : Value)
    (one : (entries.filter fun entry => entry.1.map Char.toLower = name.toList)
      = [(key, value)]) :
    jsonField read zero entries name = read zero value := by
  rw [jsonField, one]
  simp

end Fields

section

variable {F : Type} [Zero F] (parseFloat : Str → Option F)

/-- What a package is read as. -/
def Package.decoded (p : Package) : Option (OfferPackage F) := do
  return { id := ← parseInt p.id.text, name := p.name, price := ← parseFloat p.price.text,
           support := p.support }

/-- What a product is read as. -/
def Product.decoded (p : Product) : Option (OfferProduct F) := do
  return { id := ← parseInt p.id.text, name := p.name, ppt := ← parseFloat p.ppt.text,
           currency := p.currency }

theorem packageFromXml_element (p : Package) :
    packageFromXml parseFloat p.element = p.decoded parseFloat := by
  have id : p.element.named "id".toList = [.node "id".toList p.id.text []] := rfl
  have name : p.element.named "name".toList = [.node "name".toList p.name []] := rfl
  have price : p.element.named "price".toList = [.node "price".toList p.price.text []] := rfl
  have support : p.element.named "support".toList
      = [.node "support".toList p.support []] := rfl
  rw [packageFromXml, xmlField_one _ id, xmlField_one _ name, xmlField_one _ price,
    xmlField_one _ support, xmlNumber_text, xmlNumber_text]
  rfl

theorem productFromXml_element (p : Product) :
    productFromXml parseFloat p.element = p.decoded parseFloat := by
  have id : p.element.named "id".toList = [.node "id".toList p.id.text []] := rfl
  have name : p.element.named "name".toList = [.node "name".toList p.name []] := rfl
  have ppt : p.element.named "ppt".toList = [.node "ppt".toList p.ppt.text []] := rfl
  have currency : p.element.named "currency".toList
      = [.node "currency".toList p.currency []] := rfl
  rw [productFromXml, xmlField_one _ id, xmlField_one _ name, xmlField_one _ ppt,
    xmlField_one _ currency, xmlNumber_text, xmlNumber_text]
  rfl

theorem packageFromJson_value (p : Package) :
    packageFromJson parseFloat p.value = p.decoded parseFloat := by
  rw [Package.value, packageFromJson, jsonEntries]
  simp only [Option.bind_eq_bind, Option.bind_some]
  rw [jsonField_one _ "id".toList (.number p.id) rfl,
    jsonField_one _ "name".toList (.text p.name) rfl,
    jsonField_one _ "price".toList (.number p.price) rfl,
    jsonField_one _ "support".toList (.text p.support) rfl]
  rfl

theorem productFromJson_value (p : Product) :
    productFromJson parseFloat p.value = p.decoded parseFloat := by
  rw [Product.value, productFromJson, jsonEntries]
  simp only [Option.bind_eq_bind, Option.bind_some]
  rw [jsonField_one _ "id".toList (.number p.id) rfl,
    jsonField_one _ "name".toList (.text p.name) rfl,
    jsonField_one _ "ppt".toList (.number p.ppt) rfl,
    jsonField_one _ "currency".toList (.text p.currency) rfl]
  rfl

/-- What an offer is read as, when its strings arrive. -/
def decodedOffer (platform : Str) (packages : List Package) (products : List Product) :
    Option (Offer F) := do
  return {
    platform := "EasyTrade".toList
    quoteFor := platform
    packages := ← packages.mapM (Package.decoded parseFloat)
    products := ← products.mapM (Product.decoded parseFloat) }

/-- The JSON answer arrives. -/
theorem offerFromJson_offerData (platform : Str) (packages : List Package)
    (products : List Product) :
    offerFromJson parseFloat (offerData platform packages products)
      = decodedOffer parseFloat platform packages products := by
  rw [offerData, offerFromJson, jsonEntries]
  simp only [Option.bind_eq_bind, Option.bind_some]
  rw [jsonField_one _ "platform".toList (.text "EasyTrade".toList) rfl,
    jsonField_one _ "quoteFor".toList (.text platform) rfl,
    jsonField_one _ "packages".toList (.array (packages.map Package.value)) rfl,
    jsonField_one _ "products".toList (.array (products.map Product.value)) rfl]
  simp only [jsonText, jsonArray, List.mapM_map, Option.bind_some, decodedOffer,
    Option.bind_eq_bind, Function.comp_def, packageFromJson_value, productFromJson_value]

end

/-! ## The XML answer -/

/-- Elements of one name are kept all, or none is. -/
theorem filter_named {α : Type} (element : α → Element) {name : Str}
    (same : ∀ item, (element item).name = name) (items : List α) (text : Str) :
    ((items.map element).filter fun child => child.name = text)
      = if name = text then items.map element else [] := by
  by_cases here : name = text
  · rw [if_pos here, List.filter_eq_self]
    simp [same, here]
  · rw [if_neg here, List.filter_eq_nil_iff]
    simp [same, here]

/-- The children of an offer of a name. -/
theorem named_offerElement (platform : Str) (packages : List Package)
    (products : List Product) (text : Str) :
    (offerElement platform packages products).named text
      = [Element.node "platform".toList "EasyTrade".toList [],
          .node "quoteFor".toList platform []].filter (fun child => child.name = text) ++
        ((if "packages".toList = text then packages.map Package.element else []) ++
        (if "products".toList = text then products.map Product.element else [])) := by
  have packagesKept := filter_named Package.element Package.element_name packages text
  have productsKept := filter_named Product.element Product.element_name products text
  rw [← packagesKept, ← productsKept, ← List.filter_append, ← List.filter_append]
  rfl

section

variable {F : Type} [Zero F] (parseFloat : Str → Option F)

/-- The element of an offer is read as the JSON answer is. -/
theorem offerFromElement_offerElement (platform : Str) (packages : List Package)
    (products : List Product) :
    offerFromElement parseFloat (offerElement platform packages products)
      = decodedOffer parseFloat platform packages products := by
  have platformRead : (offerElement platform packages products).named "platform".toList
      = [.node "platform".toList "EasyTrade".toList []] := named_offerElement _ _ _ _
  have quoteForRead : (offerElement platform packages products).named "quoteFor".toList
      = [.node "quoteFor".toList platform []] := named_offerElement _ _ _ _
  have packagesRead : (offerElement platform packages products).named "packages".toList
      = packages.map Package.element := by
    rw [named_offerElement]
    exact List.append_nil _
  have productsRead : (offerElement platform packages products).named "products".toList
      = products.map Product.element := named_offerElement _ _ _ _
  rw [offerFromElement, xmlField_one _ platformRead, xmlField_one _ quoteForRead,
    packagesRead, productsRead]
  simp only [List.mapM_map, Option.bind_some, decodedOffer, Option.bind_eq_bind,
    Function.comp_def, packageFromXml_element, productFromXml_element]

/-- The strings of an offer stand in XML as they are. -/
structure PlainOffer (platform : Str) (packages : List Package) (products : List Product) :
    Prop where
  platform : PlainText platform
  packages : ∀ p ∈ packages, PlainText p.name ∧ PlainText p.support
  products : ∀ p ∈ products, PlainText p.name ∧ PlainText p.currency

/-- The text of a number stands in XML as it is. -/
theorem plainText_number (n : Number) : PlainText n.text := by
  apply PlainText.of_visible
  intro c member
  rcases n.plain c member with digit | rfl | rfl | rfl | rfl
  · have bounds : 48 ≤ c.toNat ∧ c.toNat ≤ 57 := by
      simpa [Char.isDigit, UInt32.le_iff_toNat_le] using digit
    have other : ∀ {d : Char}, d.toNat > 57 ∨ d.toNat < 48 → c ≠ d := by
      rintro d out rfl
      omega
    exact ⟨by omega, by omega, other (by decide), other (by decide), other (by decide)⟩
  all_goals decide

/-- The element of an offer needs no escape when its strings do not. -/
theorem offerElement_plain {platform : Str} {packages : List Package}
    {products : List Product} (plain : PlainOffer platform packages products) :
    (offerElement platform packages products).Plain := by
  have easyTrade : PlainText "EasyTrade".toList := .of_all (by decide +kernel)
  refine ⟨rfl, PlainText.nil, ⟨rfl, easyTrade, trivial⟩, ⟨rfl, plain.platform, trivial⟩, ?_⟩
  apply Element.AllPlain.mk
  intro element member
  rcases List.mem_append.mp member with package | product
  · obtain ⟨p, listed, rfl⟩ := List.mem_map.mp package
    obtain ⟨name, support⟩ := plain.packages p listed
    exact ⟨rfl, PlainText.nil, ⟨rfl, plainText_number _, trivial⟩, ⟨rfl, name, trivial⟩,
      ⟨rfl, plainText_number _, trivial⟩, ⟨rfl, support, trivial⟩, trivial⟩
  · obtain ⟨p, listed, rfl⟩ := List.mem_map.mp product
    obtain ⟨name, currency⟩ := plain.products p listed
    exact ⟨rfl, PlainText.nil, ⟨rfl, plainText_number _, trivial⟩, ⟨rfl, name, trivial⟩,
      ⟨rfl, plainText_number _, trivial⟩, ⟨rfl, currency, trivial⟩, trivial⟩

/-- The XML answer is read as the JSON answer is, when its strings need no escape. -/
theorem offerFromXml_offerData {platform : Str} {packages : List Package}
    {products : List Product} (plain : PlainOffer platform packages products) :
    offerFromXml parseFloat (toXml "offer".toList (offerData platform packages products))
      = decodedOffer parseFloat platform packages products := by
  rw [toXml_offerData, offerFromXml, Reader.read_write (offerElement_plain plain)]
  exact offerFromElement_offerElement parseFloat platform packages products

/-- An offer whose strings stand in XML as they are is the same offer in both formats: it is
decoded from both, to the same values in the same order, or from neither. -/
theorem formats_agree (platform : Str) (packages : List Package) (products : List Product)
    (plain : PlainOffer platform packages products) :
    offerFromXml parseFloat (toXml "offer".toList (offerData platform packages products))
      = offerFromJson parseFloat (offerData platform packages products) := by
  rw [offerFromXml_offerData parseFloat plain, offerFromJson_offerData]

end

/-- The number 1. -/
def one : Number := ⟨1, ['1'], List.forall_mem_singleton.mpr (by decide), by decide⟩

/-- A product whose name has an ampersand. -/
def researchProduct : Product := ⟨one, "R&D".toList, one, "USD".toList⟩

/-- An ampersand in the name of a product makes the XML answer unreadable. -/
theorem ampersand_not_read :
    (offerFromJson stod (offerData "platform".toList [] [researchProduct])).isSome = true ∧
      Reader.refusal (toXml "offer".toList (offerData "platform".toList [] [researchProduct]))
        = some .syntaxError ∧
      offerFromXml stod (toXml "offer".toList (offerData "platform".toList [] [researchProduct]))
        = none := by
  decide +kernel

/-- A product whose name has nothing to escape. -/
def sharesProduct : Product := ⟨one, "Shares".toList, one, "USD".toList⟩

/-- An offer with one product and no packages. -/
theorem formats_agree_on_shares :
    PlainOffer "platform".toList [] [sharesProduct] ∧
      offerFromXml stod (toXml "offer".toList (offerData "platform".toList [] [sharesProduct]))
        = offerFromJson stod (offerData "platform".toList [] [sharesProduct]) := by
  have plain : PlainOffer "platform".toList [] [sharesProduct] := by
    refine ⟨.of_all (by decide +kernel), by simp, ?_⟩
    intro p member
    rw [List.mem_singleton.mp member]
    exact ⟨.of_all (by decide +kernel), .of_all (by decide +kernel)⟩
  exact ⟨plain, formats_agree stod "platform".toList [] [sharesProduct] plain⟩

end EasyTrade.Offers
