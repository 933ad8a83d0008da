import EasyTrade.Offers.Formats

/-!
# The filters of an offer request

A platform is configured with the products it wants and the highest fee it takes. The
aggregator adds both to the query of its request, but to a copy of the query: the request goes
out without them, and the offer service, which filters by what the query has, answers with
everything the manager has.
-/
namespace EasyTrade.Offers

open EasyTrade.Text

/-! ## What a request carries -/

/-- A fee: a number of YAML or of JavaScript. -/
inductive Fee where
  | nan
  | finite (value : ℚ)
  | infinite (negative : Bool)

/-- `price <= fee`. -/
def Fee.admits (fee : Fee) (price : ℚ) : Bool :=
  match fee with
  | .nan => false
  | .finite value => price ≤ value
  | .infinite negative => !negative

/-- A platform name; it stands in the path of a URL as it is. -/
structure Segment where
  text : Str
  plain : ∀ c ∈ text, c.isAlphanum ∨ c = '-' ∨ c = '.' ∨ c = '_' ∨ c = '~'
  nonempty : text ≠ []

/-- What the aggregator asks for. -/
inductive MimeType where
  | json
  | xml
deriving DecidableEq

/-- A request for an offer. -/
structure Request where
  platform : Segment
  /-- The pairs of the query. -/
  query : List (String × Str)
  accept : Option MimeType

/-- What the offer service answers. -/
inductive Body where
  | json (value : Value)
  | xml (document : Str)

/-- What the two languages make of the filters: `fmt.Sprint` of a fee, `Number` and
`JSON.parse`, which fails for text that is no JSON. -/
structure Language where
  sprint : Fee → Str
  number : Str → Fee
  parse : Str → Option (List Str)

/-- `PlatformConfig`, as far as a request is made from it. -/
structure PlatformConfig (language : Language) where
  name : Segment
  filter : Str
  maxFee : Fee
  /-- The product names that the filter is the JSON of. -/
  names : List Str
  isArray : language.parse filter = some names

/-! ## The offer service -/

/-- `getPackages`: nothing when the manager does not answer. -/
def getPackages (answer : Option (List Package)) (maxYearlyFee : Option Fee) : List Package :=
  match answer, maxYearlyFee with
  | none, _ => []
  | some data, none => data
  | some data, some fee => data.filter fun p => fee.admits p.price.value

/-- `getProducts`: nothing when the manager does not answer. -/
def getProducts (answer : Option (List Product)) (productNames : Option (List Str)) :
    List Product :=
  match answer, productNames with
  | none, _ => []
  | some data, none => data
  | some data, some names => data.filter fun p => p.name ∈ names

/-- The handler of the offer service, with the manager's answers; none when it throws. -/
def handleOffers (language : Language) (packages : Option (List Package))
    (products : Option (List Product)) (req : Request) : Option Body := do
  let maxYearlyFee := (req.query.lookup "maxYearlyFeeFilter").map language.number
  let productNames ← match req.query.lookup "productFilter" with
    | none => some none
    | some text => (language.parse text).map some
  let data := offerData req.platform.text (getPackages packages maxYearlyFee)
    (getProducts products productNames)
  if req.accept = some .xml then return .xml (toXml "offer".toList data)
  else return .json data

/-! ## The aggregator -/

/-- `http.NewRequest` with the URL of a platform, which has no query. -/
def newRequest (platformName : Segment) : Request := ⟨platformName, [], none⟩

/-- The request that `getOffers` sends. -/
def offerRequest (language : Language) (platformName : Segment) (productFilter : Str)
    (maxYearlyFeeFilter : Fee) (mimeType : MimeType) : Request :=
  let req := newRequest platformName
  let req := { req with accept := some mimeType }
  -- `req.URL.Query()` is a copy, and what is added to it is not put back
  let q := req.query
  let q := q ++ [("productFilter", productFilter)]
  let _ := q ++ [("maxYearlyFeeFilter", language.sprint maxYearlyFeeFilter)]
  req

section Connector

variable {F : Type} [Zero F] (parseFloat : Str → Option F)

/-- `parseResponse`; an answer in the other format is not read. -/
def parseResponse (body : Body) (mimeType : MimeType) : Option (Offer F) :=
  match mimeType, body with
  | .json, .json value => offerFromJson parseFloat value
  | .xml, .xml document => offerFromXml parseFloat document
  | _, _ => none

/-- `getOffers`; none when it returns an error. -/
def getOffers (language : Language) (packages : Option (List Package))
    (products : Option (List Product)) (config : PlatformConfig language)
    (mimeType : MimeType) : Option (Offer F) := do
  let body ← handleOffers language packages products
    (offerRequest language config.name config.filter config.maxFee mimeType)
  parseResponse parseFloat body mimeType

/-- The offer holds exactly the packages up to the fee and exactly the products of the filter,
in the manager's order. -/
structure Honours {language : Language} (config : PlatformConfig language)
    (packages : List Package) (products : List Product) (offer : Offer F) : Prop where
  packages : some offer.packages =
    (packages.filter fun p => config.maxFee.admits p.price.value).mapM
      (Package.decoded parseFloat)
  products : some offer.products =
    (products.filter fun p => p.name ∈ config.names).mapM (Product.decoded parseFloat)

end Connector

/-! ## What the aggregator gets -/

section Lists

variable {α β : Type}

/-- What a partial map makes of a list is as long as the list. -/
theorem length_of_mapM {f : α → Option β} {items : List α} {results : List β}
    (mapped : items.mapM f = some results) : results.length = items.length := by
  induction items generalizing results with
  | nil => simp_all
  | cons item items step =>
    rw [List.mapM_cons] at mapped
    cases first : f item with
    | none => simp [first] at mapped
    | some result =>
      cases others : items.mapM f with
      | none => simp [first, others] at mapped
      | some later =>
        have whole : results = result :: later := by simpa [first, others] using mapped.symm
        rw [whole, List.length_cons, step others, List.length_cons]

/-- A filter keeps what a partial map makes of a list exactly when it keeps the list. -/
theorem mapM_filter_eq_iff {f : α → Option β} {items : List α} {results : List β}
    (mapped : items.mapM f = some results) (keep : α → Bool) :
    some results = (items.filter keep).mapM f ↔ ∀ item ∈ items, keep item = true := by
  constructor
  · intro same
    have short : results.length = (items.filter keep).length := length_of_mapM same.symm
    have long : results.length = items.length := length_of_mapM mapped
    have all : (items.filter keep).length = items.length := by omega
    exact List.length_filter_eq_length_iff.mp all
  · intro all
    rw [List.filter_eq_self.mpr all, mapped]

/-- The lists of a decoded offer. -/
theorem lists_of_decodedOffer {F : Type} (parseFloat : Str → Option F) {platform : Str} {packages : List Package}
    {products : List Product} {offer : Offer F}
    (decoded : decodedOffer parseFloat platform packages products = some offer) :
    packages.mapM (Package.decoded parseFloat) = some offer.packages ∧
      products.mapM (Product.decoded parseFloat) = some offer.products := by
  cases first : packages.mapM (Package.decoded parseFloat) with
  | none => simp [decodedOffer, first] at decoded
  | some kept =>
    cases second : products.mapM (Product.decoded parseFloat) with
    | none => simp [decodedOffer, first, second] at decoded
    | some sold =>
      have whole : Offer.mk "EasyTrade".toList platform kept sold = offer := by
        simpa [decodedOffer, first, second] using decoded
      rw [← whole]
      exact ⟨rfl, rfl⟩

end Lists

section Connector

variable {F : Type} [Zero F] (parseFloat : Str → Option F) {language : Language}

/-- The request has no query, so the answer has everything the manager has. -/
theorem handleOffers_offerRequest (packages : List Package) (products : List Product)
    (config : PlatformConfig language) (mimeType : MimeType) :
    handleOffers language (some packages) (some products)
        (offerRequest language config.name config.filter config.maxFee mimeType)
      = some (if mimeType = .xml then
          .xml (toXml "offer".toList (offerData config.name.text packages products))
        else .json (offerData config.name.text packages products)) := by
  cases mimeType <;> rfl

/-- An offer that is returned is decoded from everything the manager has. -/
theorem getOffers_eq (packages : List Package) (products : List Product)
    (config : PlatformConfig language) (mimeType : MimeType)
    (plain : mimeType = .xml → PlainOffer config.name.text packages products) :
    getOffers parseFloat language (some packages) (some products) config mimeType
      = decodedOffer parseFloat config.name.text packages products := by
  rw [getOffers, handleOffers_offerRequest]
  simp only [Option.bind_eq_bind, Option.bind_some]
  by_cases xml : mimeType = .xml
  · rw [if_pos xml, xml, parseResponse]
    exact offerFromXml_offerData parseFloat (plain xml)
  · have json : mimeType = .json := by
      cases mimeType
      · rfl
      · exact absurd rfl xml
    rw [if_neg xml, json, parseResponse]
    exact offerFromJson_offerData parseFloat config.name.text packages products

/-- An offer that is returned honours the filters exactly when they filter nothing: no package
of the manager costs more than the fee, and every product of the manager is asked for. -/
theorem offers_honour_filters (packages : List Package) (products : List Product)
    (config : PlatformConfig language) (mimeType : MimeType)
    (plain : mimeType = .xml → PlainOffer config.name.text packages products) (offer : Offer F)
    (returned : getOffers parseFloat language (some packages) (some products) config mimeType
      = some offer) :
    Honours parseFloat config packages products offer ↔
      (∀ p ∈ packages, config.maxFee.admits p.price.value = true) ∧
        ∀ p ∈ products, p.name ∈ config.names := by
  rw [getOffers_eq parseFloat packages products config mimeType plain] at returned
  obtain ⟨kept, sold⟩ := lists_of_decodedOffer parseFloat returned
  have packagesKept := mapM_filter_eq_iff kept fun p => config.maxFee.admits p.price.value
  have productsKept := mapM_filter_eq_iff sold fun p => p.name ∈ config.names
  simp only [decide_eq_true_eq] at productsKept
  constructor
  · intro honoured
    exact ⟨packagesKept.mp honoured.packages, productsKept.mp honoured.products⟩
  · rintro ⟨cheap, wanted⟩
    exact ⟨packagesKept.mpr cheap, productsKept.mpr wanted⟩

end Connector

/-- The fees 0 and 1 as text, and a filter of shares. -/
def sharesLanguage : Language where
  sprint fee := if fee.admits 1 then ['1'] else ['0']
  number text := if text = ['1'] then .finite 1 else .finite 0
  parse text := if text = "[\"Shares\"]".toList then some ["Shares".toList] else none

/-- The configuration of a platform that wants shares only. -/
def sharesPlatform (maxFee : Fee) : PlatformConfig sharesLanguage where
  name := ⟨"shares".toList, by simp, by decide⟩
  filter := "[\"Shares\"]".toList
  maxFee := maxFee
  names := ["Shares".toList]
  isArray := rfl

/-- A package for 1. -/
def starterPackage : Package := ⟨one, "Starter".toList, one, "Email".toList⟩

/-- The offer of a starter package and a product. -/
def starterOffer (product : Product) : Offer ℚ where
  platform := "EasyTrade".toList
  quoteFor := "shares".toList
  packages := [⟨1, "Starter".toList, 1, "Email".toList⟩]
  products := [⟨1, product.name, 1, product.currency⟩]

/-- A platform that takes no fee and wants shares gets a package for 1 and another product. -/
theorem filters_not_sent :
    getOffers stod sharesLanguage (some [starterPackage]) (some [researchProduct])
        (sharesPlatform (.finite 0)) .json = some (starterOffer researchProduct) ∧
      ¬Honours stod (sharesPlatform (.finite 0)) [starterPackage] [researchProduct]
        (starterOffer researchProduct) := by
  constructor
  · decide +kernel
  · intro honoured
    have none : some [(⟨1, "Starter".toList, 1, "Email".toList⟩ : OfferPackage ℚ)] = some [] :=
      honoured.packages
    simp at none

/-- A platform that takes the fee of every package and wants every product. -/
theorem offers_honour_wide_filters :
    Honours stod (sharesPlatform (.finite 1)) [starterPackage] [sharesProduct]
        (starterOffer sharesProduct) ↔
      (∀ p ∈ [starterPackage],
          (sharesPlatform (.finite 1)).maxFee.admits p.price.value = true) ∧
        ∀ p ∈ [sharesProduct], p.name ∈ (sharesPlatform (.finite 1)).names :=
  offers_honour_filters stod [starterPackage] [sharesProduct] (sharesPlatform (.finite 1))
    .json (fun xml => by cases xml) (starterOffer sharesProduct) (by decide +kernel)

end EasyTrade.Offers
