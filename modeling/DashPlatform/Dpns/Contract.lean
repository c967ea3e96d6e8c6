import DashPlatform.Dpp.Document

/-! # The DPNS contract

Domains and the preorders that commit to them. A domain has a label, and the full name of its parent. -/

namespace Dpns

def label : Schema := { Schema.ofType "string" with maxLength := some 63 }

def bytesSchema : Schema := .bytes

/-- `dpns-contract-documents.json`, as far as the platform reads it. -/
def documents : List (String × DocumentSchema) :=
  [("domain",
      { properties := some
          [("label", label),
            ("normalizedLabel", label),
            ("normalizedParentDomainName", { Schema.ofType "string" with maxLength := some 190 }),
            ("preorderSalt", bytesSchema),
            ("records", { Schema.ofType "object" with
              properties := [("dashUniqueIdentityId", bytesSchema), ("dashAliasIdentityId", bytesSchema)] }),
            ("subdomainRules", { Schema.ofType "object" with properties := [("allowSubdomains", .ofType "boolean")] })]
        required := some
          ["label", "normalizedLabel", "normalizedParentDomainName", "preorderSalt", "records", "subdomainRules"]
        indices := some
          [⟨[[("normalizedParentDomainName", "asc")], [("normalizedLabel", "asc")]], true⟩,
            ⟨[[("records.dashUniqueIdentityId", "asc")]], true⟩,
            ⟨[[("records.dashAliasIdentityId", "asc")]], false⟩] }),
    ("preorder",
      { properties := some [("saltedDomainHash", bytesSchema)]
        required := some ["saltedDomainHash"]
        indices := some [⟨[[("saltedDomainHash", "asc")]], true⟩] })]

/-! ### The schemas -/

def isDigit (c : Char) : Bool := '0' ≤ c && c ≤ '9'
def isLower (c : Char) : Bool := 'a' ≤ c && c ≤ 'z'
def isUpper (c : Char) : Bool := 'A' ≤ c && c ≤ 'Z'
def isLowerOrDigit (c : Char) : Bool := isLower c || isDigit c

/-- A pattern `^[first][middle]{0,most}[last]$`. -/
def matchesBetween (first middle last : Char → Bool) (most : Nat) (s : String) : Bool :=
  match s.toList with
  | [] => false
  | c :: rest => first c && rest.getLast?.any last && rest.dropLast.all middle && rest.dropLast.length ≤ most

/-- `^[a-zA-Z0-9][a-zA-Z0-9-]{0,61}[a-zA-Z0-9]$` -/
def isLabel (s : String) : Bool :=
  matchesBetween (fun c => isLowerOrDigit c || isUpper c) (fun c => isLowerOrDigit c || isUpper c || c == '-')
    (fun c => isLowerOrDigit c || isUpper c) 61 s && 3 ≤ s.length && s.length ≤ 63

/-- `^[a-z0-9][a-z0-9-]{0,61}[a-z0-9]$` -/
def isNormalizedLabel (s : String) : Bool :=
  matchesBetween isLowerOrDigit (fun c => isLowerOrDigit c || c == '-') isLowerOrDigit 61 s && s.length ≤ 63

/-- `^$|^[[a-z0-9][a-z0-9-\.]{0,188}[a-z0-9]$`. A bracket may come first. -/
def isParentDomainName (s : String) : Bool :=
  (s == "" || matchesBetween (fun c => isLowerOrDigit c || c == '[') (fun c => isLowerOrDigit c || c == '-' || c == '.')
    isLowerOrDigit 188 s) && s.length ≤ 190

/-- A byte array of 32 items. -/
def isBytes32 : Value → Bool
  | .bytes b => b.length == 32
  | _ => false

def isText (p : String → Bool) : Value → Bool
  | .text s => p s
  | _ => false

/-- One of the two identities. -/
def isRecords : Value → Bool
  | .object [(name, value)] => (name == "dashUniqueIdentityId" || name == "dashAliasIdentityId") && isBytes32 value
  | _ => false

def isSubdomainRules : Value → Bool
  | .object [(name, .boolean _)] => name == "allowSubdomains"
  | _ => false

/-- The properties of a document type, with what each of them has to be. All are required, and there are no others. -/
def meetsProperties (properties : List (String × (Value → Bool))) (data : Properties) : Bool :=
  properties.all (fun p => (data.lookup p.1).any p.2) && data.all fun e => (properties.map Prod.fst).contains e.1

def domainProperties : List (String × (Value → Bool)) :=
  [("label", isText isLabel), ("normalizedLabel", isText isNormalizedLabel),
    ("normalizedParentDomainName", isText isParentDomainName), ("preorderSalt", isBytes32), ("records", isRecords),
    ("subdomainRules", isSubdomainRules)]

def preorderProperties : List (String × (Value → Bool)) := [("saltedDomainHash", isBytes32)]

/-- The data of a document is valid against the schema of its type. -/
def meetsSchema (type : String) (data : Properties) : Bool :=
  if type = "domain" then meetsProperties domainProperties data
  else if type = "preorder" then meetsProperties preorderProperties data
  else false

/-! ### Domains -/

/-- What the trigger reads of a domain. -/
structure Domain where
  label : String
  normalizedLabel : String
  normalizedParentDomainName : String
  preorderSalt : Buffer
  dashUniqueIdentityId : Option Buffer
  dashAliasIdentityId : Option Buffer
  allowSubdomains : Bool
deriving DecidableEq

namespace Domain

def text? (data : Properties) (name : String) : Option String :=
  match data.lookup name with
  | some (.text s) => some s
  | _ => none

def bytes? (data : Properties) (name : String) : Option Buffer :=
  match data.lookup name with
  | some (.bytes b) => some b
  | _ => none

def object? (data : Properties) (name : String) : Option Properties :=
  match data.lookup name with
  | some (.object properties) => some properties
  | _ => none

def boolean? (data : Properties) (name : String) : Option Bool :=
  match data.lookup name with
  | some (.boolean b) => some b
  | _ => none

/-- The data of a domain, where the schema is met. -/
def ofData (data : Properties) : Option Domain := do
  let label ← text? data "label"
  let normalizedLabel ← text? data "normalizedLabel"
  let normalizedParentDomainName ← text? data "normalizedParentDomainName"
  let preorderSalt ← bytes? data "preorderSalt"
  let records ← object? data "records"
  let subdomainRules ← object? data "subdomainRules"
  let allowSubdomains ← boolean? subdomainRules "allowSubdomains"
  some
    { label, normalizedLabel, normalizedParentDomainName, preorderSalt
      dashUniqueIdentityId := bytes? records "dashUniqueIdentityId"
      dashAliasIdentityId := bytes? records "dashAliasIdentityId"
      allowSubdomains }

def fullDomainName (d : Domain) : String :=
  if 0 < d.normalizedParentDomainName.length then d.normalizedLabel ++ "." ++ d.normalizedParentDomainName
  else d.normalizedLabel

def parentDomainSegments (d : Domain) : List String := splitPath d.normalizedParentDomainName

def parentDomainLabel (d : Domain) : String := d.parentDomainSegments.headD ""

def grandParentDomainName (d : Domain) : String := ".".intercalate d.parentDomainSegments.tail

end Domain

/-- `Buffer.from(text)` -/
def utf8 (s : String) : Buffer := s.toList.flatMap String.utf8EncodeChar

namespace Domain

/-- What the preorder of a domain commits to. -/
def salted (d : Domain) : Buffer := d.preorderSalt ++ utf8 d.fullDomainName

end Domain
end Dpns
