import DashPlatform.Dpns.Contract
import DashPlatform.Dpp.DocumentsBatchBasic

/-! # Data triggers

Triggers check the transitions of a contract, by document type and action, against the documents that are stored. -/

namespace Dpns

/-- What the triggers are configured with. -/
structure Config where
  dpnsDataContractId : Buffer
  dpnsTopLevelIdentityId : Buffer
  dpnsOwnerId : Buffer
  hash : Buffer → Buffer
  identifierToString : Buffer → String

structure DataTriggerExecutionContext where
  store : DocumentStore
  dataContract : DataContract
  ownerId : Buffer

/-- `AbstractDocumentTransition.ACTIONS` -/
def actionOf (t : DocumentTransition) : Nat :=
  match t.action with
  | .create .. => 0
  | .replace .. => 1
  | .delete => 3

/-- A trigger gives errors, or throws one with a message. -/
structure DataTrigger where
  dataContractId : Buffer
  documentType : String
  transitionAction : Nat
  trigger : DocumentTransition → DataTriggerExecutionContext → Except String (List DocumentsBatchError)

namespace DataTrigger

def isMatchingTriggerForData (self : DataTrigger) (dataContractId : Buffer) (documentType : String)
    (transitionAction : Nat) : Bool :=
  self.dataContractId = dataContractId && self.documentType = documentType && self.transitionAction = transitionAction

def execute (self : DataTrigger) (t : DocumentTransition) (context : DataTriggerExecutionContext) :
    List DocumentsBatchError :=
  match self.trigger t context with
  | .ok errors => errors
  | .error message => [.dataTrigger message]

end DataTrigger

def rejectDataTrigger (_ : DocumentTransition) (_ : DataTriggerExecutionContext) :
    Except String (List DocumentsBatchError) := .ok [.dataTrigger "Action is not allowed"]

def maxPrintableDomainNameLength : Nat := 253

/-- An error where a condition is met. -/
def errorIf (condition : Bool) (message : String) : List DocumentsBatchError :=
  if condition then [.dataTrigger message] else []

section
variable (config : Config)

/-- The errors in a domain by itself. -/
def domainErrors (domain : Domain) (ownerId : Buffer) : List DocumentsBatchError :=
  errorIf (maxPrintableDomainNameLength < domain.fullDomainName.length)
      ("Full domain name length can not be more than " ++ toString maxPrintableDomainNameLength ++
        " characters long but got " ++ toString domain.fullDomainName.length) ++
    errorIf (domain.normalizedLabel ≠ domain.label.toLower) "Normalized label doesn't match label" ++
    errorIf (domain.dashUniqueIdentityId.any fun id => ownerId ≠ id)
      ("ownerId " ++ config.identifierToString ownerId ++ " doesn't match dashUniqueIdentityId " ++
        config.identifierToString (domain.dashUniqueIdentityId.getD [])) ++
    errorIf (domain.dashAliasIdentityId.any fun id => ownerId ≠ id)
      ("ownerId " ++ config.identifierToString ownerId ++ " doesn't match dashAliasIdentityId " ++
        config.identifierToString (domain.dashAliasIdentityId.getD [])) ++
    errorIf (domain.normalizedParentDomainName.length = 0 && ownerId ≠ config.dpnsTopLevelIdentityId)
      "Can't create top level domain for this identity"

/-- The stored documents that the parent of a domain is taken from. -/
def fetchParentDomains (domain : Domain) (t : DocumentTransition) (context : DataTriggerExecutionContext) : List Document :=
  context.store.fetchDocuments context.dataContract.id t.type
    [.equal "normalizedParentDomainName" (.text domain.grandParentDomainName),
      .equal "normalizedLabel" (.text domain.parentDomainLabel)]

/-- The rules of a parent that is stored. -/
def parentErrors (domain : Domain) (parentDomain : Document) (ownerId : Buffer) : List DocumentsBatchError :=
  errorIf domain.allowSubdomains "Allowing subdomains registration is forbidden for non top level domains" ++
    errorIf ((Domain.ofData parentDomain.data).any (fun parent => !parent.allowSubdomains) &&
        ownerId ≠ parentDomain.ownerId)
      "The subdomain can be created only by the parent domain owner"

def fetchPreorders (domain : Domain) (context : DataTriggerExecutionContext) : List Document :=
  context.store.fetchDocuments context.dataContract.id "preorder"
    [.equal "saltedDomainHash" (.bytes (config.hash domain.salted))]

def preorderErrors (domain : Domain) (context : DataTriggerExecutionContext) : List DocumentsBatchError :=
  errorIf (fetchPreorders config domain context).isEmpty "preorderDocument was not found"

/-- Data that does not meet the schema is not read. -/
def createDomainDataTrigger (t : DocumentTransition) (context : DataTriggerExecutionContext) :
    Except String (List DocumentsBatchError) :=
  match Domain.ofData t.data with
  | none => .error "Cannot read property of undefined"
  | some domain =>
    if 0 < domain.normalizedParentDomainName.length then
      match (fetchParentDomains domain t context).head? with
      | none => .ok (domainErrors config domain context.ownerId ++ [.dataTrigger "Parent domain is not present"])
      | some parentDomain =>
        .ok (domainErrors config domain context.ownerId ++ parentErrors domain parentDomain context.ownerId ++
          preorderErrors config domain context)
    else .ok (domainErrors config domain context.ownerId ++ preorderErrors config domain context)

/-- The triggers of the contract. -/
def dpnsDataTriggers : List DataTrigger :=
  [⟨config.dpnsDataContractId, "domain", 0, createDomainDataTrigger config⟩,
    ⟨config.dpnsDataContractId, "domain", 1, rejectDataTrigger⟩,
    ⟨config.dpnsDataContractId, "domain", 3, rejectDataTrigger⟩,
    ⟨config.dpnsDataContractId, "preorder", 1, rejectDataTrigger⟩,
    ⟨config.dpnsDataContractId, "preorder", 3, rejectDataTrigger⟩]

/-- The triggers that match, of this contract and of the others. -/
def getDataTriggers (otherTriggers : List DataTrigger) (dataContractId : Buffer) (documentType : String)
    (transitionAction : Nat) : List DataTrigger :=
  (dpnsDataTriggers config ++ otherTriggers).filter fun trigger =>
    trigger.isMatchingTriggerForData dataContractId documentType transitionAction

def executeDataTriggers (otherTriggers : List DataTrigger) (store : DocumentStore) (dataContract : DataContract)
    (ownerId : Buffer) (ts : List DocumentTransition) : List DocumentsBatchError :=
  ts.flatMap fun t => (getDataTriggers config otherTriggers dataContract.id t.type (actionOf t)).flatMap fun trigger =>
    trigger.execute t ⟨store, dataContract, ownerId⟩

/-- The contract that is registered. -/
def dpnsContract : DataContract :=
  { protocolVersion := 1
    id := config.dpnsDataContractId
    ownerId := config.dpnsOwnerId
    documents := documents }

end

/-- The processing of batches has the contract and its triggers, and accepts data that meets its schemas. -/
structure Configured (config : Config) (otherTriggers : List DataTrigger) (dpp : DocumentsDpp) : Prop where
  contract : dpp.fetchDataContract config.dpnsDataContractId = some (dpnsContract config)
  schema : ∀ t, t.isCreate → dpp.validateSchema (dpnsContract config) t = [] → meetsSchema t.type t.data = true
  triggers : ∀ store dataContract ownerId ts, dpp.executeDataTriggers store dataContract ownerId ts =
    .ok (executeDataTriggers config otherTriggers store dataContract ownerId ts)

end Dpns
