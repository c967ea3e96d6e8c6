import DashPlatform.DapiClient.ListDAPIAddressProvider
import Mathlib.Data.PNat.Basic

/-! # Requests to nodes

A request goes to a live address of a list, and is made again after a retriable error, a bounded number of times. Each
time the provider of the addresses is made from the options of the request, if these list addresses. -/

namespace DapiClient

/-- What the code uses of libraries. -/
structure Libraries where
  /-- `networks.get(name)`, by its `regtestEnabled`. -/
  network? : String → Option Bool
  /-- `Math.floor(Math.exp(n))`, or nothing where it is infinite. -/
  floorExp : ℕ → Option ℕ+

/-! ### Addresses -/

structure RawDAPIAddress where
  host : String
  httpPort : Option ℕ
  grpcPort : Option ℕ
  proRegTxHash : Option String

namespace DAPIAddress

instance : Inhabited DAPIAddress := ⟨⟨"", defaultHttpPort, defaultGrpcPort, none, 0, none⟩⟩

/-- A port that is zero counts as not given. -/
def port (given : Option ℕ) (default : ℕ) : ℕ := if given.getD 0 = 0 then default else given.getD 0

/-- `new DAPIAddress(raw)`, which throws without a host. -/
def ofRaw (raw : RawDAPIAddress) : Option DAPIAddress :=
  if raw.host = "" then none
  else some ⟨raw.host, port raw.httpPort defaultHttpPort, port raw.grpcPort defaultGrpcPort, raw.proRegTxHash, 0, none⟩

def isBanned (a : DAPIAddress) : Bool := a.banCount > 0

/-- Where requests are sent. -/
def endpoint (a : DAPIAddress) : String × ℕ × ℕ := (a.host, a.httpPort, a.grpcPort)

end DAPIAddress

def ListDAPIAddressProvider.ofAddresses (addresses : List DAPIAddress) : ListDAPIAddressProvider :=
  ⟨fun i => addresses.getD i default, addresses.length, List.range addresses.length⟩

/-- A list of addresses with the options of its provider. -/
structure Provider where
  list : ListDAPIAddressProvider
  regtestEnabled : Bool
  baseBanTime : ℕ

/-! ### Errors -/

/-- The classes of response errors. -/
inductive ResponseError
  | notFound
  | timeout
  | invalidRequest
  | invalidRequestDPP
  | internalServer
  | server
  | response
  | retriableResponse
  /-- The response error cannot be made, and an exception is thrown in its place. -/
  | exception
  deriving DecidableEq

/-- `instanceof RetriableResponseError` -/
def ResponseError.isRetriable : ResponseError → Bool
  | timeout | internalServer | server | retriableResponse => true
  | notFound | invalidRequest | invalidRequestDPP | response | exception => false

/-- What a request is rejected with. -/
inductive Rejection (E : Type)
  | invalidNetwork (network : String)
  | addressHostMissing
  /-- The host of an address that is not there is set. -/
  | typeError
  | noAvailableAddresses
  | unknown (error : E)
  | responseError (cause : ResponseError) (error : E)
  | maxRetriesReached (cause : ResponseError) (error : E)
  | noAvailableAddressesForRetry (cause : ResponseError) (error : E)

/-! ### Providers -/

/-- Options that list addresses. -/
structure AddressOptions where
  dapiAddresses : List RawDAPIAddress
  network : Option String
  baseBanTime : Option ℕ

def defaultBaseBanTime : ℕ := 60 * 1000

section
variable {E : Type} (libraries : Libraries)

/-- For options that list addresses, or say nothing of where addresses come from. -/
def createDAPIAddressProviderFromOptions : Option AddressOptions → Except (Rejection E) (Option Provider)
  | none => .ok none
  | some options =>
    let network := options.network.filter (· ≠ "")
    match network, network.bind libraries.network? with
    | some network, none => .error (.invalidNetwork network)
    | _, regtestEnabled =>
      match options.dapiAddresses.mapM DAPIAddress.ofRaw with
      | none => .error .addressHostMissing
      | some addresses =>
        .ok (some ⟨.ofAddresses addresses, regtestEnabled.getD false, options.baseBanTime.getD defaultBaseBanTime⟩)

namespace Provider

def change (i : ℕ) (f : DAPIAddress → DAPIAddress) (self : Provider) : Provider := { self with list := self.list.change i f }

/-- An address is not banned, or its ban time is over. -/
def isLive (self : Provider) (now : ℕ) (address : DAPIAddress) : Bool :=
  if !address.isBanned then true
  else match address.banStartTime, libraries.floorExp (address.banCount - 1) with
    | some banStartTime, some coefficient => now > banStartTime + coefficient * self.baseBanTime
    | _, _ => false

def getLiveAddresses (self : Provider) (now : ℕ) : List ℕ :=
  self.list.addresses.filter fun i => self.isLive libraries now (self.list.objects i)

def hasLiveAddresses (self : Provider) (now : ℕ) : Bool := (self.getLiveAddresses libraries now).length > 0

/-- `lodash.sample`, with a random number. -/
def sample (l : List ℕ) (random : ℕ) : Option ℕ := l[random % l.length]?

/-- The address, and the provider with its host set on a network of regtest. -/
def getLiveAddress (self : Provider) (now random : ℕ) : Except (Rejection E) (Option ℕ × Provider) :=
  match sample (self.getLiveAddresses libraries now) random with
  | some i => .ok (some i, if self.regtestEnabled then self.change i (.setHost "127.0.0.1") else self)
  | none => if self.regtestEnabled then .error .typeError else .ok (none, self)

end Provider
end

/-! ### Requests -/

/-- What a call of a request meets: when it asks for an address and which it gets, when and what the node answers, and
    when the call asks for other addresses. -/
structure Round (R E : Type) where
  askedAt : ℕ
  random : ℕ
  answeredAt : ℕ
  answer : Except E R
  checkedAt : ℕ

structure Attempt (R E : Type) where
  address : DAPIAddress
  answer : Except E R

/-- What a request has done: the attempts, what it returns or throws, and the provider of the client after it. -/
structure Request (R E : Type) where
  attempts : List (Attempt R E)
  outcome : Except (Rejection E) R
  dapiAddressProvider : Provider

/-- What the transports differ in. -/
structure Transport (E : Type) where
  /-- `error.code !== undefined` -/
  hasCode : E → Bool
  /-- What an error with a code does to the address. -/
  mark : ℕ → DAPIAddress → DAPIAddress
  createError : E → ResponseError
  /-- There is an option for timeouts. -/
  knowsThrowDeadlineExceeded : Bool

namespace Transport
variable {R E : Type} (self : Transport E) (libraries : Libraries) (addresses : Option AddressOptions)
  (throwDeadlineExceeded : Bool)

/-- A provider that was made for a call is lost after it. -/
def kept (own : Option Provider) (shared provider : Provider) : Provider := if own.isSome then shared else provider

/-- One call of `request`, which makes the request `again` where there are retries left. -/
def call (again : Option (Provider → Request R E)) (round : Round R E) (shared : Provider) : Request R E :=
  match createDAPIAddressProviderFromOptions libraries addresses with
  | .error rejection => ⟨[], .error rejection, shared⟩
  | .ok own =>
    match (own.getD shared).getLiveAddress libraries round.askedAt round.random with
    | .error rejection => ⟨[], .error rejection, shared⟩
    | .ok (none, provider) => ⟨[], .error .noAvailableAddresses, kept own shared provider⟩
    | .ok (some i, provider) =>
      let attempt : Attempt R E := ⟨provider.list.objects i, round.answer⟩
      match round.answer with
      | .ok result => ⟨[attempt], .ok result, kept own shared (provider.change i .markAsLive)⟩
      | .error error =>
        if !self.hasCode error then ⟨[attempt], .error (.unknown error), kept own shared provider⟩
        else
          let provider := provider.change i (self.mark round.answeredAt)
          let cause := self.createError error
          if !cause.isRetriable then ⟨[attempt], .error (.responseError cause error), kept own shared provider⟩
          else if self.knowsThrowDeadlineExceeded && throwDeadlineExceeded && cause = .timeout then
            ⟨[attempt], .error (.responseError cause error), kept own shared provider⟩
          else match again with
            | none => ⟨[attempt], .error (.maxRetriesReached cause error), kept own shared provider⟩
            | some again =>
              if !provider.hasLiveAddresses libraries round.checkedAt then
                ⟨[attempt], .error (.noAvailableAddressesForRetry cause error), kept own shared provider⟩
              else
                let rest := again (kept own shared provider)
                { rest with attempts := attempt :: rest.attempts }

/-- The request from a round on. -/
def request (rounds : ℕ → Round R E) : (retries round : ℕ) → Provider → Request R E
  | 0, round => self.call libraries addresses throwDeadlineExceeded none (rounds round)
  | retries + 1, round =>
    self.call libraries addresses throwDeadlineExceeded (some (request rounds retries (round + 1))) (rounds round)

end Transport

/-- `globalOptions` and the provider that was made of them. -/
structure Client where
  dapiAddressProvider : Provider
  retries : ℕ

/-- The options of a request. -/
structure Options where
  addresses : Option AddressOptions
  retries : Option ℕ
  throwDeadlineExceeded : Bool

/-! ### The transports -/

/-- A code of an error, which is a text where it comes from metadata. -/
inductive Code
  | number (n : Int)
  | text (s : String)
  deriving DecidableEq

namespace Code

def toText : Code → String
  | number n => toString n
  | text s => s

def value? : Code → Option Int
  | number n => some n
  | text s => s.toInt?

end Code

inductive Metadata
  | absent
  /-- An instance of `Metadata`. -/
  | grpc (code : Option String)
  | object (code : Option Int)
  deriving DecidableEq

structure GrpcError where
  code : Option Int
  metadata : Metadata
  deriving DecidableEq

namespace GrpcTransport

def notFoundCode : Int := 5
def deadlineExceededCode : Int := 4
def internalCode : Int := 13

/-- INVALID_ARGUMENT, FAILED_PRECONDITION, ALREADY_EXISTS, UNAUTHENTICATED, OUT_OF_RANGE, PERMISSION_DENIED -/
def invalidRequestCodes : List Int := [3, 9, 6, 16, 11, 7]

/-- RESOURCE_EXHAUSTED, UNAVAILABLE, CANCELLED, UNKNOWN, DATA_LOSS, UNIMPLEMENTED, ABORTED, INTERNAL -/
def serverErrorCodes : List Int := [8, 14, 1, 2, 15, 12, 10, internalCode]

/-- DAPI passes custom codes as a part of metadata. -/
def errorCode (error : GrpcError) : Code :=
  match error.metadata with
  | .grpc (some code) => .text code
  | .object (some code) => .number code
  | _ => .number (error.code.getD 0)

def createGrpcTransportError (error : GrpcError) : ResponseError :=
  let code := errorCode error
  if code.toText = toString notFoundCode then .notFound
  else if code.toText = toString deadlineExceededCode then .timeout
  else if code ∈ invalidRequestCodes.map Code.number then .invalidRequest
  else if code = .number internalCode then
    match error.metadata with
    -- an object has no `get`
    | .object _ => .exception
    | _ => .internalServer
  else if code ∈ serverErrorCodes.map Code.number then .server
  else match code.value? with
    | some n => if n ≥ 1000 ∧ n < 5000 then .invalidRequestDPP else .response
    | none => .response

/-- Addresses are not banned. -/
def transport : Transport GrpcError where
  hasCode error := error.code.isSome
  mark _ address := address
  createError := createGrpcTransportError
  knowsThrowDeadlineExceeded := true

def request {R : Type} (libraries : Libraries) (client : Client) (options : Options) (rounds : ℕ → Round R GrpcError) :
    Request R GrpcError :=
  transport.request libraries options.addresses options.throwDeadlineExceeded rounds (options.retries.getD client.retries) 0
    client.dapiAddressProvider

end GrpcTransport

inductive JsonError
  /-- An error without a code. -/
  | wrongHttpCode
  | jsonRpc (code : Option Int)
  /-- An error of the HTTP client. -/
  | http (code : Option String)
  deriving DecidableEq

namespace JsonRpcTransport

def hasCode : JsonError → Bool
  | .wrongHttpCode => false
  | .jsonRpc code => code.isSome
  | .http code => code.isSome

def retriableCodes : List String := ["ECONNABORTED", "ECONNREFUSED", "ETIMEDOUT"]

/-- No code is at least -32000 and at most -32099. -/
def createJsonTransportError : JsonError → ResponseError
  | .wrongHttpCode => .server
  | .jsonRpc code =>
    if code ≠ some (-32603) ∧ ¬code.any fun code => code ≥ -32000 && code ≤ -32099 then .response
    else .retriableResponse
  | .http code => if ¬code.any retriableCodes.contains then .response else .retriableResponse

def transport : Transport JsonError where
  hasCode := hasCode
  mark := DAPIAddress.markAsBanned
  createError := createJsonTransportError
  knowsThrowDeadlineExceeded := false

def request {R : Type} (libraries : Libraries) (client : Client) (options : Options) (rounds : ℕ → Round R JsonError) :
    Request R JsonError :=
  transport.request libraries options.addresses options.throwDeadlineExceeded rounds (options.retries.getD client.retries) 0
    client.dapiAddressProvider

end JsonRpcTransport
end DapiClient
